import TicketBooking.Library.Sessions
import TicketBooking.Order.Booking
/-!
# The order service, statement by statement

`OrderService.create`, `confirm_payment`, `expire_order`,
`migrate_anonymous_orders` and the `order:cancel_reservation` task as sessions
at READ COMMITTED.  A control point names the statement that runs next and
carries what the Python frame and the open transaction hold: the rows a
statement returned and the transaction's own writes, which the other sessions
see only after the commit.

An UPDATE of one row by id that finds the row matching takes its lock and is
evaluated on the version it locked, so waiting and re-checking are one step
here.  `SELECT ... FOR UPDATE` is the exception the service depends on: its
WHERE clause is evaluated at its start, the matching rows are locked one after
another, and no create, payment or expiry updates a category row, so nothing is
re-checked after a wait.
-/

namespace TicketBooking.Order.Transactions

open TicketBooking.App.Exceptions
open TicketBooking.Database.Shared TicketBooking.Database.Tables
open TicketBooking.Library.Sessions
open TicketBooking.Order.Booking
open TicketBooking.Tasks.Scheduling

/-- The name `get_model_name` gives the table. -/
def ordersTable : String := "orders"
def usersTable : String := "users"

/-- `chunk_size` of `MutationQueryExecutor.create`. -/
def chunkSize : Nat := 1000

/-- What decides how a statement goes, besides the state: the order in which
the database returns rows, the clock, and failures from outside. -/
inductive Act
  | run
  | select (categories : List TicketCategory)
  | rows (ids : List Nat)
  | perform (now later : Nat)
  | fire (id : ScheduleId)
  | fail
  deriving DecidableEq

/-! ## `create` -/

inductive CreatePc
  | start (call : CreateCall)
  | locking (call : CreateCall) (categories : List TicketCategory) (todo : List Nat)
  | selected (call : CreateCall) (data : List ItemData)
  | insertingItems (order : Order) (items : List OrderItem) (todo : List ItemData)
  | insertingTickets (order : Order) (items : List OrderItem) (tickets : List Ticket)
      (todo : List (Nat × Nat))
  | committed (order : Order) (items : List OrderItem)
  | finished (committed : Option Nat) (result : Except AppException (Order × List OrderItem))

def afterSelect (call : CreateCall) (categories : List TicketCategory) :
    Effect Store Row × CreatePc :=
  match missingItem categories call.data.items with
  | some item => (.rollback, .finished none (.error (noTickets item)))
  | none =>
      match itemsData categories call.data.items with
      | none => (.rollback, .finished none (.error (.other "KeyError")))
      | some data => (.stay, .selected call data)

def brokerFailure : AppException := .other "task manager failure"

/-- Sequences advance at once and stay advanced after a rollback. -/
def drawOrderId (s : Store) : Store :=
  { s with seq := { s.seq with orders := s.seq.orders + 1 } }

def drawItemIds (n : Nat) (s : Store) : Store :=
  { s with seq := { s.seq with orderItems := s.seq.orderItems + n } }

def drawTicketIds (n : Nat) (s : Store) : Store :=
  { s with seq := { s.seq with tickets := s.seq.tickets + n } }

def enqueue (task : Task) (delay : Option Nat) (now later : Nat) (s : Store) : Store :=
  { s with tasks := performTask s.tasks task delay now later }

def createStep (s : Store) : CreatePc → Act → Option (Effect Store Row × CreatePc)
  | .start call, .select categories =>
      if ownerGiven call ∧ categories.isPerm (selectedCategories s.db call.data.items) then
        some (.stay, .locking call categories (categories.map fun cat => cat.id))
      else none
  | .start call, .run =>
      if ownerGiven call then none
      else some (.stay, .finished none (.error ownerError))
  | .locking call categories (id :: todo), .run =>
      some (.lock (.ticketCategory id), .locking call categories todo)
  | .locking call categories [], .run => some (afterSelect call categories)
  | .selected call data, .run =>
      if userExists s.db call.userId then
        some (.emit drawOrderId, .insertingItems (newOrder call s.seq.orders) [] data)
      else some (.rollback, .finished none (.error (.databaseError .foreignKeyViolation)))
  | .insertingItems order items [], .run =>
      some (.stay, .insertingTickets order items [] (ticketsToInsert items))
  | .insertingItems order items todo, .run =>
      some (.emit (drawItemIds (todo.take chunkSize).length),
        .insertingItems order
          (items ++ assignIds (newItem order.id) s.seq.orderItems (todo.take chunkSize))
          (todo.drop chunkSize))
  | .insertingTickets order items tickets [], .run =>
      some (.commit fun s => s.withDb (insertBooking order items tickets), .committed order items)
  | .insertingTickets order items tickets todo, .run =>
      some (.emit (drawTicketIds (todo.take chunkSize).length),
        .insertingTickets order items
          (tickets ++ assignIds newTicket s.seq.tickets (todo.take chunkSize))
          (todo.drop chunkSize))
  | .committed order items, .perform now later =>
      some (.emit (enqueue (.cancelReservation order.id) (some 900) now later),
        .finished (some order.id) (.ok (order, items)))
  | .committed order _, .fail =>
      some (.stay, .finished (some order.id) (.error brokerFailure))
  | .finished _ _, _ => none
  | _, .fail => some (.rollback, .finished none (.error (.databaseError .unhandled)))
  | _, _ => none

/-! ## `confirm_payment` and `expire_order` -/

def findOrder (db : Db) (id : Nat) : Option Order :=
  db.orders.find? fun order => order.id = id

/-- `WHERE orders.id = :id AND orders.status = 'pending'`. -/
def isPending (db : Db) (id : Nat) : Bool :=
  db.orders.any fun order => order.id = id ∧ order.status = .pending

def itemIdsOf (db : Db) (orderId : Nat) : List Nat :=
  (db.orderItems.filter fun item => item.orderId = orderId).map fun item => item.id

/-- The tickets whose `order_item_id` is one of `itemIds`. -/
def ticketIdsOf (db : Db) (itemIds : List Nat) : List Nat :=
  (db.tickets.filter fun ticket => ticket.orderItemId.any (· ∈ itemIds)).map fun ticket => ticket.id

def setOrderStatus (id : Nat) (status : OrderStatus) (orders : List Order) : List Order :=
  orders.map fun order => if order.id = id then { order with status := status } else order

def payBooking (id : Nat) (ticketIds : List Nat) (db : Db) : Db :=
  { db with
    orders := setOrderStatus id .paid db.orders
    tickets := db.tickets.map fun ticket =>
      if ticket.id ∈ ticketIds then { ticket with status := .paid } else ticket }

def cancelBooking (id : Nat) (ticketIds : List Nat) (db : Db) : Db :=
  { db with
    orders := setOrderStatus id .cancelled db.orders
    tickets := db.tickets.filter fun ticket => ticket.id ∉ ticketIds }

def orderNotFound (id : Nat) : AppException := .objectNotFound ordersTable (.id id)

inductive ConfirmPc
  | start (objId : Nat)
  | missed (objId : Nat)
  | updated (objId : Nat)
  | itemsRead (objId : Nat) (itemIds : List Nat)
  | ticketsUpdated (objId : Nat) (ticketIds : List Nat)
  | committed (objId : Nat)
  | finished (result : Except AppException Bool)

def confirmStep (s : Store) : ConfirmPc → Act → Option (Effect Store Row × ConfirmPc)
  | .start id, .run =>
      if isPending s.db id then some (.lock (.order id), .updated id)
      else some (.stay, .missed id)
  | .missed id, .run =>
      match findOrder s.db id with
      | none => some (.rollback, .finished (.error (orderNotFound id)))
      | some order =>
          if order.status = .paid then some (.rollback, .finished (.ok true))
          else some (.rollback,
            .finished (.error (.wrongState [OrderStatus.pending.value] none)))
  | .updated id, .run => some (.stay, .itemsRead id (itemIdsOf s.db id))
  | .itemsRead id itemIds, .run =>
      some (.stay, .ticketsUpdated id (if itemIds = [] then [] else ticketIdsOf s.db itemIds))
  | .ticketsUpdated id ticketIds, .run =>
      some (.commit fun s => s.withDb (payBooking id ticketIds), .committed id)
  | .committed id, .perform now later =>
      some (.emit (enqueue (.sendConfirmationMail id) none now later), .finished (.ok true))
  | .committed _, .fail => some (.stay, .finished (.error brokerFailure))
  | .finished _, _ => none
  | _, .fail => some (.rollback, .finished (.error (.databaseError .unhandled)))
  | _, _ => none

inductive ExpirePc
  | start (objId : Nat)
  | missed (objId : Nat)
  | updated (objId : Nat)
  | ticketsDeleted (objId : Nat) (ticketIds : List Nat)
  | finished (result : Except AppException Bool)

def expireStep (s : Store) : ExpirePc → Act → Option (Effect Store Row × ExpirePc)
  | .start id, .run =>
      if isPending s.db id then some (.lock (.order id), .updated id)
      else some (.stay, .missed id)
  | .missed id, .run =>
      match findOrder s.db id with
      | none => some (.rollback, .finished (.error (orderNotFound id)))
      | some order => some (.rollback, .finished (.ok (order.status = .cancelled)))
  | .updated id, .run =>
      -- `order_item__order_id` becomes `order_item_id IN (SELECT order_items.id ...)`
      some (.stay, .ticketsDeleted id (ticketIdsOf s.db (itemIdsOf s.db id)))
  | .ticketsDeleted id ticketIds, .run =>
      some (.commit fun s => s.withDb (cancelBooking id ticketIds), .finished (.ok true))
  | .finished _, _ => none
  | _, .fail => some (.rollback, .finished (.error (.databaseError .unhandled)))
  | _, _ => none

/-! ## `migrate_anonymous_orders` -/

def anonymousOrderIds (db : Db) (email : String) : List Nat :=
  (db.orders.filter fun order => order.anonymousEmail = some email).map fun order => order.id

def migrateOrders (userId : Nat) (ids : List Nat) (db : Db) : Db :=
  { db with
    orders := db.orders.map fun order =>
      if order.id ∈ ids then { order with userId := some userId, anonymousEmail := none }
      else order }

inductive MigratePc
  | start (email : String)
  | userRead (email : String) (userId : Nat)
  | updating (email : String) (userId : Nat) (todo done : List Nat)
  | finished (result : Except AppException Nat)

def migrateStep (s : Store) : MigratePc → Act → Option (Effect Store Row × MigratePc)
  | .start email, .run =>
      match s.db.users.filter fun user => user.email = email with
      | [user] => some (.stay, .userRead email user.id)
      | _ => some (.rollback, .finished (.error (.objectNotFound usersTable (.text email))))
  | .userRead email userId, .rows ids =>
      -- the UPDATE finds its rows on its snapshot, in whatever order
      if ids.isPerm (anonymousOrderIds s.db email) then some (.stay, .updating email userId ids [])
      else none
  | .updating email userId (id :: todo) done, .run =>
      -- and locks and re-checks them one after another
      if s.db.orders.any fun order => order.id = id ∧ order.anonymousEmail = some email then
        some (.lock (.order id), .updating email userId todo (done ++ [id]))
      else some (.stay, .updating email userId todo done)
  | .updating _ userId [] done, .run =>
      if done = [] then some (.rollback, .finished (.ok 0))
      else some (.commit fun s => s.withDb (migrateOrders userId done), .finished (.ok done.length))
  | .finished _, _ => none
  | _, .fail => some (.rollback, .finished (.error (.databaseError .unhandled)))
  | _, _ => none

/-! ## What each statement does -/

inductive CreateStep (s : Store) : CreatePc → Act → Effect Store Row → CreatePc → Prop
  | refuseOwner {call : CreateCall} (howner : ¬ ownerGiven call) :
      CreateStep s (.start call) .run .stay (.finished none (.error ownerError))
  | select {call : CreateCall} {categories : List TicketCategory} (howner : ownerGiven call)
      (hperm : categories.isPerm (selectedCategories s.db call.data.items)) :
      CreateStep s (.start call) (.select categories) .stay
        (.locking call categories (categories.map fun cat => cat.id))
  | lock {call : CreateCall} {categories : List TicketCategory} {id : Nat} {todo : List Nat} :
      CreateStep s (.locking call categories (id :: todo)) .run (.lock (.ticketCategory id))
        (.locking call categories todo)
  | refuseItem {call : CreateCall} {categories : List TicketCategory} {item : OrderItemCreateSchema}
      (hmissing : missingItem categories call.data.items = some item) :
      CreateStep s (.locking call categories []) .run .rollback
        (.finished none (.error (noTickets item)))
  | keyError {call : CreateCall} {categories : List TicketCategory}
      (hmissing : missingItem categories call.data.items = none)
      (hdata : itemsData categories call.data.items = none) :
      CreateStep s (.locking call categories []) .run .rollback
        (.finished none (.error (.other "KeyError")))
  | accept {call : CreateCall} {categories : List TicketCategory} {data : List ItemData}
      (hmissing : missingItem categories call.data.items = none)
      (hdata : itemsData categories call.data.items = some data) :
      CreateStep s (.locking call categories []) .run .stay (.selected call data)
  | refuseUser {call : CreateCall} {data : List ItemData} (huser : ¬ userExists s.db call.userId) :
      CreateStep s (.selected call data) .run .rollback
        (.finished none (.error (.databaseError .foreignKeyViolation)))
  | insertOrder {call : CreateCall} {data : List ItemData} (huser : userExists s.db call.userId) :
      CreateStep s (.selected call data) .run (.emit drawOrderId)
        (.insertingItems (newOrder call s.seq.orders) [] data)
  | insertItems {order : Order} {items : List OrderItem} {todo : List ItemData} :
      CreateStep s (.insertingItems order items todo) .run
        (.emit (drawItemIds (todo.take chunkSize).length))
        (.insertingItems order
          (items ++ assignIds (newItem order.id) s.seq.orderItems (todo.take chunkSize))
          (todo.drop chunkSize))
  | itemsDone {order : Order} {items : List OrderItem} :
      CreateStep s (.insertingItems order items []) .run .stay
        (.insertingTickets order items [] (ticketsToInsert items))
  | insertTickets {order : Order} {items : List OrderItem} {tickets : List Ticket}
      {todo : List (Nat × Nat)} :
      CreateStep s (.insertingTickets order items tickets todo) .run
        (.emit (drawTicketIds (todo.take chunkSize).length))
        (.insertingTickets order items
          (tickets ++ assignIds newTicket s.seq.tickets (todo.take chunkSize))
          (todo.drop chunkSize))
  | commit {order : Order} {items : List OrderItem} {tickets : List Ticket} :
      CreateStep s (.insertingTickets order items tickets []) .run
        (.commit fun s => s.withDb (insertBooking order items tickets)) (.committed order items)
  | schedule {order : Order} {items : List OrderItem} {now later : Nat} :
      CreateStep s (.committed order items) (.perform now later)
        (.emit (enqueue (.cancelReservation order.id) (some 900) now later))
        (.finished (some order.id) (.ok (order, items)))
  | scheduleFails {order : Order} {items : List OrderItem} :
      CreateStep s (.committed order items) .fail .stay
        (.finished (some order.id) (.error brokerFailure))
  | fails {pc : CreatePc} (hcommitted : ∀ order items, pc ≠ .committed order items) :
      CreateStep s pc .fail .rollback (.finished none (.error (.databaseError .unhandled)))

theorem createStep_cases {s : Store} {pc pc' : CreatePc} {a : Act} {eff : Effect Store Row}
    (h : createStep s pc a = some (eff, pc')) : CreateStep s pc a eff pc' := by
  fun_cases createStep s pc a
  all_goals simp only [createStep] at h
  case case1 call categories hcond =>
      rw [if_pos hcond] at h
      cases h
      exact .select hcond.1 hcond.2
  case case2 call categories hcond =>
      rw [if_neg hcond] at h
      cases h
  case case3 call howner =>
      rw [if_pos howner] at h
      cases h
  case case4 call howner =>
      rw [if_neg howner] at h
      cases h
      exact .refuseOwner howner
  case case6 call categories =>
      unfold afterSelect at h
      cases hmissing : missingItem categories call.data.items with
      | some item =>
          simp only [hmissing] at h
          cases h
          exact .refuseItem hmissing
      | none =>
          cases hdata : itemsData categories call.data.items with
          | none =>
              simp only [hmissing, hdata] at h
              cases h
              exact .keyError hmissing hdata
          | some data =>
              simp only [hmissing, hdata] at h
              cases h
              exact .accept hmissing hdata
  case case7 call data huser =>
      rw [if_pos huser] at h
      cases h
      exact .insertOrder huser
  case case8 call data huser =>
      rw [if_neg huser] at h
      cases h
      exact .refuseUser huser
  case case16 hcommitted _ =>
      cases h
      exact .fails hcommitted
  all_goals cases h
  all_goals constructor

inductive ConfirmStep (s : Store) : ConfirmPc → Act → Effect Store Row → ConfirmPc → Prop
  | update {id : Nat} (hpending : isPending s.db id) :
      ConfirmStep s (.start id) .run (.lock (.order id)) (.updated id)
  | miss {id : Nat} (hpending : ¬ isPending s.db id) :
      ConfirmStep s (.start id) .run .stay (.missed id)
  | notFound {id : Nat} (hnone : findOrder s.db id = none) :
      ConfirmStep s (.missed id) .run .rollback (.finished (.error (orderNotFound id)))
  | alreadyPaid {id : Nat} {order : Order} (hsome : findOrder s.db id = some order)
      (hpaid : order.status = .paid) :
      ConfirmStep s (.missed id) .run .rollback (.finished (.ok true))
  | wrongState {id : Nat} {order : Order} (hsome : findOrder s.db id = some order)
      (hpaid : order.status ≠ .paid) :
      ConfirmStep s (.missed id) .run .rollback
        (.finished (.error (.wrongState [OrderStatus.pending.value] none)))
  | readItems {id : Nat} :
      ConfirmStep s (.updated id) .run .stay (.itemsRead id (itemIdsOf s.db id))
  | updateTickets {id : Nat} {itemIds : List Nat} :
      ConfirmStep s (.itemsRead id itemIds) .run .stay
        (.ticketsUpdated id (if itemIds = [] then [] else ticketIdsOf s.db itemIds))
  | commit {id : Nat} {ticketIds : List Nat} :
      ConfirmStep s (.ticketsUpdated id ticketIds) .run
        (.commit fun s => s.withDb (payBooking id ticketIds)) (.committed id)
  | mail {id now later : Nat} :
      ConfirmStep s (.committed id) (.perform now later)
        (.emit (enqueue (.sendConfirmationMail id) none now later)) (.finished (.ok true))
  | mailFails {id : Nat} :
      ConfirmStep s (.committed id) .fail .stay (.finished (.error brokerFailure))
  | fails {pc : ConfirmPc} (hcommitted : ∀ id, pc ≠ .committed id) :
      ConfirmStep s pc .fail .rollback (.finished (.error (.databaseError .unhandled)))

theorem confirmStep_cases {s : Store} {pc pc' : ConfirmPc} {a : Act} {eff : Effect Store Row}
    (h : confirmStep s pc a = some (eff, pc')) : ConfirmStep s pc a eff pc' := by
  fun_cases confirmStep s pc a
  all_goals simp only [confirmStep] at h
  all_goals try simp only [*, if_true, if_false] at h
  all_goals cases h
  all_goals constructor <;> assumption

inductive ExpireStep (s : Store) : ExpirePc → Act → Effect Store Row → ExpirePc → Prop
  | update {id : Nat} (hpending : isPending s.db id) :
      ExpireStep s (.start id) .run (.lock (.order id)) (.updated id)
  | miss {id : Nat} (hpending : ¬ isPending s.db id) :
      ExpireStep s (.start id) .run .stay (.missed id)
  | notFound {id : Nat} (hnone : findOrder s.db id = none) :
      ExpireStep s (.missed id) .run .rollback (.finished (.error (orderNotFound id)))
  | settled {id : Nat} {order : Order} (hsome : findOrder s.db id = some order) :
      ExpireStep s (.missed id) .run .rollback (.finished (.ok (order.status = .cancelled)))
  | deleteTickets {id : Nat} :
      ExpireStep s (.updated id) .run .stay
        (.ticketsDeleted id (ticketIdsOf s.db (itemIdsOf s.db id)))
  | commit {id : Nat} {ticketIds : List Nat} :
      ExpireStep s (.ticketsDeleted id ticketIds) .run
        (.commit fun s => s.withDb (cancelBooking id ticketIds)) (.finished (.ok true))
  | fails {pc : ExpirePc} :
      ExpireStep s pc .fail .rollback (.finished (.error (.databaseError .unhandled)))

theorem expireStep_cases {s : Store} {pc pc' : ExpirePc} {a : Act} {eff : Effect Store Row}
    (h : expireStep s pc a = some (eff, pc')) : ExpireStep s pc a eff pc' := by
  fun_cases expireStep s pc a
  all_goals simp only [expireStep] at h
  all_goals try simp only [*, if_true] at h
  all_goals cases h
  all_goals constructor <;> assumption

inductive MigrateStep (s : Store) : MigratePc → Act → Effect Store Row → MigratePc → Prop
  | userMissing {email : String} :
      MigrateStep s (.start email) .run .rollback
        (.finished (.error (.objectNotFound usersTable (.text email))))
  | readUser {email : String} {user : User}
      (huser : (s.db.users.filter fun user => user.email = email) = [user]) :
      MigrateStep s (.start email) .run .stay (.userRead email user.id)
  | findRows {email : String} {userId : Nat} {ids : List Nat}
      (hperm : ids.isPerm (anonymousOrderIds s.db email)) :
      MigrateStep s (.userRead email userId) (.rows ids) .stay (.updating email userId ids [])
  | lockRow {email : String} {userId id : Nat} {todo done : List Nat}
      (hmatch : s.db.orders.any fun order => order.id = id ∧ order.anonymousEmail = some email) :
      MigrateStep s (.updating email userId (id :: todo) done) .run (.lock (.order id))
        (.updating email userId todo (done ++ [id]))
  | skipRow {email : String} {userId id : Nat} {todo done : List Nat} :
      MigrateStep s (.updating email userId (id :: todo) done) .run .stay
        (.updating email userId todo done)
  | nothing {email : String} {userId : Nat} {done : List Nat} :
      MigrateStep s (.updating email userId [] done) .run .rollback (.finished (.ok 0))
  | commit {email : String} {userId : Nat} {done : List Nat} :
      MigrateStep s (.updating email userId [] done) .run
        (.commit fun s => s.withDb (migrateOrders userId done)) (.finished (.ok done.length))
  | fails {pc : MigratePc} :
      MigrateStep s pc .fail .rollback (.finished (.error (.databaseError .unhandled)))

theorem migrateStep_cases {s : Store} {pc pc' : MigratePc} {a : Act} {eff : Effect Store Row}
    (h : migrateStep s pc a = some (eff, pc')) : MigrateStep s pc a eff pc' := by
  fun_cases migrateStep s pc a
  all_goals simp only [migrateStep] at h
  all_goals try simp only [*, if_true, if_false] at h
  all_goals cases h
  all_goals constructor <;> assumption

/-! ## The sessions -/

/-- `waiting` is a worker that has not received a scheduled cancellation yet. -/
inductive Pc
  | create (pc : CreatePc)
  | confirm (pc : ConfirmPc)
  | expire (pc : ExpirePc)
  | migrate (pc : MigratePc)
  | waiting

/-- The scheduler fires the entry: the source forgets it and a worker runs
`expire_order`. -/
def fireEntry (id : ScheduleId) (orderId : Nat) (s : Store) : Store :=
  { s with tasks := s.tasks.take id, fired := s.fired ++ [orderId] }

def waitingStep (s : Store) : Act → Option (Effect Store Row × Pc)
  | .fire id =>
      match s.tasks.entries.find? fun entry => entry.1 = id with
      | some (_, ⟨.cancelReservation orderId, _⟩) =>
          some (.emit (fireEntry id orderId), .expire (.start orderId))
      | _ => none
  | _ => none

def orderStep {ι : Type} : Protocol ι Store Row Pc Act
  | _, s, .create pc, a => (createStep s pc a).map fun (eff, pc) => (eff, .create pc)
  | _, s, .confirm pc, a => (confirmStep s pc a).map fun (eff, pc) => (eff, .confirm pc)
  | _, s, .expire pc, a => (expireStep s pc a).map fun (eff, pc) => (eff, .expire pc)
  | _, s, .migrate pc, a => (migrateStep s pc a).map fun (eff, pc) => (eff, .migrate pc)
  | _, s, .waiting, a => waitingStep s a

/-- The statements of the order service and its workers. -/
inductive OrderStep (s : Store) : Pc → Act → Effect Store Row → Pc → Prop
  | create {pc pc' : CreatePc} {a : Act} {eff : Effect Store Row} (h : CreateStep s pc a eff pc') :
      OrderStep s (.create pc) a eff (.create pc')
  | confirm {pc pc' : ConfirmPc} {a : Act} {eff : Effect Store Row}
      (h : ConfirmStep s pc a eff pc') : OrderStep s (.confirm pc) a eff (.confirm pc')
  | expire {pc pc' : ExpirePc} {a : Act} {eff : Effect Store Row} (h : ExpireStep s pc a eff pc') :
      OrderStep s (.expire pc) a eff (.expire pc')
  | migrate {pc pc' : MigratePc} {a : Act} {eff : Effect Store Row}
      (h : MigrateStep s pc a eff pc') : OrderStep s (.migrate pc) a eff (.migrate pc')
  | fire {id : ScheduleId} {orderId time : Nat}
      (hentry : (id, ⟨.cancelReservation orderId, time⟩) ∈ s.tasks.entries) :
      OrderStep s .waiting (.fire id) (.emit (fireEntry id orderId)) (.expire (.start orderId))

theorem orderStep_cases {ι : Type} {i : ι} {s : Store} {pc pc' : Pc} {a : Act}
    {eff : Effect Store Row} (h : orderStep i s pc a = some (eff, pc')) :
    OrderStep s pc a eff pc' := by
  cases pc with
  | create pc =>
      obtain ⟨⟨eff', pc''⟩, hstep, heq⟩ := Option.map_eq_some_iff.mp h
      cases heq
      exact .create (createStep_cases hstep)
  | confirm pc =>
      obtain ⟨⟨eff', pc''⟩, hstep, heq⟩ := Option.map_eq_some_iff.mp h
      cases heq
      exact .confirm (confirmStep_cases hstep)
  | expire pc =>
      obtain ⟨⟨eff', pc''⟩, hstep, heq⟩ := Option.map_eq_some_iff.mp h
      cases heq
      exact .expire (expireStep_cases hstep)
  | migrate pc =>
      obtain ⟨⟨eff', pc''⟩, hstep, heq⟩ := Option.map_eq_some_iff.mp h
      cases heq
      exact .migrate (migrateStep_cases hstep)
  | waiting =>
      simp only [orderStep, waitingStep] at h
      split at h
      · rename_i id
        split at h
        · rename_i id' orderId time hfind
          have hmem := List.mem_of_find?_eq_some hfind
          have hid : id' = id := of_decide_eq_true (List.find?_some hfind :)
          cases h
          exact .fire (hid ▸ hmem)
        · cases h
      · cases h

inductive Call
  | create (call : CreateCall)
  | confirmPayment (objId : Nat)
  | expireOrder (objId : Nat)
  | migrateAnonymousOrders (email : String)
  | cancelReservationWorker

def Call.pc : Call → Pc
  | .create call => .create (.start call)
  | .confirmPayment id => .confirm (.start id)
  | .expireOrder id => .expire (.start id)
  | .migrateAnonymousOrders email => .migrate (.start email)
  | .cancelReservationWorker => .waiting

/-! ## A small hall

One category with two places, and a call that books one of them. -/

def parterre : TicketCategory := ⟨1, 1, "parterre", 10, 2⟩

def hall : Store := { db := { ticketCategories := [parterre] } }

def onePlace : CreateCall :=
  ⟨⟨some "guest@example.com", [⟨one, one⟩], by decide⟩, none⟩

def bookOnePlace {ι : Type} (i : ι) : List (ι × Act) :=
  (i, .select [parterre]) :: List.replicate 7 (i, .run)

end TicketBooking.Order.Transactions
