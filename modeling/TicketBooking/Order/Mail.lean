import Mathlib.Algebra.Ring.Rat
import TicketBooking.Catalog.Keys
/-!
# The confirmation mail

`OrderService.get_email_notification_data` builds the mail of an order from the
categories of its items as they are when it is sent, and the price each item
was bought at is recorded beside it.  The two agree as long as no category that
has been sold changes its price.

A row of the `SELECT ... FOR UPDATE` that an update of the category changed
while the order waited for its lock is read again and tested again, so here the
order service runs with that step, beside the event and ticket services.
-/

namespace TicketBooking.Order.Mail

open TicketBooking.App.Exceptions
open TicketBooking.Catalog.Editing TicketBooking.Catalog.System TicketBooking.Catalog.Transactions
open TicketBooking.Database.Shared TicketBooking.Database.Tables
open TicketBooking.Library TicketBooking.Library.Sessions
open TicketBooking.Order.Booking
open TicketBooking.Order.Transactions (afterSelect findOrder)

/-! ## The data of the mail -/

structure OrderEmailItemSchema where
  categoryName : String
  pricePaid : Rat
  quantity : Nat
  deriving DecidableEq, Repr

structure OrderEmailDataSchema where
  orderId : Nat
  createdAt : Int
  userEmail : String
  eventTitle : String
  eventStartedAt : Int
  eventAddress : Option String
  items : List OrderEmailItemSchema
  deriving DecidableEq, Repr

def OrderEmailDataSchema.totalPrice (mail : OrderEmailDataSchema) : Rat :=
  (mail.items.map fun item => item.pricePaid * (item.quantity : Rat)).sum

/-- `AliasPath("category", "name")` and `AliasPath("category", "price")`. -/
def emailItem (db : Db) (item : OrderItem) : Option OrderEmailItemSchema :=
  (findTicketCategory db item.categoryId).map fun category =>
    ⟨category.name, category.price, item.quantity⟩

/-- `obj.user`. -/
def orderUser (db : Db) (order : Order) : Option User :=
  order.userId.bind fun id => db.users.find? fun user => user.id = id

/-- `obj.anonymous_email or user_obj.email`; `none` is the `AttributeError` of an
order without a user. -/
def targetEmail (db : Db) (order : Order) : Option String :=
  match order.anonymousEmail.filter (· ≠ "") with
  | some email => some email
  | none => (orderUser db order).map User.email

/-- `obj.items[0].category.event`. -/
def firstEvent (db : Db) (item : OrderItem) : Option Event :=
  (findTicketCategory db item.categoryId).bind fun category => findEvent db category.eventId

/-- `items` are the rows of the order in the order the database returned them,
`createdAt` is the column of that name. -/
def getEmailNotificationData (createdAt : Nat → Int) (db : Db) (orderId : Nat)
    (items : List OrderItem) : Except AppException OrderEmailDataSchema :=
  match findOrder db orderId with
  | none => .error (.valueError "No Order found matching criteria.")
  | some order =>
      match items.head? with
      | none => .error (.other "IndexError")
      | some first =>
          match firstEvent db first, targetEmail db order, items.mapM (emailItem db) with
          | some event, some email, some emailItems =>
              .ok { orderId := order.id
                    createdAt := createdAt order.id
                    userEmail := email
                    eventTitle := event.title
                    eventStartedAt := event.startedAt
                    eventAddress := event.address
                    items := emailItems }
          | some _, some _, none => .error (.other "ValidationError")
          | _, _, _ => .error (.other "AttributeError")

def itemsOf (db : Db) (orderId : Nat) : List OrderItem :=
  db.orderItems.filter fun item => item.orderId = orderId

/-! ## Orders that read a changed row again -/

/-- While its SELECT is locking rows an order keeps the snapshot it reads. -/
inductive Pc
  | locking (call : CreateCall) (snapshot : Db) (categories : List TicketCategory)
      (todo : List Nat)
  | session (pc : Catalog.System.Pc)

/-- The row the lock was granted on, if it still meets the WHERE clause, whose
subquery keeps to the snapshot. -/
def recheck (snapshot db : Db) (items : List OrderItemCreateSchema) (id : Nat)
    (categories : List TicketCategory) : List TicketCategory :=
  categories.filterMap fun category =>
    if category.id = id then (findTicketCategory db id).filter (selectable snapshot items)
    else some category

def lockingStep (s : Store) (call : CreateCall) (snapshot : Db)
    (categories : List TicketCategory) :
    List Nat → Order.Transactions.Act → Option (Effect Store Row × Pc)
  | id :: todo, .run =>
      some (.lock (.ticketCategory id),
        .locking call snapshot (recheck snapshot s.db call.data.items id categories) todo)
  | [], .run =>
      some ((afterSelect call categories).1,
        .session (.order (.create (afterSelect call categories).2)))
  | _, .fail =>
      some (.rollback, .session (.order (.create
        (.finished none (.error (.databaseError .unhandled))))))
  | _, _ => none

def mailStep {ι : Type} : Protocol ι Store Row Pc Act
  | _, s, .session (.order (.create (.start call))), .order (.select categories) =>
      if ownerGiven call ∧ categories.isPerm (selectedCategories s.db call.data.items) then
        some (.stay, .locking call s.db categories (categories.map fun cat => cat.id))
      else none
  | _, s, .locking call snapshot categories todo, .order a =>
      lockingStep s call snapshot categories todo a
  | _, _, .locking _ _ _ _, .edit _ => none
  | i, s, .session pc, a => (systemStep i s pc a).map fun (eff, pc) => (eff, .session pc)

inductive Call
  | service (call : Catalog.System.Call)
  | confirmPayment (objId : Nat)
  | expireOrder (objId : Nat)
  | migrateAnonymousOrders (email : String)
  | cancelReservationWorker

def Call.pc : Call → Pc
  | .service call => .session call.pc
  | .confirmPayment id => .session (.order (.confirm (.start id)))
  | .expireOrder id => .session (.order (.expire (.start id)))
  | .migrateAnonymousOrders email => .session (.order (.migrate (.start email)))
  | .cancelReservationWorker => .session (.order .waiting)

def atCalls {ι : Type} (s : Store) (calls : ι → Call) : World ι Store Row Pc :=
  World.start s fun i => (calls i).pc

/-- The row an update is about to commit, with the id it is committed under. -/
def rewriting : Pc → Act → Option (Nat × TicketCategory)
  | .session (.modifyTicketCategory (.modified category (some new))), .edit (.run _) =>
      some (category.id, new)
  | _, _ => none

/-- No commit changes the price of a category that an order item refers to. -/
def PricesKept {ι : Type} (w : World ι Store Row Pc) (i : ι) (a : Act) : Prop :=
  ∀ change ∈ rewriting (w.pc i) a,
    (∃ item ∈ w.shared.db.orderItems, item.categoryId = change.1) →
      ∀ old ∈ findTicketCategory w.shared.db change.1, change.2.price = old.price

instance {ι : Type} (w : World ι Store Row Pc) (i : ι) (a : Act) : Decidable (PricesKept w i a) :=
  inferInstanceAs (Decidable (∀ change ∈ rewriting (w.pc i) a,
    (∃ item ∈ w.shared.db.orderItems, item.categoryId = change.1) →
      ∀ old ∈ findTicketCategory w.shared.db change.1, change.2.price = old.price))

/-! ## What each statement does -/

/-- The statements of all sessions; the SELECT of an order is the one above. -/
inductive MailStep (s : Store) : Pc → Act → Effect Store Row → Pc → Prop
  | select {call : CreateCall} {categories : List TicketCategory} (howner : ownerGiven call) :
      MailStep s (.session (.order (.create (.start call)))) (.order (.select categories)) .stay
        (.locking call s.db categories (categories.map fun cat => cat.id))
  | lock {call : CreateCall} {snapshot : Db} {categories : List TicketCategory} {id : Nat}
      {todo : List Nat} :
      MailStep s (.locking call snapshot categories (id :: todo)) (.order .run)
        (.lock (.ticketCategory id))
        (.locking call snapshot (recheck snapshot s.db call.data.items id categories) todo)
  | answer {call : CreateCall} {snapshot : Db} {categories : List TicketCategory} :
      MailStep s (.locking call snapshot categories []) (.order .run)
        (afterSelect call categories).1
        (.session (.order (.create (afterSelect call categories).2)))
  | fails {call : CreateCall} {snapshot : Db} {categories : List TicketCategory}
      {todo : List Nat} {result : Except AppException (Order × List OrderItem)} :
      MailStep s (.locking call snapshot categories todo) (.order .fail) .rollback
        (.session (.order (.create (.finished none result))))
  | session {pc pc' : Catalog.System.Pc} {a : Act} {eff : Effect Store Row}
      (hstart : ∀ call categories, pc = .order (.create (.start call)) →
        a ≠ .order (.select categories))
      (h : SystemStep s pc a eff pc') : MailStep s (.session pc) a eff (.session pc')

theorem mailStep_cases {ι : Type} {i : ι} {s : Store} {pc pc' : Pc} {a : Act}
    {eff : Effect Store Row} (h : mailStep i s pc a = some (eff, pc')) :
    MailStep s pc a eff pc' := by
  unfold mailStep at h
  split at h
  · split_ifs at h with hcond
    cases h
    exact .select hcond.1
  · unfold lockingStep at h
    split at h
    · cases h
      exact .lock
    · cases h
      exact .answer
    · cases h
      exact .fails
    · cases h
  · cases h
  · rename_i hselect
    obtain ⟨⟨eff', pc''⟩, hstep, heq⟩ := Option.map_eq_some_iff.mp h
    cases heq
    exact .session (fun call categories hpc ha => hselect call categories ha hpc)
      (systemStep_cases hstep)

/-- The statement leaves orders and ticket categories as they are and no event
goes. -/
structure Elsewhere (db db' : Db) : Prop where
  users : db'.users = db.users
  ticketCategories : db'.ticketCategories = db.ticketCategories
  orders : db'.orders = db.orders
  orderItems : db'.orderItems = db.orderItems
  events : ∀ event ∈ db.events, ∃ event' ∈ db'.events, event'.id = event.id

/-- What a statement publishes to the other sessions. -/
inductive Publishes (s : Store) : Catalog.System.Pc → Act → Effect Store Row → Prop
  | elsewhere {pc : Catalog.System.Pc} {a : Act} {eff : Effect Store Row}
      (h : Elsewhere s.db (eff.apply s).db) : Publishes s pc a eff
  | book {order : Order} {items : List OrderItem} {tickets : List Ticket} {a : Act} :
      Publishes s (.order (.create (.insertingTickets order items tickets []))) a
        (.commit fun s => s.withDb (insertBooking order items tickets))
  | pay {id : Nat} {ticketIds : List Nat} {pc : Catalog.System.Pc} {a : Act} :
      Publishes s pc a (.commit fun s => s.withDb (Order.Transactions.payBooking id ticketIds))
  | cancel {id : Nat} {ticketIds : List Nat} {pc : Catalog.System.Pc} {a : Act} :
      Publishes s pc a (.commit fun s => s.withDb (Order.Transactions.cancelBooking id ticketIds))
  | migrate {email : String} {userId : Nat} {done : List Nat} {a : Act} :
      Publishes s (.order (.migrate (.updating email userId [] done))) a
        (.commit fun s => s.withDb (Order.Transactions.migrateOrders userId done))
  | insertTicketCategory {category : TicketCategory} {a : Act} :
      Publishes s (.createTicketCategory (.inserted category)) a
        (.commit fun s => s.withDb (insertTicketCategory category))
  | putTicketCategory {category : TicketCategory} {new : Option TicketCategory} {now : Int} :
      Publishes s (.modifyTicketCategory (.modified category new)) (.edit (.run now))
        (.commit fun s => s.withDb (putTicketCategory category.id new))

theorem Elsewhere.refl (db : Db) : Elsewhere db db :=
  ⟨rfl, rfl, rfl, rfl, fun event hevent => ⟨event, hevent, rfl⟩⟩

theorem Elsewhere.of_ids {db db' : Db} (h : Elsewhere { db with events := db'.events } db')
    (hids : (db'.events.map fun event => event.id) = db.events.map fun event => event.id) :
    Elsewhere db db' := by
  refine ⟨h.users, h.ticketCategories, h.orders, h.orderItems, fun event hevent => ?_⟩
  exact List.mem_map.mp (hids ▸ List.mem_map_of_mem hevent)

theorem orderStep_publishes {ι : Type} {i : ι} {s : Store} {pc pc' : Order.Transactions.Pc}
    {a : Order.Transactions.Act} {eff : Effect Store Row}
    (h : Order.Transactions.orderStep i s pc a = some (eff, pc')) :
    Publishes s (.order pc) (.order a) eff := by
  have hsame : (eff.apply s).db = s.db → Publishes s (.order pc) (.order a) eff := by
    intro hdb
    refine .elsewhere ?_
    rw [hdb]
    exact .refl s.db
  cases Order.Transactions.orderStep_cases h with
  | create hstep =>
      cases hstep with
      | commit => exact .book
      | _ => exact hsame rfl
  | confirm hstep =>
      cases hstep with
      | commit => exact .pay
      | _ => exact hsame rfl
  | expire hstep =>
      cases hstep with
      | commit => exact .cancel
      | _ => exact hsame rfl
  | migrate hstep =>
      cases hstep with
      | commit => exact .migrate
      | _ => exact hsame rfl
  | fire => exact hsame rfl

theorem SystemStep.publishes {s : Store} {pc pc' : Catalog.System.Pc} {a : Act}
    {eff : Effect Store Row} (h : SystemStep s pc a eff pc') : Publishes s pc a eff := by
  have hsame : (eff.apply s).db = s.db → Publishes s pc a eff := by
    intro hdb
    refine .elsewhere ?_
    rw [hdb]
    exact .refl s.db
  cases h with
  | order h => exact orderStep_publishes h
  | createEvent h =>
      cases h with
      | commit =>
          refine .elsewhere ⟨rfl, rfl, rfl, rfl, fun event hevent => ?_⟩
          exact ⟨event, List.mem_append_left _ hevent, rfl⟩
      | _ => exact hsame rfl
  | createCategory h =>
      cases h with
      | commit => exact .elsewhere ⟨rfl, rfl, rfl, rfl, fun event hevent => ⟨event, hevent, rfl⟩⟩
      | _ => exact hsame rfl
  | updateEvent h =>
      cases h with
      | commit =>
          refine .elsewhere (.of_ids ⟨rfl, rfl, rfl, rfl, fun event hevent => ?_⟩ ?_)
          · exact ⟨event, hevent, rfl⟩
          · exact Catalog.Keys.map_id_replaceEvent _ s.db
      | _ => exact hsame rfl
  | transition h =>
      cases h with
      | commit =>
          refine .elsewhere (.of_ids ⟨rfl, rfl, rfl, rfl, fun event hevent => ?_⟩ ?_)
          · exact ⟨event, hevent, rfl⟩
          · exact Catalog.Keys.map_id_setState _ _ s.db
      | _ => exact hsame rfl
  | createTicketCategory h =>
      cases h with
      | commit => exact .insertTicketCategory
      | _ => exact hsame rfl
  | modifyTicketCategory h =>
      cases h with
      | commit => exact .putTicketCategory
      | _ => exact hsame rfl

/-! ## Lookups after a write -/

theorem find_insertTicketCategory {db : Db} {id : Nat} {category : TicketCategory}
    (h : findTicketCategory db id = some category) (new : TicketCategory) :
    findTicketCategory (insertTicketCategory new db) id = some category := by
  unfold findTicketCategory at h ⊢
  rw [insertTicketCategory, List.find?_append, h]
  rfl

theorem find_putTicketCategory_of_ne {id other : Nat} (hne : other ≠ id)
    {new : Option TicketCategory} (hnew : ∀ category ∈ new, category.id = id) (db : Db) :
    findTicketCategory (putTicketCategory id new db) other = findTicketCategory db other := by
  unfold findTicketCategory putTicketCategory
  induction db.ticketCategories with
  | nil => rfl
  | cons category categories ih =>
      dsimp only at ih ⊢
      rw [List.filterMap_cons]
      by_cases hid : category.id = id
      · have hcategory : category.id ≠ other := fun h => hne (h.symm.trans hid)
        rw [if_pos hid, List.find?_cons_of_neg (by simpa using hcategory)]
        cases hput : new with
        | none => simpa [hput] using ih
        | some new' =>
            have hnew' : new'.id ≠ other := fun h => hne (h.symm.trans (hnew new' hput))
            rw [List.find?_cons_of_neg (by simpa using hnew')]
            simpa [hput] using ih
      · rw [if_neg hid]
        by_cases hother : category.id = other
        · rw [List.find?_cons_of_pos (by simpa using hother),
            List.find?_cons_of_pos (by simpa using hother)]
        · rw [List.find?_cons_of_neg (by simpa using hother),
            List.find?_cons_of_neg (by simpa using hother)]
          exact ih

theorem find_putTicketCategory_self {db : Db} {id : Nat} {old new : TicketCategory}
    (h : findTicketCategory db id = some old) (hid : new.id = id) :
    findTicketCategory (putTicketCategory id (some new) db) id = some new := by
  unfold findTicketCategory at h
  unfold findTicketCategory putTicketCategory
  generalize db.ticketCategories = rows at h ⊢
  induction rows with
  | nil => cases h
  | cons category categories ih =>
      dsimp only at ih ⊢
      rw [List.filterMap_cons]
      by_cases hcategory : category.id = id
      · rw [if_pos hcategory]
        exact List.find?_cons_of_pos (by simpa using hid)
      · rw [if_neg hcategory, List.find?_cons_of_neg (by simpa using hcategory)]
        rw [List.find?_cons_of_neg (by simpa using hcategory)] at h
        exact ih h

/-! ## What the sessions keep -/

def Staged (db : Db) (eventId : Nat) : Prop := ∃ event ∈ db.events, event.id = eventId

def Registered (db : Db) (userId : Nat) : Prop := ∃ user ∈ db.users, user.id = userId

def Reachable (db : Db) (order : Order) : Prop :=
  (∃ email, order.anonymousEmail = some email ∧ email ≠ "") ∨
    order.anonymousEmail = none ∧ ∃ id, order.userId = some id ∧ Registered db id

def Priced (db : Db) (categoryId : Nat) (price : Option Rat) : Prop :=
  ∃ category, findTicketCategory db categoryId = some category ∧ price = some category.price

/-- Every item was bought at the price its category has; the foreign keys hold,
and every order can be reached. -/
structure Mailable (db : Db) : Prop where
  priced : ∀ item ∈ db.orderItems, Priced db item.categoryId item.purchasePrice
  staged : ∀ category ∈ db.ticketCategories, Staged db category.eventId
  reachable : ∀ order ∈ db.orders, Reachable db order

/-- Before the first order only the foreign key of the categories counts. -/
theorem mailable_of_unsold {db : Db} (horders : db.orders = []) (hitems : db.orderItems = [])
    (hstaged : ∀ category ∈ db.ticketCategories, Staged db category.eventId) : Mailable db := by
  refine ⟨?_, hstaged, ?_⟩
  · simp [hitems]
  · simp [horders]

def Signed (call : CreateCall) : Prop := call.data.anonymousEmail ≠ some ""

def Reserved (db : Db) (held : Set Row) (categoryId : Nat) (price : Option Rat) : Prop :=
  Row.ticketCategory categoryId ∈ held ∧ Priced db categoryId price

def CreateAt (db : Db) (held : Set Row) : Order.Transactions.CreatePc → Prop
  | .start call => Signed call
  | .locking _ _ _ => False
  | .selected call data =>
      Signed call ∧ ownerGiven call ∧
        ∀ d ∈ data, Reserved db held d.categoryId (some d.purchasePrice)
  | .insertingItems order items todo =>
      Reachable db order ∧ (∀ item ∈ items, Reserved db held item.categoryId item.purchasePrice) ∧
        ∀ d ∈ todo, Reserved db held d.categoryId (some d.purchasePrice)
  | .insertingTickets order items _ _ =>
      Reachable db order ∧ ∀ item ∈ items, Reserved db held item.categoryId item.purchasePrice
  | _ => True

def MigrateAt (db : Db) : Order.Transactions.MigratePc → Prop
  | .userRead _ userId => Registered db userId
  | .updating _ userId _ _ => Registered db userId
  | _ => True

def stageOf : TicketCategoryPc → Option Nat
  | .checked data => some data.eventId.val
  | .inserting category => some category.eventId
  | .keyed category => some category.eventId
  | .inserted category => some category.eventId
  | _ => none

def ModifyAt (db : Db) (held : Set Row) : ModifyPc → Prop
  | .locking category _ _ => Row.ticketCategory category.id ∈ held ∧ Staged db category.eventId
  | .modified category new =>
      Row.ticketCategory category.id ∈ held ∧
        (∀ category' ∈ new, category'.id = category.id ∧ Staged db category'.eventId) ∧
        (new = none → ∀ item ∈ db.orderItems, item.categoryId ≠ category.id)
  | _ => True

def SystemAt (db : Db) (held : Set Row) : Catalog.System.Pc → Prop
  | .order (.create pc) => CreateAt db held pc
  | .order (.migrate pc) => MigrateAt db pc
  | .createTicketCategory pc => ∀ id ∈ stageOf pc, Staged db id
  | .modifyTicketCategory pc => ModifyAt db held pc
  | _ => True

/-- The rows that are locked already are as they were when the lock was granted. -/
def At (db : Db) (held : Set Row) : Pc → Prop
  | .locking call _ categories todo =>
      Signed call ∧ ownerGiven call ∧ ∀ category ∈ categories, category.id ∉ todo →
        Row.ticketCategory category.id ∈ held ∧
          findTicketCategory db category.id = some category
  | .session pc => SystemAt db held pc

/-! ## Nothing another session does disturbs it -/

structure Moves (db db' : Db) (held : Set Row) : Prop where
  users : db'.users = db.users
  events : ∀ id, Staged db id → Staged db' id
  categories : ∀ id category, findTicketCategory db id = some category →
    Row.ticketCategory id ∉ held → findTicketCategory db' id = some category
  items : ∀ item ∈ db'.orderItems, item ∈ db.orderItems ∨ Row.ticketCategory item.categoryId ∈ held

section Frame

variable {db db' : Db} {held rows : Set Row}

theorem Moves.registered (h : Moves db db' held) {userId : Nat} (hu : Registered db userId) :
    Registered db' userId := by
  unfold Registered
  rw [h.users]
  exact hu

theorem Moves.reachable (h : Moves db db' held) {order : Order} (ho : Reachable db order) :
    Reachable db' order := by
  rcases ho with hemail | ⟨hnone, id, hid, hu⟩
  · exact .inl hemail
  · exact .inr ⟨hnone, id, hid, h.registered hu⟩

theorem Moves.reserved (h : Moves db db' held) (hdisjoint : ∀ row ∈ rows, row ∉ held)
    {categoryId : Nat} {price : Option Rat} (hr : Reserved db rows categoryId price) :
    Reserved db' rows categoryId price := by
  obtain ⟨hlock, category, hfind, hprice⟩ := hr
  exact ⟨hlock, category, h.categories _ _ hfind (hdisjoint _ hlock), hprice⟩

theorem Moves.createAt (h : Moves db db' held) (hdisjoint : ∀ row ∈ rows, row ∉ held)
    {pc : Order.Transactions.CreatePc} (hat : CreateAt db rows pc) : CreateAt db' rows pc := by
  cases pc with
  | selected call data =>
      obtain ⟨hsigned, howner, hdata⟩ := hat
      exact ⟨hsigned, howner, fun d hd => h.reserved hdisjoint (hdata d hd)⟩
  | insertingItems order items todo =>
      obtain ⟨horder, hitems, htodo⟩ := hat
      exact ⟨h.reachable horder, fun item hitem => h.reserved hdisjoint (hitems item hitem),
        fun d hd => h.reserved hdisjoint (htodo d hd)⟩
  | insertingTickets order items tickets todo =>
      obtain ⟨horder, hitems⟩ := hat
      exact ⟨h.reachable horder, fun item hitem => h.reserved hdisjoint (hitems item hitem)⟩
  | _ => exact hat

theorem Moves.modifyAt (h : Moves db db' held) (hdisjoint : ∀ row ∈ rows, row ∉ held)
    {pc : ModifyPc} (hat : ModifyAt db rows pc) : ModifyAt db' rows pc := by
  cases pc with
  | locking category change keys => exact ⟨hat.1, h.events _ hat.2⟩
  | modified category new =>
      obtain ⟨hlock, hnew, hnone⟩ := hat
      refine ⟨hlock, fun category' hmem => ?_, fun heq item hitem hid => ?_⟩
      · exact ⟨(hnew category' hmem).1, h.events _ (hnew category' hmem).2⟩
      · rcases h.items item hitem with hold | hheld
        · exact hnone heq item hold hid
        · exact hdisjoint _ hlock (hid ▸ hheld)
  | _ => exact hat

theorem Moves.at (h : Moves db db' held) (hdisjoint : ∀ row ∈ rows, row ∉ held) {pc : Pc}
    (hat : At db rows pc) : At db' rows pc := by
  cases pc with
  | locking call snapshot categories todo =>
      obtain ⟨hsigned, howner, hlocked⟩ := hat
      refine ⟨hsigned, howner, fun category hcategory htodo => ?_⟩
      obtain ⟨hlock, hfind⟩ := hlocked category hcategory htodo
      exact ⟨hlock, h.categories _ _ hfind (hdisjoint _ hlock)⟩
  | session pc =>
      cases pc with
      | order pc =>
          cases pc with
          | create pc => exact h.createAt hdisjoint hat
          | migrate pc =>
              cases pc with
              | userRead email userId => exact h.registered hat
              | updating email userId todo done => exact h.registered hat
              | _ => trivial
          | _ => trivial
      | createTicketCategory pc => exact fun id hid => h.events id (hat id hid)
      | modifyTicketCategory pc => exact h.modifyAt hdisjoint hat
      | _ => trivial

end Frame

/-! ## What a statement publishes keeps the invariant -/

section Own

variable {s : Store} {held : Set Row}

theorem Publishes.moves {pc : Catalog.System.Pc} {a : Act} {eff : Effect Store Row}
    (hat : SystemAt s.db held pc) (h : Publishes s pc a eff) :
    Moves s.db (eff.apply s).db held := by
  cases h with
  | elsewhere h =>
      refine ⟨h.users, fun id hid => ?_, fun id category hfind _ => ?_, fun item hitem => ?_⟩
      · obtain ⟨event, hevent, rfl⟩ := hid
        exact h.events event hevent
      · unfold findTicketCategory at hfind ⊢
        rw [h.ticketCategories]
        exact hfind
      · rw [h.orderItems] at hitem
        exact .inl hitem
  | book =>
      refine ⟨rfl, fun _ hid => hid, fun _ _ hfind _ => hfind, fun item hitem => ?_⟩
      rcases List.mem_append.mp hitem with hitem | hitem
      · exact .inl hitem
      · exact .inr (hat.2 item hitem).1
  | pay => exact ⟨rfl, fun _ hid => hid, fun _ _ hfind _ => hfind, fun _ hitem => .inl hitem⟩
  | cancel => exact ⟨rfl, fun _ hid => hid, fun _ _ hfind _ => hfind, fun _ hitem => .inl hitem⟩
  | migrate => exact ⟨rfl, fun _ hid => hid, fun _ _ hfind _ => hfind, fun _ hitem => .inl hitem⟩
  | insertTicketCategory =>
      exact ⟨rfl, fun _ hid => hid, fun _ _ hfind _ => find_insertTicketCategory hfind _,
        fun _ hitem => .inl hitem⟩
  | @putTicketCategory category new =>
      obtain ⟨hlock, hnew, -⟩ := hat
      refine ⟨rfl, fun _ hid => hid, fun id old hfind hfree => ?_, fun _ hitem => .inl hitem⟩
      have hne : id ≠ category.id := fun heq => hfree (heq ▸ hlock)
      exact (find_putTicketCategory_of_ne hne (fun category' hmem => (hnew category' hmem).1)
        s.db).trans hfind

theorem reachable_setOrderStatus {db : Db} {orders : List Order} {id : Nat} {status : OrderStatus}
    (h : ∀ order ∈ orders, Reachable db order) :
    ∀ order ∈ Order.Transactions.setOrderStatus id status orders, Reachable db order := by
  intro order horder
  obtain ⟨old, hold, rfl⟩ := List.mem_map.mp horder
  have hreach := h old hold
  split_ifs
  · exact hreach
  · exact hreach

/-- A category that has items keeps its price. -/
theorem Mailable.putTicketCategory {db : Db} {id : Nat} {new : Option TicketCategory}
    (h : Mailable db) (hnew : ∀ category ∈ new, category.id = id ∧ Staged db category.eventId)
    (hnone : new = none → ∀ item ∈ db.orderItems, item.categoryId ≠ id)
    (hkept : ∀ category ∈ new, (∃ item ∈ db.orderItems, item.categoryId = id) →
      ∀ old ∈ findTicketCategory db id, category.price = old.price) :
    Mailable (Catalog.Editing.putTicketCategory id new db) := by
  refine ⟨fun item hitem => ?_, fun category hcategory => ?_, h.reachable⟩
  · obtain ⟨old, hfind, hprice⟩ := h.priced item hitem
    by_cases hid : item.categoryId = id
    · cases hput : new with
      | none => exact absurd hid (hnone hput item hitem)
      | some category =>
          subst hput
          rw [hid] at hfind
          have hself := find_putTicketCategory_self hfind (hnew category rfl).1
          have hsame := hkept category rfl ⟨item, hitem, hid⟩ old hfind
          refine ⟨category, ?_, hprice.trans (congrArg some hsame.symm)⟩
          rw [hid]
          exact hself
    · have hsame := find_putTicketCategory_of_ne hid
        (fun category hmem => (hnew category hmem).1) db
      exact ⟨old, hsame.trans hfind, hprice⟩
  · obtain ⟨old, hold, hput⟩ := List.mem_filterMap.mp hcategory
    split_ifs at hput with hid
    · exact (hnew category hput).2
    · rw [← Option.some.inj hput]
      exact h.staged old hold

theorem Publishes.mailable {pc : Catalog.System.Pc} {a : Act} {eff : Effect Store Row}
    (hs : Mailable s.db) (hat : SystemAt s.db held pc)
    (hkept : ∀ change ∈ rewriting (.session pc) a,
      (∃ item ∈ s.db.orderItems, item.categoryId = change.1) →
        ∀ old ∈ findTicketCategory s.db change.1, change.2.price = old.price)
    (h : Publishes s pc a eff) : Mailable (eff.apply s).db := by
  have hmoves := h.moves hat
  cases h with
  | elsewhere h =>
      refine ⟨fun item hitem => ?_, fun category hcategory => ?_, fun order horder => ?_⟩
      · rw [h.orderItems] at hitem
        obtain ⟨category, hfind, hprice⟩ := hs.priced item hitem
        refine ⟨category, ?_, hprice⟩
        unfold findTicketCategory at hfind ⊢
        rw [h.ticketCategories]
        exact hfind
      · rw [h.ticketCategories] at hcategory
        exact hmoves.events _ (hs.staged category hcategory)
      · rw [h.orders] at horder
        exact hmoves.reachable (hs.reachable order horder)
  | book =>
      refine ⟨fun item hitem => ?_, hs.staged, fun order horder => ?_⟩
      · rcases List.mem_append.mp hitem with hitem | hitem
        · exact hs.priced item hitem
        · exact (hat.2 item hitem).2
      · rcases List.mem_append.mp horder with horder | horder
        · exact hs.reachable order horder
        · rw [List.mem_singleton.mp horder]
          exact hat.1
  | pay => exact ⟨hs.priced, hs.staged, reachable_setOrderStatus hs.reachable⟩
  | cancel => exact ⟨hs.priced, hs.staged, reachable_setOrderStatus hs.reachable⟩
  | @migrate email userId done =>
      refine ⟨hs.priced, hs.staged, fun order horder => ?_⟩
      obtain ⟨old, hold, rfl⟩ := List.mem_map.mp horder
      split_ifs with hdone
      · exact .inr ⟨rfl, userId, rfl, hat⟩
      · exact hs.reachable old hold
  | @insertTicketCategory category =>
      refine ⟨fun item hitem => ?_, fun category' hcategory => ?_, hs.reachable⟩
      · obtain ⟨old, hfind, hprice⟩ := hs.priced item hitem
        exact ⟨old, find_insertTicketCategory hfind _, hprice⟩
      · rcases List.mem_append.mp hcategory with hcategory | hcategory
        · exact hs.staged category' hcategory
        · rw [List.mem_singleton.mp hcategory]
          exact hat category.eventId rfl
  | @putTicketCategory category new now =>
      obtain ⟨hlock, hnew, hnone⟩ := hat
      refine hs.putTicketCategory hnew hnone fun new' hput => hkept (category.id, new') ?_
      rw [Option.mem_def.mp hput]
      rfl

/-! ## What a statement leaves its session with -/

theorem itemsData_priced {categories : List TicketCategory} {items : List OrderItemCreateSchema}
    {data : List ItemData} (h : itemsData categories items = some data) {d : ItemData}
    (hd : d ∈ data) :
    ∃ category ∈ categories, category.id = d.categoryId ∧ d.purchasePrice = category.price := by
  unfold itemsData at h
  induction items generalizing data with
  | nil =>
      cases h
      cases hd
  | cons item items ih =>
      rw [List.mapM_cons] at h
      obtain ⟨d', hd', h⟩ := Option.bind_eq_some_iff.mp h
      obtain ⟨rest, hrest, h⟩ := Option.bind_eq_some_iff.mp h
      cases h
      rcases List.mem_cons.mp hd with rfl | hd
      · obtain ⟨category, hget, rfl⟩ := Option.map_eq_some_iff.mp hd'
        obtain ⟨category', hmem, hid, heq⟩ := Dict.get_ofList_eq_some hget
        subst heq
        exact ⟨category', hmem, hid, rfl⟩
      · exact ih hrest hd

theorem reachable_newOrder {db : Db} {call : CreateCall} (hsigned : Signed call)
    (howner : ownerGiven call) (huser : userExists db call.userId) (id : Nat) :
    Reachable db (newOrder call id) := by
  cases huserId : call.userId with
  | some userId =>
      refine .inr ⟨by simp [newOrder, huserId], userId, huserId, ?_⟩
      simpa [userExists, huserId, Registered] using huser
  | none =>
      cases hemail : call.data.anonymousEmail with
      | none => simp [ownerGiven, huserId, hemail] at howner
      | some email =>
          refine .inl ⟨email, by simp [newOrder, huserId, hemail], fun hempty => ?_⟩
          exact hsigned (by rw [hemail, hempty])

theorem createStep_at {pc pc' : Order.Transactions.CreatePc} {a : Order.Transactions.Act}
    {eff : Effect Store Row} (hat : CreateAt s.db held pc)
    (hstart : ∀ call categories, pc = .start call → a ≠ .select categories)
    (h : Order.Transactions.CreateStep s pc a eff pc') :
    CreateAt (eff.apply s).db (eff.held held) pc' := by
  cases h with
  | select => exact absurd rfl (hstart _ _ rfl)
  | lock => exact hat.elim
  | accept => exact hat.elim
  | insertOrder huser =>
      obtain ⟨hsigned, howner, hdata⟩ := hat
      exact ⟨reachable_newOrder hsigned howner huser _, fun _ hitem => (by cases hitem), hdata⟩
  | @insertItems order items todo =>
      obtain ⟨horder, hitems, htodo⟩ := hat
      refine ⟨horder, fun item hitem => ?_, fun d hd => htodo d (List.mem_of_mem_drop hd)⟩
      rcases List.mem_append.mp hitem with hitem | hitem
      · exact hitems item hitem
      · obtain ⟨id, d, -, -, hd, rfl⟩ := mem_assignIds hitem
        exact htodo d (List.mem_of_mem_take hd)
  | itemsDone => exact ⟨hat.1, hat.2.1⟩
  | insertTickets => exact hat
  | _ => trivial

theorem migrateStep_at {pc pc' : Order.Transactions.MigratePc} {a : Order.Transactions.Act}
    {eff : Effect Store Row} (hat : MigrateAt s.db pc)
    (h : Order.Transactions.MigrateStep s pc a eff pc') : MigrateAt (eff.apply s).db pc' := by
  cases h with
  | @readUser email user huser =>
      have hmem : user ∈ s.db.users.filter fun user => user.email = email := by
        rw [huser]
        exact List.mem_singleton_self user
      exact ⟨user, (List.mem_filter.mp hmem).1, rfl⟩
  | findRows => exact hat
  | lockRow => exact hat
  | skipRow => exact hat
  | _ => trivial

theorem staged_of_guardEvent {userId eventId : Nat} {now : Int}
    (h : guardEvent s userId eventId now = none) : Staged s.db eventId := by
  unfold guardEvent at h
  cases hfind : findEvent s.db eventId with
  | none =>
      rw [hfind] at h
      cases h
  | some event => exact ⟨event, findEvent_eq_some hfind⟩

theorem ticketCategoryStep_at {pc pc' : TicketCategoryPc} {a : EditAct} {eff : Effect Store Row}
    (hat : ∀ id ∈ stageOf pc, Staged s.db id) (h : TicketCategoryStep s pc a eff pc') :
    ∀ id ∈ stageOf pc', Staged (eff.apply s).db id := by
  cases h with
  | check hguard =>
      rintro id hid
      cases hid
      exact staged_of_guardEvent hguard
  | draw => exact hat
  | lockName => exact hat
  | insert => exact hat
  | commit => exact fun id hid => by cases hid
  | quits => exact fun id hid => by cases hid

/-- A category is deleted only while no item refers to it. -/
theorem result_none {change : Change} {db : Db} {category : TicketCategory}
    (h : change.result db category = .ok none) :
    ∀ item ∈ db.orderItems, item.categoryId ≠ category.id := by
  cases change with
  | delete =>
      unfold Change.result at h
      split_ifs at h with hreferenced
      intro item hitem hid
      refine hreferenced ?_
      rw [referenced, Bool.or_eq_true, List.any_eq_true]
      exact .inl ⟨item, hitem, decide_eq_true hid⟩
  | update data =>
      unfold Change.result at h
      cases happly : data.apply category with
      | none => simp [happly] at h
      | some new =>
          simp only [happly] at h
          split_ifs at h
          cases h

theorem modifyStep_at (hs : Mailable s.db) {pc pc' : ModifyPc} {a : EditAct}
    {eff : Effect Store Row} (hat : ModifyAt s.db held pc) (h : ModifyStep s pc a eff pc') :
    ModifyAt (eff.apply s).db (eff.held held) pc' := by
  cases h with
  | @lockRow objId change now read category hfind =>
      obtain ⟨hmem, hid⟩ := findTicketCategory_eq_some hfind
      exact ⟨hid ▸ Set.mem_insert _ _, hs.staged category hmem⟩
  | lockName => exact ⟨Set.mem_insert_of_mem _ hat.1, hat.2⟩
  | @modify category change now new hresult =>
      refine ⟨hat.1, fun category' hmem => ?_, fun hnone => result_none (hnone ▸ hresult)⟩
      obtain ⟨hid, hevent⟩ := Change.result_keeps (hresult.trans (congrArg Except.ok hmem))
      exact ⟨hid, hevent ▸ hat.2⟩
  | _ => trivial

theorem systemStep_at (hs : Mailable s.db) {pc pc' : Catalog.System.Pc} {a : Act}
    {eff : Effect Store Row} (hat : SystemAt s.db held pc)
    (hstart : ∀ call categories, pc = .order (.create (.start call)) →
      a ≠ .order (.select categories)) (h : SystemStep s pc a eff pc') :
    SystemAt (eff.apply s).db (eff.held held) pc' := by
  cases h with
  | order h =>
      cases Order.Transactions.orderStep_cases h with
      | create hstep =>
          refine createStep_at hat (fun call categories hpc ha => ?_) hstep
          exact hstart call categories (by rw [hpc]) (by rw [ha])
      | migrate hstep => exact migrateStep_at hat hstep
      | _ => trivial
  | createTicketCategory h => exact ticketCategoryStep_at hat h
  | modifyTicketCategory h => exact modifyStep_at hs hat h
  | _ => trivial

theorem recheck_at {call : CreateCall} {snapshot : Db} {categories : List TicketCategory}
    {id : Nat} {todo : List Nat}
    (hat : At s.db held (.locking call snapshot categories (id :: todo))) :
    At s.db (insert (Row.ticketCategory id) held)
      (.locking call snapshot (recheck snapshot s.db call.data.items id categories) todo) := by
  obtain ⟨hsigned, howner, hlocked⟩ := hat
  refine ⟨hsigned, howner, fun category hcategory htodo => ?_⟩
  obtain ⟨old, hold, hput⟩ := List.mem_filterMap.mp hcategory
  split_ifs at hput with hid
  · obtain ⟨hfind, -⟩ := Option.filter_eq_some_iff.mp hput
    have hcategoryId := (findTicketCategory_eq_some hfind).2
    rw [hcategoryId]
    exact ⟨Set.mem_insert _ _, hfind⟩
  · rw [← Option.some.inj hput] at htodo ⊢
    obtain ⟨hlock, hfind⟩ := hlocked old hold (by
      rw [List.mem_cons, not_or]
      exact ⟨hid, htodo⟩)
    exact ⟨Set.mem_insert_of_mem _ hlock, hfind⟩

theorem afterSelect_at {call : CreateCall} {snapshot : Db} {categories : List TicketCategory}
    (hat : At s.db held (.locking call snapshot categories [])) :
    CreateAt ((afterSelect call categories).1.apply s).db
      ((afterSelect call categories).1.held held) (afterSelect call categories).2 := by
  obtain ⟨hsigned, howner, hlocked⟩ := hat
  unfold afterSelect
  cases hmissing : missingItem categories call.data.items with
  | some item => trivial
  | none =>
      cases hdata : itemsData categories call.data.items with
      | none => trivial
      | some data =>
          refine ⟨hsigned, howner, fun d hd => ?_⟩
          obtain ⟨category, hcategory, hid, hprice⟩ := itemsData_priced hdata hd
          obtain ⟨hlock, hfind⟩ := hlocked category hcategory List.not_mem_nil
          rw [hid] at hlock hfind
          exact ⟨hlock, category, hfind, congrArg some hprice⟩

theorem apply_afterSelect (call : CreateCall) (categories : List TicketCategory) :
    (afterSelect call categories).1.apply s = s := by
  unfold afterSelect
  split
  · rfl
  · split <;> rfl

theorem MailStep.moves {pc pc' : Pc} {a : Act} {eff : Effect Store Row}
    (hat : At s.db held pc) (h : MailStep s pc a eff pc') : Moves s.db (eff.apply s).db held := by
  have hsame : Moves s.db s.db held :=
    ⟨rfl, fun _ hid => hid, fun _ _ hfind _ => hfind, fun _ hitem => .inl hitem⟩
  cases h with
  | answer =>
      rw [apply_afterSelect]
      exact hsame
  | session _ h => exact (SystemStep.publishes h).moves hat
  | _ => exact hsame

theorem MailStep.mailable (hs : Mailable s.db) {pc pc' : Pc} {a : Act} {eff : Effect Store Row}
    (hat : At s.db held pc)
    (hkept : ∀ change ∈ rewriting pc a,
      (∃ item ∈ s.db.orderItems, item.categoryId = change.1) →
        ∀ old ∈ findTicketCategory s.db change.1, change.2.price = old.price)
    (h : MailStep s pc a eff pc') : Mailable (eff.apply s).db := by
  cases h with
  | answer =>
      rw [apply_afterSelect]
      exact hs
  | session _ h => exact (SystemStep.publishes h).mailable hs hat hkept
  | _ => exact hs

theorem MailStep.at (hs : Mailable s.db) {pc pc' : Pc} {a : Act} {eff : Effect Store Row}
    (hat : At s.db held pc) (h : MailStep s pc a eff pc') :
    At (eff.apply s).db (eff.held held) pc' := by
  cases h with
  | @select call categories howner =>
      refine ⟨hat, howner, fun category hcategory htodo => ?_⟩
      exact absurd (List.mem_map_of_mem hcategory) htodo
  | lock => exact recheck_at hat
  | answer => exact afterSelect_at hat
  | fails => trivial
  | session hstart h => exact systemStep_at hs hat hstart h

end Own

/-! ## Every mail of a run -/

def recordedTotal (items : List OrderItem) : Option Rat :=
  (items.mapM fun item : OrderItem => item.purchasePrice.map fun price =>
    price * (item.quantity : Rat)).map List.sum

def recipient (db : Db) (order : Order) : Option String :=
  match order.anonymousEmail with
  | some email => some email
  | none => (orderUser db order).map User.email

/-- The mail shows what the items were bought for and goes to the right address. -/
structure Correct (db : Db) (order : Order) (items : List OrderItem)
    (mail : OrderEmailDataSchema) : Prop where
  total : recordedTotal items = some mail.totalPrice
  addressed : recipient db order = some mail.userEmail

theorem emailItems_total {db : Db} {items : List OrderItem}
    (h : ∀ item ∈ items, Priced db item.categoryId item.purchasePrice) :
    ∃ emailItems, items.mapM (emailItem db) = some emailItems ∧
      recordedTotal items =
        some (emailItems.map fun item => item.pricePaid * (item.quantity : Rat)).sum := by
  induction items with
  | nil => exact ⟨[], rfl, rfl⟩
  | cons item items ih =>
      obtain ⟨category, hfind, hprice⟩ := h item List.mem_cons_self
      obtain ⟨emailItems, hitems, htotal⟩ :=
        ih fun item' hmem => h item' (List.mem_cons_of_mem _ hmem)
      refine ⟨⟨category.name, category.price, item.quantity⟩ :: emailItems, ?_, ?_⟩
      · simp [List.mapM_cons, emailItem, hfind, hitems]
      · unfold recordedTotal at htotal ⊢
        obtain ⟨prices, hprices, hsum⟩ := Option.map_eq_some_iff.mp htotal
        simp [List.mapM_cons, hprice, hprices, hsum]

theorem orderUser_isSome {db : Db} {order : Order} {userId : Nat} (hid : order.userId = some userId)
    (h : Registered db userId) : ∃ user, orderUser db order = some user := by
  obtain ⟨user, huser, rfl⟩ := h
  rw [orderUser, hid, Option.bind_some, ← Option.isSome_iff_exists, List.find?_isSome]
  exact ⟨user, huser, decide_eq_true rfl⟩

theorem targetEmail_of_reachable {db : Db} {order : Order} (h : Reachable db order) :
    ∃ email, targetEmail db order = some email ∧ recipient db order = some email := by
  rcases h with ⟨email, hemail, hne⟩ | ⟨hnone, userId, hid, huser⟩
  · exact ⟨email, by simp [targetEmail, hemail, Option.filter, hne], by simp [recipient, hemail]⟩
  · obtain ⟨user, hfind⟩ := orderUser_isSome hid huser
    exact ⟨user.email, by simp [targetEmail, hnone, hfind], by simp [recipient, hnone, hfind]⟩

/-- In a mailable database the mail of an order with items is built, and right. -/
theorem Mailable.mail {db : Db} (hdb : Mailable db) (createdAt : Nat → Int) {orderId : Nat}
    {order : Order} (hfind : findOrder db orderId = some order) {items : List OrderItem}
    (hitems : items.Perm (itemsOf db orderId)) (hne : items ≠ []) :
    ∃ mail, getEmailNotificationData createdAt db orderId items = .ok mail ∧
      Correct db order items mail := by
  have hpriced : ∀ item ∈ items, Priced db item.categoryId item.purchasePrice := fun item hitem =>
    hdb.priced item (List.mem_filter.mp (hitems.mem_iff.mp hitem)).1
  obtain ⟨emailItems, hemail, htotal⟩ := emailItems_total hpriced
  obtain ⟨email, htarget, hrecipient⟩ := targetEmail_of_reachable
    (hdb.reachable order (find_eq_some hfind).1)
  obtain ⟨first, rest, rfl⟩ := List.exists_cons_of_ne_nil hne
  obtain ⟨category, hcategory, -⟩ := hpriced first List.mem_cons_self
  obtain ⟨event, hevent⟩ : ∃ event, findEvent db category.eventId = some event := by
    obtain ⟨event, hmem, hid⟩ := hdb.staged category (findTicketCategory_eq_some hcategory).1
    rw [← Option.isSome_iff_exists, findEvent, List.find?_isSome]
    exact ⟨event, hmem, decide_eq_true hid⟩
  have hfirst : firstEvent db first = some event := by
    rw [firstEvent, hcategory, Option.bind_some, hevent]
  refine ⟨{ orderId := order.id
            createdAt := createdAt order.id
            userEmail := email
            eventTitle := event.title
            eventStartedAt := event.startedAt
            eventAddress := event.address
            items := emailItems }, ?_, htotal, hrecipient⟩
  simp only [getEmailNotificationData, hfind, List.head?_cons, hfirst, htarget, hemail]

section Run

variable {ι : Type}

def outline : Outline ι Store Row Pc where
  inv s := Mailable s.db
  at_ _ s held pc := At s.db held pc
  apart _ _ := True

theorem outline_sound : (outline : Outline ι Store Row Pc).Sound mailStep PricesKept where
  own w i a eff pc hw hok hP _ := by
    have hstep := mailStep_cases hP
    exact ⟨hstep.mailable hw.inv (hw.at_ i) hok, hstep.at hw.inv (hw.at_ i)⟩
  frame w i j a eff pc hw _ hP _ hj := by
    have hmoves := (mailStep_cases hP).moves (hw.at_ i)
    exact ⟨hmoves.at (fun row hrow hheld => hj (w.held_disjoint hrow hheld)) (hw.at_ j),
      trivial, trivial⟩

variable [DecidableEq ι]

/-- While no sold category changes its price, every mail is right. -/
theorem mails_correct {s : Store} (hs : Mailable s.db) {calls : ι → Call}
    (hsigned : ∀ i call, calls i = .service (.createOrder call) → Signed call)
    {w : World ι Store Row Pc} (h : Run mailStep PricesKept (atCalls s calls) w)
    (createdAt : Nat → Int) {orderId : Nat} {order : Order}
    (hfind : findOrder w.shared.db orderId = some order) {items : List OrderItem}
    (hitems : items.Perm (itemsOf w.shared.db orderId)) (hne : items ≠ []) :
    ∃ mail, getEmailNotificationData createdAt w.shared.db orderId items = .ok mail ∧
      Correct w.shared.db order items mail := by
  have hstart : (outline : Outline ι Store Row Pc).Valid (atCalls s calls) := by
    refine ⟨hs, fun i => ?_, fun _ _ _ => trivial⟩
    show At s.db _ (calls i).pc
    cases hcall : calls i with
    | service call =>
        cases call with
        | createOrder call => exact hsigned i call hcall
        | createTicketCategory userId data => exact fun id hid => by cases hid
        | _ => trivial
    | _ => trivial
  exact (outline_sound.run h hstart).inv.mail createdAt hfind hitems hne

end Run

/-! ## A category that is sold -/

section Examples

def box : Store where
  db := {
    users := [⟨1, "host@example.com", .verifiedUser, true⟩]
    eventCategories := [⟨1, "music", none⟩]
    events := [⟨1, "concert", "live", 1, 1, .draft, .online, none, 100⟩]
    ticketCategories := [Order.Transactions.parterre] }
  seq := { eventCategories := 2, events := 2, ticketCategories := 2 }

def sale : Bool → Call
  | false => .service (.createOrder Order.Transactions.onePlace)
  | true => .service (.updateTicketCategory 1 1 { price := some (some 20) })

def books : List (Bool × Act) := List.replicate 7 (false, .order .run)

def raises : List (Bool × Act) := List.replicate 7 (true, .edit (.run 0))

def selects : Bool × Act := (false, .order (.select [Order.Transactions.parterre]))

def bought (price : Rat) : OrderItem := ⟨1, 1, 1, 1, some price⟩

def guestOrder : Order := ⟨1, none, some "guest@example.com", .pending⟩

/-- The price is raised while the order waits for the row, which it then reads again. -/
theorem mails_correct_box :
    ∃ w, Run mailStep PricesKept (atCalls box sale) w ∧
      ∃ mail, getEmailNotificationData (fun _ => 0) w.shared.db 1 [bought 20] = .ok mail ∧
        Correct w.shared.db guestOrder [bought 20] mail := by
  have hrun : ((atCalls box sale).guardedSteps mailStep PricesKept
      (selects :: raises ++ books)).map (fun w =>
        (decide (findOrder w.shared.db 1 = some guestOrder),
          decide (itemsOf w.shared.db 1 = [bought 20]))) = some (true, true) := by
    decide +kernel
  obtain ⟨w, hw, hstate⟩ := Option.map_eq_some_iff.mp hrun
  simp only [Prod.mk.injEq, decide_eq_true_eq] at hstate
  have hbox : Mailable box.db := by
    refine mailable_of_unsold rfl rfl fun category hcategory => ?_
    rw [List.mem_singleton.mp hcategory]
    exact ⟨_, List.mem_singleton_self _, rfl⟩
  have hsigned : ∀ i call, sale i = .service (.createOrder call) → Signed call := by
    intro i call hcall
    cases i <;> cases hcall
    unfold Signed
    decide
  exact ⟨w, Run.of_guardedSteps hw, mails_correct hbox hsigned (Run.of_guardedSteps hw)
    (fun _ => 0) hstate.1 (hstate.2 ▸ .refl _) (List.cons_ne_nil _ _)⟩

/-- The price is raised after the place was booked, and the mail shows the new one. -/
theorem mail_shows_current_price :
    ∃ w, Run mailStep anyStep (atCalls box sale) w ∧ findOrder w.shared.db 1 = some guestOrder ∧
      itemsOf w.shared.db 1 = [bought 10] ∧
      ∃ mail, getEmailNotificationData (fun _ => 0) w.shared.db 1 [bought 10] = .ok mail ∧
        recordedTotal [bought 10] = some 10 ∧ mail.totalPrice = 20 := by
  have hrun : ((atCalls box sale).steps mailStep (selects :: books ++ raises)).map (fun w =>
      (decide (findOrder w.shared.db 1 = some guestOrder),
        decide (itemsOf w.shared.db 1 = [bought 10]),
        (getEmailNotificationData (fun _ => 0) w.shared.db 1 [bought 10]).toOption.map
          OrderEmailDataSchema.totalPrice)) = some (true, true, some 20) := by
    decide +kernel
  obtain ⟨w, hw, hstate⟩ := Option.map_eq_some_iff.mp hrun
  simp only [Prod.mk.injEq, decide_eq_true_eq] at hstate
  obtain ⟨horder, hitems, hmail⟩ := hstate
  obtain ⟨mail, hsome, htotal⟩ := Option.map_eq_some_iff.mp hmail
  refine ⟨w, Run.of_steps hw, horder, hitems, mail, ?_, by decide +kernel, htotal⟩
  cases hdata : getEmailNotificationData (fun _ => 0) w.shared.db 1 [bought 10] with
  | error e =>
      rw [hdata] at hsome
      cases hsome
  | ok mail' =>
      rw [hdata] at hsome
      cases hsome
      rfl

end Examples

end TicketBooking.Order.Mail
