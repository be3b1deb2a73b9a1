import TicketBooking.Order.Lifecycle
import TicketBooking.Users.Transactions
/-!
# Whose an order is

An order belongs to a user or to the guest behind an address.  Registrations,
bookings and migrations run side by side: `UserService.create` against the
unique index of `users.email`, the order service as in the booking ledger.  The
register of owners says what a statement may do to an order's owner, and a
watch on one UPDATE what the migration that runs it moves.
-/

namespace TicketBooking.Order.Owners

open TicketBooking.App.Exceptions
open TicketBooking.Database.Shared TicketBooking.Database.Tables
open TicketBooking.Library.Sessions
open TicketBooking.Order.Booking TicketBooking.Order.Ledger
open TicketBooking.Order.Lifecycle (At Private Progress draft mailsFor owesMail)
open TicketBooking.Order.Transactions
open TicketBooking.Tasks.Scheduling
open TicketBooking.Users.Accounts (UserCreateSchema insertUser newUser findByEmail)
open TicketBooking.Users.Transactions (UserAct)

/-! ## The register of owners -/

inductive Owner
  | user (id : Nat)
  | guest (email : String)
  deriving DecidableEq, Repr

/-- The one owner of an order, if it has exactly one. -/
def ownerOf (order : Order) : Option Owner :=
  match order.userId, order.anonymousEmail with
  | some id, none => some (.user id)
  | none, some email => some (.guest email)
  | _, _ => none

def OneOwner (order : Order) : Prop :=
  xor order.userId.isSome order.anonymousEmail.isSome

theorem ownerOf_isSome {order : Order} : (ownerOf order).isSome ↔ OneOwner order := by
  unfold ownerOf OneOwner
  cases order.userId <;> cases order.anonymousEmail <;> simp

theorem ownerOf_eq_user {order : Order} {id : Nat} :
    ownerOf order = some (.user id) ↔ order.userId = some id ∧ order.anonymousEmail = none := by
  unfold ownerOf
  cases order.userId <;> cases order.anonymousEmail <;> simp

theorem ownerOf_eq_guest {order : Order} {email : String} :
    ownerOf order = some (.guest email) ↔
      order.userId = none ∧ order.anonymousEmail = some email := by
  unfold ownerOf
  cases order.userId <;> cases order.anonymousEmail <;> simp

/-- An order that has one owner is the guest's exactly where the address says so. -/
theorem OneOwner.guest_iff {order : Order} (h : OneOwner order) (email : String) :
    ownerOf order = some (.guest email) ↔ order.anonymousEmail = some email := by
  rw [ownerOf_eq_guest]
  unfold OneOwner at h
  cases huser : order.userId <;> cases hemail : order.anonymousEmail <;> simp_all

/-- The register: the owner of the order under each id. -/
def owners (db : Db) (id : Nat) : Option Owner :=
  (findOrder db id).bind ownerOf

/-- What one statement of a session that holds `rows` may do to an order's
owner: keep it, enter a new order, or hand a locked guest's order to a user. -/
inductive Transfer (rows : Set Row) (id : Nat) : Option Owner → Option Owner → Prop
  | keep {owner : Option Owner} : Transfer rows id owner owner
  | enter {o : Owner} : Transfer rows id none (some o)
  | move {email : String} {userId : Nat} (hlocked : Row.order id ∈ rows) :
      Transfer rows id (some (.guest email)) (some (.user userId))

variable {rows : Set Row} {id : Nat} {owner owner' : Option Owner}

theorem Transfer.user {userId : Nat} (h : Transfer rows id (some (.user userId)) owner') :
    owner' = some (.user userId) := by
  cases h
  rfl

theorem Transfer.guest {email : String} (h : Transfer rows id owner (some (.guest email)))
    (hknown : owner.isSome) : owner = some (.guest email) := by
  cases h with
  | keep => rfl
  | enter => cases hknown

theorem Transfer.isSome (h : Transfer rows id owner owner') (hknown : owner.isSome) :
    owner'.isSome := by
  cases h with
  | keep => exact hknown
  | enter => cases hknown
  | move => rfl

/-- An order that another session has locked keeps its owner. -/
theorem Transfer.unlocked {o : Owner} (h : Transfer rows id (some o) owner')
    (hfree : Row.order id ∉ rows) : owner' = some o := by
  cases h with
  | keep => rfl
  | move hlocked => exact absurd hlocked hfree

/-! ## The register in the table -/

theorem owners_of_mem {db : Db} {seq : Sequences} (hdb : WellFormed db seq) {order : Order}
    (horder : order ∈ db.orders) : owners db order.id = ownerOf order := by
  rw [owners, hdb.findOrder horder, Option.bind_some]

theorem mem_of_owners {db : Db} {o : Owner} (h : owners db id = some o) :
    ∃ order ∈ db.orders, order.id = id ∧ ownerOf order = some o := by
  obtain ⟨order, hfind, howner⟩ := Option.bind_eq_some_iff.mp h
  exact ⟨order, List.mem_of_find?_eq_some hfind, findOrder_id hfind, howner⟩

theorem owners_of_orders {db db' : Db} (h : db'.orders = db.orders) : owners db' = owners db := by
  funext id
  simp only [owners, findOrder, h]

theorem owners_setOrderStatus (db : Db) (orderId : Nat) (status : OrderStatus)
    (tickets : List Ticket) :
    owners { db with orders := setOrderStatus orderId status db.orders, tickets := tickets } =
      owners db := by
  funext id
  rw [owners, findOrder_setOrderStatus, owners]
  cases findOrder db id with
  | none => rfl
  | some order =>
      simp only [Option.map_some, Option.bind_some]
      split_ifs <;> rfl

theorem transfer_insertBooking (db : Db) {order : Order} (hone : OneOwner order)
    (items : List OrderItem) (tickets : List Ticket) (id : Nat) :
    Transfer rows id (owners db id) (owners (insertBooking order items tickets db) id) := by
  have hfind : findOrder (insertBooking order items tickets db) id =
      (findOrder db id).or (if order.id = id then some order else none) := by
    simp [findOrder, insertBooking, List.find?_append, List.find?_singleton]
  cases hold : findOrder db id with
  | some old =>
      rw [owners, owners, hfind, hold, Option.some_or]
      exact .keep
  | none =>
      rw [owners, owners, hfind, hold, Option.none_or]
      split_ifs
      · obtain ⟨o, ho⟩ := Option.isSome_iff_exists.mp (ownerOf_isSome.mpr hone)
        rw [Option.bind_none, Option.bind_some, ho]
        exact .enter
      · exact .keep

theorem findOrder_migrateOrders (db : Db) (userId : Nat) (ids : List Nat) (id : Nat) :
    findOrder (migrateOrders userId ids db) id = (findOrder db id).map fun order =>
      if order.id ∈ ids then { order with userId := some userId, anonymousEmail := none }
      else order := by
  unfold findOrder migrateOrders
  rw [List.find?_map]
  congr 2
  funext order
  simp only [Function.comp_apply]
  split_ifs <;> rfl

/-- A migration hands over the orders it has locked. -/
theorem transfer_migrateOrders {db : Db} {email : String} {userId : Nat} {ids : List Nat}
    (hids : ∀ id ∈ ids, Row.order id ∈ rows ∧ owners db id = some (.guest email)) (id : Nat) :
    Transfer rows id (owners db id) (owners (migrateOrders userId ids db) id) := by
  by_cases hid : id ∈ ids
  · obtain ⟨hlocked, hguest⟩ := hids id hid
    obtain ⟨order, hfind, -⟩ := Option.bind_eq_some_iff.mp hguest
    have hmoved : owners (migrateOrders userId ids db) id = some (.user userId) := by
      rw [owners, findOrder_migrateOrders, hfind, Option.map_some, Option.bind_some,
        findOrder_id hfind, if_pos hid]
      rfl
    rw [hguest, hmoved]
    exact .move hlocked
  · have hkept : owners (migrateOrders userId ids db) id = owners db id := by
      rw [owners, findOrder_migrateOrders, owners]
      cases hfind : findOrder db id with
      | none => rfl
      | some order =>
          rw [Option.map_some, Option.bind_some, Option.bind_some, findOrder_id hfind, if_neg hid]
    rw [hkept]
    exact .keep

/-! ## The sessions -/

inductive Pc
  | order (pc : Order.Transactions.Pc)
  | register (pc : Users.Transactions.CreatePc)

inductive Act
  | order (a : Order.Transactions.Act)
  | register (a : UserAct)
  deriving DecidableEq

def ownerStep {ι : Type} : Protocol ι Store Row Pc Act
  | i, s, .order pc, .order a => (orderStep i s pc a).map fun (eff, pc) => (eff, .order pc)
  | _, s, .register pc, .register a =>
      (Users.Transactions.createStep s pc a).map fun (eff, pc) => (eff, .register pc)
  | _, _, _, _ => none

inductive Call
  | createUser (data : UserCreateSchema)
  | order (call : Order.Transactions.Call)

def Call.pc : Call → Pc
  | .createUser data => .register (.start data)
  | .order call => .order call.pc

def atCalls {ι : Type} (s : Store) (calls : ι → Call) : World ι Store Row Pc :=
  World.start s fun i => (calls i).pc

inductive OwnerStep (s : Store) : Pc → Act → Effect Store Row → Pc → Prop
  | order {ι : Type} {i : ι} {pc pc' : Order.Transactions.Pc} {a : Order.Transactions.Act}
      {eff : Effect Store Row} (h : orderStep i s pc a = some (eff, pc')) :
      OwnerStep s (.order pc) (.order a) eff (.order pc')
  | register {pc pc' : Users.Transactions.CreatePc} {a : UserAct} {eff : Effect Store Row}
      (h : Users.Transactions.CreateStep s pc a eff pc') :
      OwnerStep s (.register pc) (.register a) eff (.register pc')

theorem ownerStep_cases {ι : Type} {i : ι} {s : Store} {pc pc' : Pc} {a : Act}
    {eff : Effect Store Row} (h : ownerStep i s pc a = some (eff, pc')) :
    OwnerStep s pc a eff pc' := by
  cases pc <;> cases a <;> simp only [ownerStep, Option.map_eq_some_iff, reduceCtorEq] at h
  all_goals
    obtain ⟨⟨eff', pc''⟩, h, heq⟩ := h
    cases heq
  · exact .order h
  · exact .register (Users.Transactions.createStep_cases h)

/-! ## The proof outline -/

/-- What the order ledger sees of a session: a registration is no part of it. -/
def ledgerPc : Pc → Order.Transactions.Pc
  | .order pc => pc
  | .register _ => .waiting

def Registered (db : Db) (email : String) (userId : Nat) : Prop :=
  ∃ user ∈ db.users, user.email = email ∧ user.id = userId

structure Inv (s : Store) : Prop where
  ledger : Lifecycle.Inv s
  one : ∀ order ∈ s.db.orders, OneOwner order
  emails : (s.db.users.map fun user => user.email).Nodup

def migration (email : String) : Call := .order (.migrateAnonymousOrders email)

def OwnerAt (call : Call) (s : Store) (rows : Set Row) : Pc → Prop
  | .order (.create (.locking booking _ _)) => ownerGiven booking
  | .order (.create (.selected booking _)) => ownerGiven booking
  | .order (.create (.insertingItems order _ _)) => OneOwner order
  | .order (.create (.insertingTickets order _ _ _)) => OneOwner order
  | .order (.migrate (.start email)) => call = migration email
  | .order (.migrate (.userRead email userId)) =>
      call = migration email ∧ Registered s.db email userId
  | .order (.migrate (.updating email userId _ done)) =>
      call = migration email ∧ Registered s.db email userId ∧
        ∀ id ∈ done, Row.order id ∈ rows ∧ owners s.db id = some (.guest email)
  | .register (.keyed user) => Row.userEmail user.email ∈ rows
  | .register (.inserted user) =>
      Row.userEmail user.email ∈ rows ∧ ∀ other ∈ s.db.users, other.email ≠ user.email
  | _ => True

structure Change (s s' : Store) (rows : Set Row) (pc pc' : Pc) : Prop where
  progress : Progress s s' rows (ledgerPc pc) (ledgerPc pc')
  transfer : ∀ id, Transfer rows id (owners s.db id) (owners s'.db id)
  users : ∀ user ∈ s.db.users, user ∈ s'.db.users
  newUsers : ∀ user ∈ s'.db.users, user ∈ s.db.users ∨ Row.userEmail user.email ∈ rows

structure Correct (call : Call) (s : Store) (rows : Set Row) (pc : Pc) (eff : Effect Store Row)
    (pc' : Pc) : Prop where
  inv : Inv (eff.apply s)
  ledgerAt : At (eff.apply s) (eff.held rows) (ledgerPc pc')
  ownerAt : OwnerAt call (eff.apply s) (eff.held rows) pc'
  change : Change s (eff.apply s) rows pc pc'

theorem Registered.mono {db db' : Db} {email : String} {userId : Nat}
    (h : Registered db email userId) (husers : ∀ user ∈ db.users, user ∈ db'.users) :
    Registered db' email userId := by
  obtain ⟨user, hmem, hemail, hid⟩ := h
  exact ⟨user, husers user hmem, hemail, hid⟩

/-! ## The order service -/

/-- What a statement of the order service does to owners and users. -/
structure Books (call : Call) (s : Store) (rows : Set Row) (eff : Effect Store Row)
    (pc' : Order.Transactions.Pc) : Prop where
  users : (eff.apply s).db.users = s.db.users
  one : ∀ order ∈ (eff.apply s).db.orders, OneOwner order
  transfer : ∀ id, Transfer rows id (owners s.db id) (owners (eff.apply s).db id)
  ownerAt : OwnerAt call (eff.apply s) (eff.held rows) (.order pc')

theorem Books.quiet {call : Call} {s : Store} {rows : Set Row} {eff : Effect Store Row}
    {pc' : Order.Transactions.Pc} (hs : Inv s) (hdb : (eff.apply s).db = s.db)
    (hat : OwnerAt call (eff.apply s) (eff.held rows) (.order pc')) :
    Books call s rows eff pc' where
  users := by rw [hdb]
  one := by
    rw [hdb]
    exact hs.one
  transfer id := by
    rw [hdb]
    exact .keep
  ownerAt := hat

/-- The guard of `create` is what makes the row's owner one. -/
theorem oneOwner_newOrder {booking : CreateCall} (h : ownerGiven booking) (id : Nat) :
    OneOwner (newOrder booking id) := by
  unfold ownerGiven at h
  unfold OneOwner newOrder
  cases huser : booking.userId <;> cases hemail : booking.data.anonymousEmail <;>
    simp_all

theorem createStep_books {call : Call} {s : Store} {rows : Set Row} {pc pc' : CreatePc}
    {a : Order.Transactions.Act} {eff : Effect Store Row} (hs : Inv s)
    (hat : OwnerAt call s rows (.order (.create pc))) (h : CreateStep s pc a eff pc') :
    Books call s rows eff (.create pc') := by
  cases h with
  | refuseOwner howner => exact .quiet hs rfl trivial
  | select howner hperm => exact .quiet hs rfl howner
  | lock => exact .quiet hs rfl hat
  | refuseItem hmissing => exact .quiet hs rfl trivial
  | keyError hmissing hdata => exact .quiet hs rfl trivial
  | accept hmissing hdata => exact .quiet hs rfl hat
  | refuseUser huser => exact .quiet hs rfl trivial
  | insertOrder huser => exact .quiet hs rfl (oneOwner_newOrder hat _)
  | insertItems => exact .quiet hs rfl hat
  | itemsDone => exact .quiet hs rfl hat
  | insertTickets => exact .quiet hs rfl hat
  | schedule => exact .quiet hs rfl trivial
  | scheduleFails => exact .quiet hs rfl trivial
  | fails hcommitted => exact .quiet hs rfl trivial
  | @commit order items tickets =>
      refine ⟨rfl, fun new hnew => ?_, transfer_insertBooking s.db hat items tickets, trivial⟩
      rcases List.mem_append.mp hnew with hold | hmine
      · exact hs.one new hold
      · rw [List.mem_singleton.mp hmine]
        exact hat

theorem oneOwner_setOrderStatus {orderId : Nat} {status : OrderStatus} {orders : List Order}
    (h : ∀ order ∈ orders, OneOwner order) :
    ∀ order ∈ setOrderStatus orderId status orders, OneOwner order := by
  intro order horder
  obtain ⟨old, hold, rfl⟩ := List.mem_map.mp horder
  have hone := h old hold
  split_ifs <;> exact hone

theorem confirmStep_books {call : Call} {s : Store} {rows : Set Row} {pc pc' : ConfirmPc}
    {a : Order.Transactions.Act} {eff : Effect Store Row} (hs : Inv s)
    (h : ConfirmStep s pc a eff pc') : Books call s rows eff (.confirm pc') := by
  cases h with
  | commit =>
      refine ⟨rfl, oneOwner_setOrderStatus hs.one, fun id => ?_, trivial⟩
      have hsame := owners_setOrderStatus s.db
      exact (congrFun (hsame _ _ _) id).symm ▸ .keep
  | _ => exact .quiet hs rfl trivial

theorem expireStep_books {call : Call} {s : Store} {rows : Set Row} {pc pc' : ExpirePc}
    {a : Order.Transactions.Act} {eff : Effect Store Row} (hs : Inv s)
    (h : ExpireStep s pc a eff pc') : Books call s rows eff (.expire pc') := by
  cases h with
  | commit =>
      refine ⟨rfl, oneOwner_setOrderStatus hs.one, fun id => ?_, trivial⟩
      have hsame := owners_setOrderStatus s.db
      exact (congrFun (hsame _ _ _) id).symm ▸ .keep
  | _ => exact .quiet hs rfl trivial

theorem migrateStep_books {call : Call} {s : Store} {rows : Set Row} {pc pc' : MigratePc}
    {a : Order.Transactions.Act} {eff : Effect Store Row} (hs : Inv s)
    (hat : OwnerAt call s rows (.order (.migrate pc))) (h : MigrateStep s pc a eff pc') :
    Books call s rows eff (.migrate pc') := by
  cases h with
  | userMissing => exact .quiet hs rfl trivial
  | @readUser email user huser =>
      have hmem : user ∈ s.db.users.filter fun user => user.email = email := by
        rw [huser]
        exact List.mem_singleton_self _
      obtain ⟨huser, hemail⟩ := List.mem_filter.mp hmem
      exact .quiet hs rfl ⟨hat, user, huser, of_decide_eq_true hemail, rfl⟩
  | findRows hperm => exact .quiet hs rfl ⟨hat.1, hat.2, List.forall_mem_nil _⟩
  | @lockRow email userId id todo done hmatch =>
      refine .quiet hs rfl ⟨hat.1, hat.2.1, fun other hother => ?_⟩
      rcases List.mem_append.mp hother with hold | hnew
      · exact ⟨Set.mem_insert_of_mem _ (hat.2.2 other hold).1, (hat.2.2 other hold).2⟩
      · obtain ⟨order, horder, hcond⟩ := List.any_eq_true.mp hmatch
        obtain ⟨hid, hemail⟩ := of_decide_eq_true hcond
        rw [List.mem_singleton.mp hnew]
        have howner := owners_of_mem hs.ledger.tables horder
        rw [hid, ((hs.one order horder).guest_iff email).mpr hemail] at howner
        exact ⟨Set.mem_insert _ _, howner⟩
  | skipRow => exact .quiet hs rfl hat
  | nothing => exact .quiet hs rfl trivial
  | @commit email userId done =>
      refine ⟨rfl, fun order horder => ?_, transfer_migrateOrders hat.2.2, trivial⟩
      obtain ⟨old, hold, rfl⟩ := List.mem_map.mp horder
      split_ifs
      · rfl
      · exact hs.one old hold
  | fails => exact .quiet hs rfl trivial

theorem orderStep_books {ι : Type} {i : ι} {call : Call} {s : Store} {rows : Set Row}
    {pc pc' : Order.Transactions.Pc} {a : Order.Transactions.Act} {eff : Effect Store Row}
    (hs : Inv s) (hat : OwnerAt call s rows (.order pc))
    (h : orderStep i s pc a = some (eff, pc')) : Books call s rows eff pc' := by
  cases orderStep_cases h with
  | create hstep => exact createStep_books hs hat hstep
  | confirm hstep => exact confirmStep_books hs hstep
  | expire hstep => exact expireStep_books hs hstep
  | migrate hstep => exact migrateStep_books hs hat hstep
  | fire => exact .quiet hs rfl trivial

theorem orderStep_correct {ι : Type} {i : ι} {call : Call} {s : Store} {rows : Set Row}
    {pc pc' : Order.Transactions.Pc} {a : Order.Transactions.Act} {eff : Effect Store Row}
    (hs : Inv s) (hledger : At s rows pc) (howner : OwnerAt call s rows (.order pc))
    (h : orderStep i s pc a = some (eff, pc')) :
    Correct call s rows (.order pc) eff (.order pc') := by
  have hcorrect := Lifecycle.orderStep_correct hs.ledger hledger h
  have hbooks := orderStep_books hs howner h
  exact {
    inv := ⟨hcorrect.inv, hbooks.one, hbooks.users ▸ hs.emails⟩
    ledgerAt := hcorrect.at_
    ownerAt := hbooks.ownerAt
    change := {
      progress := hcorrect.progress
      transfer := hbooks.transfer
      users := fun user huser => hbooks.users ▸ huser
      newUsers := fun user huser => .inl (hbooks.users ▸ huser) } }

/-! ## Registrations -/

structure Elsewhere (s s' : Store) : Prop where
  orders : s'.db.orders = s.db.orders
  items : s'.db.orderItems = s.db.orderItems
  tickets : s'.db.tickets = s.db.tickets
  seq : Advance s.seq s'.seq
  mails : ∀ id, mailsFor s' id = mailsFor s id

section Elsewhere

variable {s s' : Store} (h : Elsewhere s s')
include h

theorem Elsewhere.bookings : bookingOf s'.db = bookingOf s.db := by
  funext id
  have hids : itemIdsOf s'.db id = itemIdsOf s.db id := by rw [itemIdsOf, itemIdsOf, h.items]
  rw [bookingOf, bookingOf, findOrder, findOrder, itemsOf, itemsOf, ticketsOf, ticketsOf, hids,
    h.orders, h.items, h.tickets]

theorem Elsewhere.wellFormed (hdb : WellFormed s.db s.seq) : WellFormed s'.db s'.seq := by
  obtain ⟨_, _, _, _, _, _, _, _⟩ := hdb.mono h.seq
  constructor <;> simp only [h.orders, h.items, h.tickets] <;> assumption

theorem Elsewhere.inv (hs : Lifecycle.Inv s) : Lifecycle.Inv s' :=
  hs.next (h.wellFormed hs.tables) (by rw [h.bookings]; exact .skip _) h.mails

theorem Elsewhere.progress (rows : Set Row) : Progress s s' rows .waiting .waiting where
  seq := h.seq
  orders new hnew := .inl ⟨new, h.orders ▸ hnew, rfl⟩
  items new hnew := .inl ⟨new, h.items ▸ hnew, rfl⟩
  tickets new hnew := .inl ⟨new, h.tickets ▸ hnew, rfl⟩
  entry := by
    rw [h.bookings]
    exact .skip _
  bookings id := .inl (by rw [h.bookings])
  targeted id hid := by cases hid
  mails id := .inl (h.mails id)
  drawn d hd := by cases hd
  owes id hid := by cases hid

end Elsewhere

theorem Correct.register {call : Call} {s : Store} {rows : Set Row} {eff : Effect Store Row}
    {pc pc' : Users.Transactions.CreatePc} (hs : Inv s) (helse : Elsewhere s (eff.apply s))
    (husers : (eff.apply s).db.users = s.db.users)
    (hat : OwnerAt call (eff.apply s) (eff.held rows) (.register pc')) :
    Correct call s rows (.register pc) eff (.register pc') where
  inv := ⟨helse.inv hs.ledger, helse.orders ▸ hs.one, husers ▸ hs.emails⟩
  ledgerAt := trivial
  ownerAt := hat
  change := {
    progress := helse.progress rows
    transfer := fun id => by
      rw [owners_of_orders helse.orders]
      exact .keep
    users := fun user huser => husers ▸ huser
    newUsers := fun user huser => .inl (husers ▸ huser) }

theorem count_enqueue_transfer (s : Store) (email : String) (now later id : Nat) :
    mailsFor (enqueue (.transferAnonymOrders email) none now later s) id = mailsFor s id := by
  simp [mailsFor, enqueue, performTask, List.count_append]

theorem registerStep_correct {call : Call} {s : Store} {rows : Set Row}
    {pc pc' : Users.Transactions.CreatePc} {a : UserAct} {eff : Effect Store Row} (hs : Inv s)
    (hat : OwnerAt call s rows (.register pc)) (h : Users.Transactions.CreateStep s pc a eff pc') :
    Correct call s rows (.register pc) eff (.register pc') := by
  have hsame : Elsewhere s s := ⟨rfl, rfl, rfl, .refl _, fun _ => rfl⟩
  cases h with
  | check => exact .register hs hsame rfl trivial
  | draw => exact .register hs ⟨rfl, rfl, rfl, .refl _, fun _ => rfl⟩ rfl trivial
  | lockEmail => exact .register hs hsame rfl (Set.mem_insert _ _)
  | insert hfree =>
      refine .register hs hsame rfl ⟨hat, fun other hother => ?_⟩
      have hnone := List.find?_eq_none.mp hfree other hother
      simpa using hnone
  | @commit user =>
      obtain ⟨hlocked, hfree⟩ := hat
      have helse : Elsewhere s (s.withDb (insertUser user)) :=
        ⟨rfl, rfl, rfl, .refl _, fun _ => rfl⟩
      exact {
        inv := {
          ledger := helse.inv hs.ledger
          one := hs.one
          emails := by
            have hmap : (insertUser user s.db).users.map (fun user => user.email) =
                s.db.users.map (fun user => user.email) ++ [user.email] := by
              simp [insertUser]
            have hnew : user.email ∉ s.db.users.map fun user => user.email := by
              intro hmem
              obtain ⟨other, hother, hemail⟩ := List.mem_map.mp hmem
              exact hfree other hother hemail
            rw [Effect.apply_commit, Store.withDb_db, hmap]
            exact List.nodup_append.mpr ⟨hs.emails, List.nodup_singleton _, by
              intro x hx y hy hxy
              rw [List.mem_singleton.mp hy] at hxy
              exact hnew (hxy ▸ hx)⟩ }
        ledgerAt := trivial
        ownerAt := trivial
        change := {
          progress := helse.progress rows
          transfer := fun id => .keep
          users := fun other hother => List.mem_append_left _ hother
          newUsers := fun other hother => by
            rcases List.mem_append.mp hother with hold | hnew
            · exact .inl hold
            · rw [List.mem_singleton.mp hnew]
              exact .inr hlocked } }
  | @perform user now later =>
      exact .register hs ⟨rfl, rfl, rfl, .refl _, count_enqueue_transfer s user.email now later⟩
        rfl trivial
  | fails => exact .register hs hsame rfl trivial
  | quits => exact .register hs hsame rfl trivial

/-! ## No interference -/

theorem ownerStep_correct {call : Call} {s : Store} {rows : Set Row} {pc pc' : Pc} {a : Act}
    {eff : Effect Store Row} (hs : Inv s) (hledger : At s rows (ledgerPc pc))
    (howner : OwnerAt call s rows pc) (h : OwnerStep s pc a eff pc') :
    Correct call s rows pc eff pc' := by
  cases h with
  | order h => exact orderStep_correct hs hledger howner h
  | register h => exact registerStep_correct hs howner h

theorem OwnerAt.stable {call : Call} {s s' : Store} {rows rows' : Set Row} {pc pc' other : Pc}
    (hat : OwnerAt call s rows' other) (h : Change s s' rows pc pc')
    (hdisjoint : ∀ row, row ∈ rows' → row ∉ rows) : OwnerAt call s' rows' other := by
  cases other with
  | order c =>
      cases c with
      | create c => cases c <;> exact hat
      | migrate c =>
          cases c with
          | userRead email userId => exact ⟨hat.1, hat.2.mono h.users⟩
          | updating email userId todo done =>
              refine ⟨hat.1, hat.2.1.mono h.users, fun id hid => ?_⟩
              obtain ⟨hlocked, howner⟩ := hat.2.2 id hid
              have htransfer := h.transfer id
              rw [howner] at htransfer
              exact ⟨hlocked, htransfer.unlocked (hdisjoint _ hlocked)⟩
          | _ => exact hat
      | _ => exact hat
  | register c =>
      cases c with
      | inserted user =>
          refine ⟨hat.1, fun other hother hemail => ?_⟩
          rcases h.newUsers other hother with hold | hnew
          · exact hat.2 other hold hemail
          · rw [hemail] at hnew
            exact hdisjoint _ hat.1 hnew
      | _ => exact hat

def outline {ι : Type} (calls : ι → Call) : Outline ι Store Row Pc where
  inv := Inv
  at_ i s rows pc := At s rows (ledgerPc pc) ∧ OwnerAt (calls i) s rows pc
  apart pc pc' := Private (ledgerPc pc) (ledgerPc pc')

section Runs

variable {ι : Type} [DecidableEq ι] {calls : ι → Call} {w w' : World ι Store Row Pc}

omit [DecidableEq ι] in
theorem correct_of_step (hw : (outline calls).Valid w) {i : ι} {a : Act} {eff : Effect Store Row}
    {pc : Pc} (h : ownerStep i w.shared (w.pc i) a = some (eff, pc)) :
    Correct (calls i) w.shared (w.held i) (w.pc i) eff pc :=
  ownerStep_correct hw.inv (hw.at_ i).1 (hw.at_ i).2 (ownerStep_cases h)

omit [DecidableEq ι] in
theorem outline_sound : (outline calls).Sound ownerStep anyStep where
  own w i a eff pc hw _ hstep _ := by
    have hcorrect := correct_of_step hw hstep
    exact ⟨hcorrect.inv, hcorrect.ledgerAt, hcorrect.ownerAt⟩
  frame w i j a eff pc hw _ hstep _ hji := by
    have hchange := (correct_of_step hw hstep).change
    have hdisjoint : ∀ row, row ∈ w.held j → row ∉ w.held i :=
      fun row hj hi => hji (w.held_disjoint hj hi)
    have hprivate : Private (ledgerPc (w.pc i)) (ledgerPc (w.pc j)) := hw.apart i j hji.symm
    obtain ⟨hledger, howner⟩ := hw.at_ j
    have hnext := hprivate.step hledger hchange.progress
    exact ⟨⟨hledger.stable hchange.progress hdisjoint hprivate,
      howner.stable hchange hdisjoint⟩, hnext, hnext.symm⟩

/-- Every row of the table has one owner, and a user's order is never given away. -/
theorem kept_of_step (hw : (outline calls).Valid w) {i : ι} {a : Act}
    (h : w.step ownerStep i a = some w') :
    Change w.shared w'.shared (w.held i) (w.pc i) (w'.pc i) := by
  obtain ⟨eff, pc, hstep, -, rfl⟩ := World.step_eq_some.mp h
  rw [World.after_shared, World.after_pc_self]
  exact (correct_of_step hw hstep).change

theorem valid_of_run (hw : (outline calls).Valid w) (h : Run ownerStep anyStep w w') :
    (outline calls).Valid w' :=
  outline_sound.run h hw

/-- A user's order stays with that user along every run. -/
theorem user_of_run (hw : (outline calls).Valid w) (h : Run ownerStep anyStep w w')
    {order : Order} (horder : order ∈ w.shared.db.orders) (huser : order.userId.isSome) :
    ∃ order' ∈ w'.shared.db.orders, order'.id = order.id ∧ order'.userId = order.userId := by
  obtain ⟨userId, hid⟩ := Option.isSome_iff_exists.mp huser
  have hone := hw.inv.one order horder
  have howner : ownerOf order = some (.user userId) := by
    rw [ownerOf_eq_user]
    unfold OneOwner at hone
    cases hemail : order.anonymousEmail <;> simp_all
  have hkept : owners w'.shared.db order.id = some (.user userId) := by
    have hstart : owners w.shared.db order.id = some (.user userId) :=
      (owners_of_mem hw.inv.ledger.tables horder).trans howner
    refine (h.invariant (I := fun v => (outline calls).Valid v ∧
      owners v.shared.db order.id = some (.user userId)) ?_ ⟨hw, hstart⟩).2
    rintro v v' i a ⟨hv, hmine⟩ hok hstep
    have htransfer := (kept_of_step hv hstep).transfer order.id
    rw [hmine] at htransfer
    exact ⟨outline_sound.step hv hok hstep, htransfer.user⟩
  obtain ⟨order', horder', hid', howner'⟩ := mem_of_owners hkept
  exact ⟨order', horder', hid', (ownerOf_eq_user.mp howner').1.trans hid.symm⟩

end Runs

/-! ## One UPDATE, watched -/

def StillGuest (email : String) (found : List Nat) (order : Order) : Prop :=
  order.id ∈ found ∧ order.anonymousEmail = some email

instance (email : String) (found : List Nat) (order : Order) :
    Decidable (StillGuest email found order) :=
  inferInstanceAs (Decidable (_ ∧ _))

/-- The write a migration owes: the orders it found that still carry the address
go to the one user registered with it, `n` of them, and nothing else changes. -/
def Migrates (email : String) (found : List Nat) (s s' : Store) (n : Nat) : Prop :=
  ∃ user ∈ s.db.users, user.email = email ∧
    (∀ other ∈ s.db.users, other.email = email → other = user) ∧
    s' = s.withDb (fun db => { db with
      orders := db.orders.map fun order =>
        if StillGuest email found order then
          { order with userId := some user.id, anonymousEmail := none }
        else order }) ∧
    n = (s.db.orders.filter fun order => StillGuest email found order).length

/-- What the statements of the UPDATE do. -/
inductive Updating (s : Store) (email : String) (userId : Nat) :
    List Nat → List Nat → Effect Store Row → MigratePc → Prop
  | lockRow {id : Nat} {todo done : List Nat} :
      Updating s email userId (id :: todo) done (.lock (.order id))
        (.updating email userId todo (done ++ [id]))
  | skipRow {id : Nat} {todo done : List Nat}
      (hgone : ¬ s.db.orders.any fun order => order.id = id ∧ order.anonymousEmail = some email) :
      Updating s email userId (id :: todo) done .stay (.updating email userId todo done)
  | nothing : Updating s email userId [] [] .rollback (.finished (.ok 0))
  | commit {done : List Nat} : Updating s email userId [] done
      (.commit fun s => s.withDb (migrateOrders userId done)) (.finished (.ok done.length))
  | fails {todo done : List Nat} : Updating s email userId todo done .rollback
      (.finished (.error (.databaseError .unhandled)))

theorem updating_cases {s : Store} {email : String} {userId : Nat} {todo done : List Nat}
    {a : Order.Transactions.Act} {eff : Effect Store Row} {pc' : MigratePc}
    (h : migrateStep s (.updating email userId todo done) a = some (eff, pc')) :
    Updating s email userId todo done eff pc' := by
  cases a with
  | run =>
      cases todo with
      | nil =>
          simp only [migrateStep] at h
          split_ifs at h with hdone
          · cases h
            rw [hdone]
            exact .nothing
          · cases h
            exact .commit
      | cons id todo =>
          simp only [migrateStep] at h
          split_ifs at h with hmatch
          · cases h
            exact .lockRow
          · cases h
            exact .skipRow hmatch
  | fail =>
      cases todo <;> cases h <;> exact .fails
  | _ => cases todo <;> cases h

def moved : Pc → Option Nat
  | .order (.migrate (.finished (.ok n))) => some n
  | _ => none

/-- How far the UPDATE has come: every row it found is still to be looked at, is
locked, or no longer carries the address. -/
def Watched (email : String) (found : List Nat) (s : Store) : Pc → Prop
  | .order (.migrate (.updating address _ todo done)) =>
      address = email ∧ (todo ++ done).Nodup ∧ (∀ id ∈ todo ++ done, id ∈ found) ∧
        (∀ id ∈ found, (owners s.db id).isSome) ∧
        ∀ id ∈ found, id ∈ todo ∨ id ∈ done ∨ owners s.db id ≠ some (.guest email)
  | .order (.migrate (.finished _)) => True
  | _ => False

theorem Watched.stable {email : String} {found : List Nat} {s s' : Store} {rows : Set Row}
    {pc pc' other : Pc} (hwatch : Watched email found s other) (h : Change s s' rows pc pc') :
    Watched email found s' other := by
  cases other with
  | order c =>
      cases c with
      | migrate c =>
          cases c with
          | updating address userId todo done =>
              obtain ⟨haddress, hnodup, hfound, hknown, hcover⟩ := hwatch
              refine ⟨haddress, hnodup, hfound,
                fun id hid => (h.transfer id).isSome (hknown id hid),
                fun id hid => (hcover id hid).imp_right fun hrest => hrest.imp_right ?_⟩
              intro hgone hguest
              have htransfer := h.transfer id
              rw [hguest] at htransfer
              exact hgone (htransfer.guest (hknown id hid))
          | _ => exact hwatch
      | _ => exact hwatch
  | register c => exact hwatch

/-- A row that does not match the UPDATE has another owner. -/
theorem owners_ne_of_skip {db : Db} {email : String} {id : Nat}
    (hgone : ¬ db.orders.any fun order => order.id = id ∧ order.anonymousEmail = some email) :
    owners db id ≠ some (.guest email) := by
  intro hguest
  obtain ⟨order, horder, hid, howner⟩ := mem_of_owners hguest
  refine hgone (List.any_eq_true.mpr ⟨order, horder, ?_⟩)
  exact decide_eq_true ⟨hid, (ownerOf_eq_guest.mp howner).2⟩

theorem Watched.own {email : String} {found : List Nat} {s : Store} {userId : Nat}
    {todo done : List Nat} {eff : Effect Store Row} {pc' : MigratePc}
    (hwatch : Watched email found s (.order (.migrate (.updating email userId todo done))))
    (h : Updating s email userId todo done eff pc') :
    Watched email found (eff.apply s) (.order (.migrate pc')) := by
  obtain ⟨-, hnodup, hfound, hknown, hcover⟩ := hwatch
  cases h with
  | @lockRow id todo done =>
      have hperm : (todo ++ (done ++ [id])).Perm (id :: todo ++ done) := by
        rw [← List.append_assoc]
        exact List.perm_append_singleton id (todo ++ done)
      refine ⟨rfl, hperm.nodup_iff.mpr hnodup, fun other hother => ?_, hknown,
        fun other hother => ?_⟩
      · exact hfound other (hperm.mem_iff.mp hother)
      · rcases hcover other hother with htodo | hdone | hgone
        · rcases List.mem_cons.mp htodo with rfl | htodo
          · exact .inr (.inl (List.mem_append_right _ (List.mem_singleton_self _)))
          · exact .inl htodo
        · exact .inr (.inl (List.mem_append_left _ hdone))
        · exact .inr (.inr hgone)
  | @skipRow id todo done hgone =>
      rw [List.cons_append, List.nodup_cons] at hnodup
      refine ⟨rfl, hnodup.2, fun other hother => hfound other (List.mem_cons_of_mem _ hother),
        hknown, fun other hother => ?_⟩
      rcases hcover other hother with htodo | hrest
      · rcases List.mem_cons.mp htodo with rfl | htodo
        · exact .inr (.inr (owners_ne_of_skip hgone))
        · exact .inl htodo
      · exact .inr hrest
  | nothing => trivial
  | commit => trivial
  | fails => trivial

section Finish

variable {email : String} {found : List Nat} {s : Store} {rows : Set Row} {userId : Nat}
  {done : List Nat}

/-- With every row looked at, the locked ones are those that still carry the address. -/
theorem mem_done_iff (hs : Inv s)
    (hat : OwnerAt (migration email) s rows (.order (.migrate (.updating email userId [] done))))
    (hwatch : Watched email found s (.order (.migrate (.updating email userId [] done))))
    {order : Order} (horder : order ∈ s.db.orders) :
    order.id ∈ done ↔ StillGuest email found order := by
  obtain ⟨-, -, hfound, -, hcover⟩ := hwatch
  have howner := owners_of_mem hs.ledger.tables horder
  have hguest := (hs.one order horder).guest_iff email
  constructor
  · intro hdone
    have hlocked := (hat.2.2 order.id hdone).2
    exact ⟨hfound order.id hdone, hguest.mp (howner.symm.trans hlocked)⟩
  · rintro ⟨hmem, hemail⟩
    rcases hcover order.id hmem with htodo | hdone | hgone
    · cases htodo
    · exact hdone
    · exact absurd (howner.trans (hguest.mpr hemail)) hgone

theorem migrates_of_done (hs : Inv s)
    (hat : OwnerAt (migration email) s rows (.order (.migrate (.updating email userId [] done))))
    (hwatch : Watched email found s (.order (.migrate (.updating email userId [] done)))) :
    Migrates email found s (s.withDb (migrateOrders userId done)) done.length := by
  have hiff : ∀ order ∈ s.db.orders, order.id ∈ done ↔ StillGuest email found order :=
    fun order horder => mem_done_iff hs hat hwatch horder
  obtain ⟨user, huser, hemail, hid⟩ := hat.2.1
  refine ⟨user, huser, hemail, fun other hother hsame => ?_, ?_, ?_⟩
  · exact List.inj_on_of_nodup_map hs.emails hother huser (hsame.trans hemail.symm)
  · have horders : (migrateOrders userId done s.db).orders = s.db.orders.map fun order =>
        if StillGuest email found order then
          { order with userId := some user.id, anonymousEmail := none }
        else order := by
      refine List.map_congr_left fun order horder => ?_
      rw [hid]
      exact if_congr (hiff order horder) rfl rfl
    exact congrArg (fun orders => s.withDb fun db => { db with orders := orders }) horders
  · have hperm : ((s.db.orders.filter fun order => StillGuest email found order).map
        fun order => order.id).Perm done := by
      have hids := hs.ledger.tables.nodup_filter fun order => StillGuest email found order
      refine (List.perm_ext_iff_of_nodup hids hwatch.2.1).mpr fun id => ?_
      constructor
      · intro hmem
        obtain ⟨order, horder, rfl⟩ := List.mem_map.mp hmem
        obtain ⟨horder, hstill⟩ := List.mem_filter.mp horder
        exact (hiff order horder).mpr (of_decide_eq_true hstill)
      · intro hdone
        obtain ⟨order, horder, rfl, -⟩ := mem_of_owners (hat.2.2 id hdone).2
        have hstill := (hiff order horder).mp hdone
        exact List.mem_map.mpr ⟨order, List.mem_filter.mpr ⟨horder, by simpa using hstill⟩, rfl⟩
    rw [← hperm.length_eq, List.length_map]

/-- The last statement of the UPDATE's transaction. -/
theorem Updating.migrates {todo : List Nat} {eff : Effect Store Row} {n : Nat} (hs : Inv s)
    (hat : OwnerAt (migration email) s rows (.order (.migrate (.updating email userId todo done))))
    (hwatch : Watched email found s (.order (.migrate (.updating email userId todo done))))
    (h : Updating s email userId todo done eff (.finished (.ok n))) :
    Migrates email found s (eff.apply s) n := by
  cases h with
  | nothing =>
      have hnone : s.withDb (migrateOrders userId []) = s := by
        simp [Store.withDb, migrateOrders]
      have hdone := migrates_of_done hs hat hwatch
      rw [hnone] at hdone
      exact hdone
  | commit => exact migrates_of_done hs hat hwatch

end Finish

/-! ## Over whole runs -/

theorem migrate_of_ownerStep {ι : Type} {i : ι} {s : Store} {pc : MigratePc} {a : Act}
    {eff : Effect Store Row} {pc' : Pc}
    (h : ownerStep i s (.order (.migrate pc)) a = some (eff, pc')) :
    ∃ b next, migrateStep s pc b = some (eff, next) ∧ pc' = .order (.migrate next) := by
  cases a with
  | register a => cases h
  | order b =>
      obtain ⟨⟨eff₁, pc₁⟩, h₁, heq₁⟩ := Option.map_eq_some_iff.mp h
      obtain ⟨⟨eff₂, pc₂⟩, h₂, heq₂⟩ := Option.map_eq_some_iff.mp h₁
      cases heq₂
      cases heq₁
      exact ⟨b, pc₂, h₂, rfl⟩

/-- Only a migration's UPDATE is told the order of its rows. -/
theorem rows_cases {ι : Type} {i : ι} {s : Store} {pc pc' : Pc} {ids : List Nat}
    {eff : Effect Store Row} (h : ownerStep i s pc (.order (.rows ids)) = some (eff, pc')) :
    ∃ email userId, pc = .order (.migrate (.userRead email userId)) ∧
      ids.Perm (anonymousOrderIds s.db email) ∧ eff = .stay ∧
      pc' = .order (.migrate (.updating email userId ids [])) := by
  cases ownerStep_cases h with
  | order horder =>
      cases orderStep_cases horder with
      | create hstep => cases hstep
      | confirm hstep => cases hstep
      | expire hstep => cases hstep
      | migrate hstep =>
          cases hstep with
          | findRows hperm => exact ⟨_, _, rfl, List.isPerm_iff.mp hperm, rfl, rfl⟩

/-- Before its last statement a migration writes nothing. -/
theorem shared_of_migrateStep {s : Store} {pc pc' : MigratePc} {b : Order.Transactions.Act}
    {eff : Effect Store Row} (h : migrateStep s pc b = some (eff, pc'))
    (hunfinished : moved (.order (.migrate pc')) = none) : eff.apply s = s := by
  cases migrateStep_cases h with
  | commit => cases hunfinished
  | _ => rfl

/-- A session called for a migration is at no other control point. -/
def MigratesAt (call : Call) : Pc → Prop
  | .order (.migrate _) => True
  | _ => ∀ email, call ≠ migration email

section Runs

variable {ι : Type} [DecidableEq ι] {calls : ι → Call} {w w' : World ι Store Row Pc}

theorem watched_start (hw : (outline calls).Valid w) {i : ι} {email : String} {ids : List Nat}
    (hcall : calls i = migration email) (h : w.step ownerStep i (.order (.rows ids)) = some w') :
    Watched email (anonymousOrderIds w.shared.db email) w'.shared (w'.pc i) := by
  obtain ⟨eff, pc, hstep, -, rfl⟩ := World.step_eq_some.mp h
  obtain ⟨address, userId, hpc, hperm, rfl, rfl⟩ := rows_cases hstep
  have howner := (hw.at_ i).2
  rw [hpc] at howner
  have hsame : calls i = migration address := howner.1
  rw [hcall] at hsame
  cases hsame
  rw [World.after_pc_self, World.after_shared, Effect.apply_stay]
  have hinv : Inv w.shared := hw.inv
  refine ⟨rfl, ?_, fun id hid => ?_, fun id hid => ?_, fun id hid => .inl (hperm.mem_iff.mpr hid)⟩
  · rw [List.append_nil]
    exact hperm.nodup_iff.mpr (hinv.ledger.tables.nodup_filter _)
  · rw [List.append_nil] at hid
    exact hperm.mem_iff.mp hid
  · obtain ⟨order, horder, rfl⟩ := List.mem_map.mp hid
    have hmem := (List.mem_filter.mp horder).1
    rw [owners_of_mem hinv.ledger.tables hmem]
    exact ownerOf_isSome.mpr (hinv.one order hmem)

theorem watched_step (hw : (outline calls).Valid w) {i j : ι} {a : Act} {email : String}
    {found : List Nat} (hwatch : Watched email found w.shared (w.pc i))
    (h : w.step ownerStep j a = some w') : Watched email found w'.shared (w'.pc i) := by
  have hchange := kept_of_step hw h
  obtain ⟨eff, pc, hstep, -, rfl⟩ := World.step_eq_some.mp h
  by_cases hij : i = j
  · subst hij
    rw [World.after_pc_self, World.after_shared]
    cases hpc : w.pc i with
    | register c =>
        rw [hpc] at hwatch
        exact hwatch.elim
    | order c =>
        cases c with
        | migrate c =>
            rw [hpc] at hwatch hstep
            obtain ⟨b, next, hmigrate, rfl⟩ := migrate_of_ownerStep hstep
            cases c with
            | updating address userId todo done =>
                obtain rfl : address = email := hwatch.1
                exact hwatch.own (updating_cases hmigrate)
            | finished result => cases b <;> cases hmigrate
            | start address => exact hwatch.elim
            | userRead address userId => exact hwatch.elim
        | _ =>
            rw [hpc] at hwatch
            exact hwatch.elim
  · rw [World.after_pc_other w hij]
    exact hwatch.stable hchange

theorem watched_finish (hw : (outline calls).Valid w) {i : ι} {a : Act} {email : String}
    {found : List Nat} {n : Nat} (hwatch : Watched email found w.shared (w.pc i))
    (h : w.step ownerStep i a = some w') (hmoved : moved (w'.pc i) = some n) :
    Migrates email found w.shared w'.shared n := by
  obtain ⟨eff, pc, hstep, -, rfl⟩ := World.step_eq_some.mp h
  rw [World.after_pc_self] at hmoved
  rw [World.after_shared]
  have howner := (hw.at_ i).2
  cases hpc : w.pc i with
  | register c =>
      rw [hpc] at hwatch
      exact hwatch.elim
  | order c =>
      cases c with
      | migrate c =>
          rw [hpc] at hwatch hstep howner
          obtain ⟨b, next, hmigrate, rfl⟩ := migrate_of_ownerStep hstep
          cases c with
          | updating address userId todo done =>
              obtain rfl : address = email := hwatch.1
              have hfinished : next = .finished (.ok n) := by
                unfold moved at hmoved
                split at hmoved
                · rename_i m heq
                  cases heq
                  cases hmoved
                  rfl
                · cases hmoved
              subst hfinished
              have hcall : calls i = migration address := howner.1
              rw [hcall] at howner
              exact (updating_cases hmigrate).migrates hw.inv howner hwatch
          | finished result => cases b <;> cases hmigrate
          | start address => exact hwatch.elim
          | userRead address userId => exact hwatch.elim
      | _ =>
          rw [hpc] at hwatch
          exact hwatch.elim

theorem migratesAt_of_run {s : Store} (h : Run ownerStep anyStep (atCalls s calls) w) (i : ι) :
    MigratesAt (calls i) (w.pc i) := by
  have hstart : ∀ i, MigratesAt (calls i) ((atCalls s calls).pc i) := by
    intro i
    rw [atCalls, World.start_pc]
    cases calls i with
    | createUser data =>
        intro email h
        cases h
    | order call =>
        cases call <;> first | trivial | (intro email h; cases h)
  refine h.invariant (I := fun v => ∀ i, MigratesAt (calls i) (v.pc i)) ?_ hstart i
  intro v v' j a hv _ hs
  obtain ⟨eff, pc, hstep, -, rfl⟩ := World.step_eq_some.mp hs
  refine World.after_pc_forall (Q := fun i => MigratesAt (calls i)) ?_ fun i _ => hv i
  have hmine := hv j
  cases hpc : v.pc j with
  | register c =>
      rw [hpc] at hmine hstep
      cases ownerStep_cases hstep with
      | register h => exact hmine
  | order c =>
      rw [hpc] at hmine hstep
      cases ownerStep_cases hstep with
      | order horder =>
          cases orderStep_cases horder with
          | migrate h => trivial
          | _ => exact hmine

/-- Until it returns a number, a migration has written nothing. -/
theorem shared_of_migration {s : Store} (h : Run ownerStep anyStep (atCalls s calls) w) {i : ι}
    {email : String} (hcall : calls i = migration email) {a : Act}
    (hs : w.step ownerStep i a = some w') (hunfinished : moved (w'.pc i) = none) :
    w'.shared = w.shared := by
  have hat := migratesAt_of_run h i
  obtain ⟨eff, pc, hstep, -, rfl⟩ := World.step_eq_some.mp hs
  rw [World.after_pc_self] at hunfinished
  rw [World.after_shared]
  cases hpc : w.pc i with
  | register c =>
      rw [hpc] at hat
      exact absurd hcall (hat email)
  | order c =>
      cases c with
      | migrate c =>
          rw [hpc] at hstep
          obtain ⟨b, next, hmigrate, rfl⟩ := migrate_of_ownerStep hstep
          exact shared_of_migrateStep hmigrate hunfinished
      | _ =>
          rw [hpc] at hat
          exact absurd hcall (hat email)

end Runs

/-- Nothing has been ordered, and no two users have one address. -/
structure Opening (s : Store) : Prop extends Lifecycle.Opening s where
  emails : (s.db.users.map fun user => user.email).Nodup

theorem outline_start {ι : Type} {s : Store} (hs : Opening s) (calls : ι → Call) :
    (outline calls).Valid (atCalls s calls) where
  inv := {
    ledger := hs.toOpening.inv
    one := by
      intro order horder
      rw [atCalls, World.start_shared, hs.orders] at horder
      cases horder
    emails := hs.emails }
  at_ i := by
    rw [atCalls, World.start_pc, World.start_shared]
    cases hcall : calls i with
    | createUser data => exact ⟨trivial, trivial⟩
    | order call =>
        refine ⟨Lifecycle.Call.at_start s _ call, ?_⟩
        cases call with
        | migrateAnonymousOrders email => exact hcall
        | _ => trivial
  apart i j _ := by
    have hwaiting : ∀ call : Call, ∃ c : Order.Transactions.Call, ledgerPc call.pc = c.pc := by
      intro call
      cases call with
      | createUser data => exact ⟨.cancelReservationWorker, rfl⟩
      | order call => exact ⟨call, rfl⟩
    obtain ⟨c, hc⟩ := hwaiting (calls i)
    obtain ⟨c', hc'⟩ := hwaiting (calls j)
    show Private (ledgerPc (calls i).pc) (ledgerPc (calls j).pc)
    rw [hc, hc']
    exact Lifecycle.Call.private_start c c'

/-- In every interleaving of registrations, bookings and migrations, each order
has exactly one owner and a user's order stays with that user.  A migration
moves the orders its UPDATE found that still carry the address when it is done,
to the user registered with it, returns their number, and changes nothing else. -/
theorem orders_owned {ι : Type} [DecidableEq ι] {s : Store} (hs : Opening s) (calls : ι → Call)
    {w : World ι Store Row Pc} (h : Run ownerStep anyStep (atCalls s calls) w) :
    (w.shared.db.orders.map fun order => order.id).Nodup ∧
    (∀ order ∈ w.shared.db.orders, xor order.userId.isSome order.anonymousEmail.isSome) ∧
    (∀ w', Run ownerStep anyStep w w' → ∀ order ∈ w.shared.db.orders, order.userId.isSome →
      ∃ order' ∈ w'.shared.db.orders, order'.id = order.id ∧ order'.userId = order.userId) ∧
    ∀ i email, calls i = migration email →
      (∀ a w', w.step ownerStep i a = some w' → moved (w'.pc i) = none → w'.shared = w.shared) ∧
      ∀ ids u v a v' n, w.step ownerStep i (.order (.rows ids)) = some u →
        Run ownerStep anyStep u v → v.step ownerStep i a = some v' → moved (v'.pc i) = some n →
          Migrates email (anonymousOrderIds w.shared.db email) v.shared v'.shared n := by
  have hw : (outline calls).Valid w := valid_of_run (outline_start hs calls) h
  have hinv : Inv w.shared := hw.inv
  refine ⟨hinv.ledger.tables.orders_nodup, hinv.one, fun w' hrun order horder huser => ?_,
    fun i email hcall => ⟨fun a w' hstep hmoved => ?_, ?_⟩⟩
  · exact user_of_run hw hrun horder huser
  · exact shared_of_migration h hcall hstep hmoved
  · intro ids u v a v' n hstart hrun hfinish hmoved
    have hu : (outline calls).Valid u := outline_sound.step hw trivial hstart
    have hwatch : Watched email (anonymousOrderIds w.shared.db email) v.shared (v.pc i) := by
      refine (hrun.invariant (I := fun v => (outline calls).Valid v ∧
        Watched email (anonymousOrderIds w.shared.db email) v.shared (v.pc i)) ?_
          ⟨hu, watched_start hw hcall hstart⟩).2
      rintro x x' j b ⟨hx, hwatch⟩ hok hstep
      exact ⟨outline_sound.step hx hok hstep, watched_step hx hwatch hstep⟩
    exact watched_finish (valid_of_run hu hrun) hwatch hfinish hmoved

/-! ## Two migrations for one guest -/

def guestEmail : String := "guest@example.com"

def guestCalls : Nat → Call
  | 0 => .createUser ⟨guestEmail⟩
  | 1 => migration guestEmail
  | 2 => migration guestEmail
  | _ => .order (.create onePlace)

def booking (i : Nat) : List (Nat × Act) :=
  (bookOnePlace i).map fun act => (act.1, .order act.2)

def registered : List (Nat × Act) :=
  booking 3 ++ List.replicate 5 (0, .register .run)

/-- Both migrations find the order, the guest books another place, and the
second migration is done before the first looks at the row. -/
def bothMigrate : List (Nat × Act) :=
  [(1, .order .run), (2, .order .run), (1, .order (.rows [1])), (2, .order (.rows [1]))] ++
    booking 4 ++
    [(2, .order .run), (2, .order .run), (1, .order .run), (1, .order .run)]

def afterActs (acts : List (Nat × Act)) : Option (World Nat Store Row Pc) :=
  (atCalls hall guestCalls).steps ownerStep acts

/-- The number a migration returns need not be that of the guest's orders at any
moment from its first statement to its last. -/
theorem migrations_overlap :
    (afterActs (registered ++ bothMigrate)).map (fun w => moved (w.pc 1)) = some (some 0) ∧
    ¬ ∃ k ≤ bothMigrate.length, (afterActs (registered ++ bothMigrate.take k)).map
      (fun w => (anonymousOrderIds w.shared.db guestEmail).length) = some 0 := by
  decide

theorem orders_owned_hall :
    ∃ w, Run ownerStep anyStep (atCalls hall guestCalls) w ∧
      w.shared.db.orders.map ownerOf = [some (.user 1), some (.guest guestEmail)] ∧
      ∀ order ∈ w.shared.db.orders, xor order.userId.isSome order.anonymousEmail.isSome := by
  have howners : (afterActs (registered ++ bothMigrate)).map
      (fun w => w.shared.db.orders.map ownerOf) =
        some [some (.user 1), some (.guest guestEmail)] := by
    decide
  obtain ⟨w, hw, hlist⟩ := Option.map_eq_some_iff.mp howners
  have hrun : Run ownerStep anyStep (atCalls hall guestCalls) w := Run.of_steps hw
  have hopening : Opening hall := ⟨⟨rfl, rfl, rfl, fun _ => rfl⟩, List.nodup_nil⟩
  exact ⟨w, hrun, hlist, (orders_owned hopening guestCalls hrun).2.1⟩

end TicketBooking.Order.Owners
