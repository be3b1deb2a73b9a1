import TicketBooking.App.Exceptions
import TicketBooking.Database.Shared
import TicketBooking.Library.Dict
import Mathlib.Data.List.Dedup
/-!
# Placing an order

The pieces of `OrderService.create`: the stock a category has left, the rows
its `SELECT ... FOR UPDATE` matches, the test for a category it did not get, and
the rows it inserts.  `createTransaction` puts them together for a call that
runs alone; the interleaved service uses the same pieces statement by
statement.
-/

namespace TicketBooking.Order.Booking

open TicketBooking.App.Exceptions
open TicketBooking.Database.Shared TicketBooking.Database.Tables
open TicketBooking.Library

/-- `Annotated[int, Field(ge=1, le=2147483647)]`. -/
abbrev PositiveInt32 := {n : Nat // 1 ≤ n ∧ n ≤ 2147483647}

def one : PositiveInt32 := ⟨1, by decide⟩
def two : PositiveInt32 := ⟨2, by decide⟩
def ten : PositiveInt32 := ⟨10, by decide⟩

structure OrderItemCreateSchema where
  categoryId : PositiveInt32
  quantity : PositiveInt32
  deriving DecidableEq

structure OrderCreateSchema where
  anonymousEmail : Option String
  items : List OrderItemCreateSchema
  minLength : 1 ≤ items.length

/-- One call of `OrderService.create`. -/
structure CreateCall where
  data : OrderCreateSchema
  userId : Option Nat

/-! ## Stock -/

/-- `select(func.count(Ticket.id)).where(Ticket.category_id == cls.id)`. -/
def occupiedCount (db : Db) (categoryId : Nat) : Nat :=
  (db.tickets.filter fun ticket => ticket.categoryId = categoryId).length

/-- `greatest(0, total_quantity - occupied_count)`. -/
def availableQuantity (db : Db) (category : TicketCategory) : Nat :=
  category.totalQuantity - occupiedCount db category.id

/-- `list({item.category_id for item in data.items})`. -/
def categoryIds (items : List OrderItemCreateSchema) : List Nat :=
  (items.map fun item => item.categoryId.val).dedup

/-- `{item.category_id: item.quantity for item in data.items}`. -/
def requestedQuantities (items : List OrderItemCreateSchema) : List (Nat × Nat) :=
  Dict.ofList (fun item => item.categoryId.val) (fun item => item.quantity.val) items

/-- `Case(*(When(id=cat_id, available_quantity__gte=qty) ...))`: without a
`then` the clause yields its `id`, and without a `default` the case is NULL. -/
def caseId (db : Db) (whens : List (Nat × Nat)) (category : TicketCategory) : Option Nat :=
  (whens.find? fun clause =>
    category.id = clause.1 ∧ clause.2 ≤ availableQuantity db category).map Prod.fst

def selectable (db : Db) (items : List OrderItemCreateSchema) (category : TicketCategory) : Bool :=
  category.id ∈ categoryIds items ∧
    caseId db (requestedQuantities items) category = some category.id

def selectedCategories (db : Db) (items : List OrderItemCreateSchema) : List TicketCategory :=
  db.ticketCategories.filter (selectable db items)

/-! ## What the SELECT's answer leads to -/

def categoriesMap (categories : List TicketCategory) (categoryId : Nat) : Option TicketCategory :=
  Dict.get categoryId (Dict.ofList (fun cat => cat.id) (fun cat => cat) categories)

/-- The item the `NoTicketsAvailableException` is raised for. -/
def missingItem (categories : List TicketCategory) (items : List OrderItemCreateSchema) :
    Option OrderItemCreateSchema :=
  if categories.length ≠ (categoryIds items).length then
    items.find? fun item => (categoriesMap categories item.categoryId.val).isNone
  else none

def noTickets (item : OrderItemCreateSchema) : AppException :=
  .noTicketsAvailable item.categoryId.val 0 item.quantity.val

structure ItemData where
  categoryId : Nat
  quantity : Nat
  purchasePrice : Rat
  deriving DecidableEq, Repr

/-- `items_data`; `none` is the `KeyError` of `categories_map[...]`. -/
def itemsData (categories : List TicketCategory) (items : List OrderItemCreateSchema) :
    Option (List ItemData) :=
  items.mapM fun item => (categoriesMap categories item.categoryId.val).map fun cat =>
    ⟨item.categoryId.val, item.quantity.val, cat.price⟩

theorem categoriesMap_isSome {categories : List TicketCategory} {id : Nat} :
    (categoriesMap categories id).isSome ↔ ∃ cat ∈ categories, cat.id = id := by
  unfold categoriesMap
  constructor
  · intro h
    obtain ⟨cat, hget⟩ := Option.isSome_iff_exists.mp h
    obtain ⟨cat', hmem, hid, -⟩ := Dict.get_ofList_eq_some hget
    exact ⟨cat', hmem, hid⟩
  · rintro ⟨cat, hmem, rfl⟩
    have hget : ∃ v, Dict.get cat.id (Dict.ofList (fun cat : TicketCategory => cat.id)
        (fun cat => cat) categories) = some v := Dict.get_ofList_of_mem hmem
    exact Option.isSome_iff_exists.mpr hget

theorem itemsData_isSome {categories : List TicketCategory} {items : List OrderItemCreateSchema} :
    (itemsData categories items).isSome ↔
      ∀ item ∈ items, (categoriesMap categories item.categoryId.val).isSome := by
  unfold itemsData
  induction items with
  | nil => simp
  | cons item items ih =>
      rw [List.mapM_cons, List.forall_mem_cons, ← ih]
      cases categoriesMap categories item.categoryId.val <;>
        cases items.mapM fun item => (categoriesMap categories item.categoryId.val).map fun cat =>
          (⟨item.categoryId.val, item.quantity.val, cat.price⟩ : ItemData) <;> simp

theorem map_itemsData {categories : List TicketCategory} {items : List OrderItemCreateSchema}
    {data : List ItemData} (h : itemsData categories items = some data) :
    data.map (fun d => (d.categoryId, d.quantity)) =
      items.map fun item => (item.categoryId.val, item.quantity.val) := by
  unfold itemsData at h
  induction items generalizing data with
  | nil =>
      cases h
      rfl
  | cons item items ih =>
      rw [List.mapM_cons] at h
      obtain ⟨d, hd, h⟩ := Option.bind_eq_some_iff.mp h
      obtain ⟨rest, hrest, h⟩ := Option.bind_eq_some_iff.mp h
      obtain ⟨cat, -, rfl⟩ := Option.map_eq_some_iff.mp hd
      cases h
      rw [List.map_cons, List.map_cons, ih hrest]

theorem itemsData_categories {categories : List TicketCategory} {items : List OrderItemCreateSchema}
    {data : List ItemData} (h : itemsData categories items = some data) {d : ItemData}
    (hd : d ∈ data) : ∃ cat ∈ categories, cat.id = d.categoryId := by
  have hmem : (d.categoryId, d.quantity) ∈ data.map fun d => (d.categoryId, d.quantity) :=
    List.mem_map_of_mem hd
  rw [map_itemsData h] at hmem
  obtain ⟨item, hitem, heq⟩ := List.mem_map.mp hmem
  obtain ⟨hid, -⟩ := Prod.mk.inj heq
  have hfound := itemsData_isSome.mp (by rw [h]; rfl) item hitem
  rw [hid] at hfound
  exact categoriesMap_isSome.mp hfound

/-- `if not (user_id is None) ^ (data.anonymous_email is None)`. -/
def ownerGiven (call : CreateCall) : Bool :=
  xor call.userId.isNone call.data.anonymousEmail.isNone

def ownerError : AppException :=
  .valueError "Exactly one field must be provided: either 'user_id' or 'anonymous_email'"

/-- The foreign key of `orders.user_id`. -/
def userExists (db : Db) (userId : Option Nat) : Bool :=
  userId.all fun id => db.users.any fun user => user.id = id

/-! ## The inserted rows -/

def newOrder (call : CreateCall) (id : Nat) : Order where
  id := id
  userId := call.userId
  anonymousEmail := if call.userId.isSome then none else call.data.anonymousEmail
  status := .pending

def newItem (orderId : Nat) (id : Nat) (item : ItemData) : OrderItem where
  id := id
  orderId := orderId
  categoryId := item.categoryId
  quantity := item.quantity
  purchasePrice := some item.purchasePrice

def newTicket (id : Nat) (data : Nat × Nat) : Ticket where
  id := id
  categoryId := data.1
  orderItemId := some data.2
  status := .reserved

/-- `tickets_to_insert`: category and order item of each ticket. -/
def ticketsToInsert (items : List OrderItem) : List (Nat × Nat) :=
  items.flatMap fun row => List.replicate row.quantity (row.categoryId, row.id)

def insertBooking (order : Order) (items : List OrderItem) (tickets : List Ticket) (db : Db) : Db :=
  { db with
    orders := db.orders ++ [order]
    orderItems := db.orderItems ++ items
    tickets := db.tickets ++ tickets }

/-- The `async with self.uow` block of `OrderService.create`, with the check
before it, for a call no other transaction overlaps.  `categories` is the
answer of the SELECT in the order the database returned it. -/
def createTransaction (s : Store) (call : CreateCall) (categories : List TicketCategory) :
    Except AppException (Order × List OrderItem) × Store :=
  if !ownerGiven call then (.error ownerError, s)
  else
    match missingItem categories call.data.items with
    | some item => (.error (noTickets item), s)
    | none =>
        match itemsData categories call.data.items with
        | none => (.error (.other "KeyError"), s)
        | some data =>
            if !userExists s.db call.userId then
              (.error (.databaseError .foreignKeyViolation), s)
            else
              let order := newOrder call s.seq.orders
              let items := assignIds (newItem order.id) s.seq.orderItems data
              let tickets := assignIds newTicket s.seq.tickets (ticketsToInsert items)
              (.ok (order, items),
                { s with
                  db := insertBooking order items tickets s.db
                  seq := { s.seq with
                    orders := s.seq.orders + 1
                    orderItems := s.seq.orderItems + items.length
                    tickets := s.seq.tickets + tickets.length } })

end TicketBooking.Order.Booking
