import Mathlib.Algebra.Order.BigOperators.Group.List
import Mathlib.Algebra.Order.Group.Nat
import Mathlib.Algebra.Ring.Nat
import Mathlib.Data.List.Perm.Subperm
import TicketBooking.Order.Lifecycle
import TicketBooking.Order.Serializable
/-!
# Requested quantities

A booking names a category in as many of its items as it likes.  `create` checks
the stock against the dictionary of the quantities, which keeps the last one of
each category, and inserts tickets for the list.
-/

namespace TicketBooking.Order.Quantities

open TicketBooking.App.Exceptions
open TicketBooking.Database.Shared TicketBooking.Database.Tables
open TicketBooking.Library
open TicketBooking.Order.Booking TicketBooking.Order.Ledger TicketBooking.Order.Lifecycle
open TicketBooking.Order.Serializable

/-! ## Sums and last quantities -/

def requestedSum (items : List OrderItemCreateSchema) (categoryId : Nat) : Nat :=
  ((items.filter fun item => item.categoryId.val = categoryId).map fun item =>
    item.quantity.val).sum

/-- `requested_quantities[category_id]`. -/
def lastQuantity (items : List OrderItemCreateSchema) (categoryId : Nat) : Nat :=
  (Dict.get categoryId (requestedQuantities items)).getD 0

def InStock (db : Db) (items : List OrderItemCreateSchema) (quantity : Nat → Nat) : Prop :=
  ∀ item ∈ items, ∃ cat ∈ db.ticketCategories,
    cat.id = item.categoryId.val ∧ quantity cat.id ≤ availableQuantity db cat

instance (db : Db) (items : List OrderItemCreateSchema) (quantity : Nat → Nat) :
    Decidable (InStock db items quantity) :=
  inferInstanceAs (Decidable (∀ item ∈ items, ∃ cat ∈ db.ticketCategories,
    cat.id = item.categoryId.val ∧ quantity cat.id ≤ availableQuantity db cat))

theorem get_requestedQuantities {items : List OrderItemCreateSchema} {item : OrderItemCreateSchema}
    (hitem : item ∈ items) :
    Dict.get item.categoryId.val (requestedQuantities items) =
      some (lastQuantity items item.categoryId.val) := by
  have hpresent : ∀ key : OrderItemCreateSchema → Nat, ∃ quantity,
      Dict.get (key item) (Dict.ofList key (fun item => item.quantity.val) items) =
        some quantity := fun _ => Dict.get_ofList_of_mem hitem
  obtain ⟨quantity, hget⟩ : ∃ quantity, Dict.get item.categoryId.val (requestedQuantities items) =
      some quantity := hpresent fun item => item.categoryId.val
  unfold lastQuantity
  rw [hget]
  rfl

theorem quantity_le_requestedSum {items : List OrderItemCreateSchema}
    {item : OrderItemCreateSchema} (hitem : item ∈ items) {id : Nat}
    (hid : item.categoryId.val = id) : item.quantity.val ≤ requestedSum items id := by
  refine List.single_le_sum (fun _ _ => Nat.zero_le _) _ ?_
  exact List.mem_map_of_mem (List.mem_filter.mpr ⟨hitem, decide_eq_true hid⟩)

theorem requestedSum_eq_zero {items : List OrderItemCreateSchema} {id : Nat}
    (h : id ∉ categoryIds items) : requestedSum items id = 0 := by
  unfold requestedSum
  rw [List.filter_eq_nil_iff.mpr]
  · rfl
  · intro item hitem hid
    refine h (List.mem_dedup.mpr ?_)
    rw [← of_decide_eq_true hid]
    exact List.mem_map_of_mem hitem

theorem lastQuantity_le_requestedSum {items : List OrderItemCreateSchema}
    {item : OrderItemCreateSchema} (hitem : item ∈ items) :
    lastQuantity items item.categoryId.val ≤ requestedSum items item.categoryId.val := by
  obtain ⟨last, hlast, hid, hquantity⟩ := Dict.get_ofList_eq_some (get_requestedQuantities hitem)
  rw [← hquantity]
  exact quantity_le_requestedSum hlast hid

theorem InStock.last_of_sum {db : Db} {items : List OrderItemCreateSchema}
    (h : InStock db items (requestedSum items)) : InStock db items (lastQuantity items) := by
  intro item hitem
  obtain ⟨cat, hcat, hid, hle⟩ := h item hitem
  have hlast := lastQuantity_le_requestedSum hitem
  rw [← hid] at hlast
  exact ⟨cat, hcat, hid, hlast.trans hle⟩

/-- The places an order takes of a category are what it requests. -/
theorem count_places (items : List OrderItemCreateSchema) (id : Nat) :
    (places (items.map fun item => (item.categoryId.val, item.quantity.val))).count id =
      requestedSum items id := by
  induction items with
  | nil => rfl
  | cons item items ih =>
      have hcons : places ((item :: items).map fun item =>
          (item.categoryId.val, item.quantity.val)) =
            List.replicate item.quantity.val item.categoryId.val ++
              places (items.map fun item => (item.categoryId.val, item.quantity.val)) := rfl
      rw [hcons, List.count_append, ih, List.count_replicate]
      unfold requestedSum
      by_cases hid : item.categoryId.val = id
      · simp [hid]
      · simp [hid]

/-! ## The check -/

/-- The CASE yields the category's id exactly when its last quantity is left. -/
theorem caseId_eq_some {db : Db} {items : List OrderItemCreateSchema} {cat : TicketCategory}
    {item : OrderItemCreateSchema} (hitem : item ∈ items) (hid : cat.id = item.categoryId.val) :
    caseId db (requestedQuantities items) cat = some cat.id ↔
      lastQuantity items cat.id ≤ availableQuantity db cat := by
  have hget := get_requestedQuantities hitem
  rw [← hid] at hget
  unfold caseId
  constructor
  · intro h
    obtain ⟨clause, hfind, -⟩ := Option.map_eq_some_iff.mp h
    obtain ⟨hkey, hle⟩ := of_decide_eq_true (List.find?_some hfind :)
    have hclause : Dict.get cat.id (requestedQuantities items) = some clause.2 := by
      rw [hkey]
      exact Dict.get_of_mem (Dict.nodup_ofList items) (List.mem_of_find?_eq_some hfind)
    rw [hget] at hclause
    rw [Option.some.inj hclause]
    exact hle
  · intro hle
    have hmem := Dict.mem_of_get hget
    cases hfind : (requestedQuantities items).find? fun clause =>
        cat.id = clause.1 ∧ clause.2 ≤ availableQuantity db cat with
    | none =>
        have hnone := List.find?_eq_none.mp hfind _ hmem
        simp [hle] at hnone
    | some clause =>
        obtain ⟨hkey, -⟩ := of_decide_eq_true (List.find?_some hfind :)
        rw [Option.map_some, hkey]

theorem available_iff_inStock {db : Db} {call : CreateCall} :
    Available db call ↔ InStock db call.data.items (lastQuantity call.data.items) := by
  constructor
  · intro h item hitem
    obtain ⟨cat, hcat, hid⟩ := h item hitem
    obtain ⟨hmem, hselectable⟩ := List.mem_filter.mp hcat
    obtain ⟨-, hcase⟩ := of_decide_eq_true hselectable
    exact ⟨cat, hmem, hid, (caseId_eq_some hitem hid).mp hcase⟩
  · intro h item hitem
    obtain ⟨cat, hmem, hid, hle⟩ := h item hitem
    refine ⟨cat, List.mem_filter.mpr ⟨hmem, decide_eq_true ⟨?_, ?_⟩⟩, hid⟩
    · rw [hid]
      exact List.mem_dedup.mpr (List.mem_map_of_mem hitem)
    · exact (caseId_eq_some hitem hid).mpr hle

/-- The rows are of categories that are asked for, one of each at most. -/
def OneOfEach (categories : List TicketCategory) (items : List OrderItemCreateSchema) : Prop :=
  (categories.map fun cat => cat.id).Nodup ∧ (categories.map fun cat => cat.id) ⊆ categoryIds items

/-- Then the test on the lengths misses no category. -/
theorem OneOfEach.found {items : List OrderItemCreateSchema} {categories : List TicketCategory}
    (hone : OneOfEach categories items) (h : missingItem categories items = none) :
    ∀ item ∈ items, (categoriesMap categories item.categoryId.val).isSome := by
  unfold missingItem at h
  intro item hitem
  split_ifs at h with hlength
  · have hfound := List.find?_eq_none.mp h item hitem
    rwa [Bool.not_eq_true, Option.isNone_eq_false_iff] at hfound
  · have hsame : (categories.map fun cat => cat.id).Perm (categoryIds items) := by
      refine (List.subperm_of_subset hone.1 hone.2).perm_of_length_le ?_
      rw [List.length_map]
      omega
    have hmem : item.categoryId.val ∈ categories.map fun cat => cat.id :=
      hsame.mem_iff.mpr (List.mem_dedup.mpr (List.mem_map_of_mem hitem))
    obtain ⟨cat, hcat, hid⟩ := List.mem_map.mp hmem
    exact categoriesMap_isSome.mpr ⟨cat, hcat, hid⟩

theorem oneOfEach_of_perm {db : Db} {items : List OrderItemCreateSchema}
    {categories : List TicketCategory} (hkeys : (db.ticketCategories.map fun cat => cat.id).Nodup)
    (hperm : categories.Perm (selectedCategories db items)) : OneOfEach categories items := by
  constructor
  · refine (hperm.map _).nodup_iff.mpr (hkeys.sublist ?_)
    exact List.filter_sublist.map _
  · intro id hid
    obtain ⟨cat, hcat, rfl⟩ := List.mem_map.mp hid
    exact (of_decide_eq_true (List.mem_filter.mp (hperm.mem_iff.mp hcat)).2).1

theorem OneOfEach.sublist {items : List OrderItemCreateSchema}
    {categories rows : List TicketCategory} (h : OneOfEach categories items)
    (hrows : (rows.map fun cat => cat.id).Sublist (categories.map fun cat => cat.id)) :
    OneOfEach rows items :=
  ⟨h.1.sublist hrows, fun _ hid => h.2 (hrows.subset hid)⟩

/-! ## What `create` does, alone -/

section Alone

variable {s : Store} {call : CreateCall} {categories : List TicketCategory}

/-- The order is added with an item for each requested one and the tickets of
each item, and the stock of no category is exceeded. -/
structure Placed (s : Store) (call : CreateCall) (order : Order) (items : List OrderItem)
    (s' : Store) : Prop where
  pending : order.status = .pending
  rows : ∃ tickets, s'.db = insertBooking order items tickets s.db ∧
    Filled .reserved items tickets ∧
    ∀ ticket ∈ tickets, ∃ item ∈ items, ticket.orderItemId = some item.id
  items : List.Forall₂ (fun (requested : OrderItemCreateSchema) (item : OrderItem) =>
    item.orderId = order.id ∧ item.categoryId = requested.categoryId.val ∧
      item.quantity = requested.quantity.val ∧
      ∃ cat ∈ s.db.ticketCategories, cat.id = item.categoryId ∧
        item.purchasePrice = some cat.price) call.data.items items
  stock : ∀ cat ∈ s.db.ticketCategories,
    occupiedCount s.db cat.id ≤ cat.totalQuantity ∨ cat.id ∈ categoryIds call.data.items →
      occupiedCount s'.db cat.id ≤ cat.totalQuantity

/-- What a `create` with one owner is to do: it succeeds exactly when the sums are
in stock, and is refused for the lack of tickets otherwise. -/
structure BookedBySum (s : Store) (call : CreateCall)
    (result : Except AppException (Order × List OrderItem) × Store) : Prop where
  decides : result.1.isOk ↔ InStock s.db call.data.items (requestedSum call.data.items)
  placed : ∀ order items, result.1 = .ok (order, items) → Placed s call order items result.2
  refused : ∀ e, result.1 = .error e →
    (∃ item ∈ call.data.items, e = noTickets item) ∧ result.2 = s

theorem createTransaction_refuses
    (hkeys : (s.db.ticketCategories.map fun cat => cat.id).Nodup)
    (hperm : categories.Perm (selectedCategories s.db call.data.items))
    (howner : ownerGiven call) (h : ¬ Available s.db call) :
    ∃ item ∈ call.data.items,
      createTransaction s call categories = (.error (noTickets item), s) := by
  unfold createTransaction
  simp only [howner, Bool.not_true, Bool.false_eq_true, if_false]
  cases hmissing : missingItem categories call.data.items with
  | some item =>
      refine ⟨item, ?_, rfl⟩
      unfold missingItem at hmissing
      split_ifs at hmissing
      exact List.mem_of_find?_eq_some hmissing
  | none =>
      refine absurd (fun item hitem => ?_) h
      obtain ⟨cat, hcat, hid⟩ :=
        categoriesMap_isSome.mp ((oneOfEach_of_perm hkeys hperm).found hmissing item hitem)
      exact ⟨cat, hperm.mem_iff.mp hcat, hid⟩

theorem createTransaction_places (hperm : categories.Perm (selectedCategories s.db call.data.items))
    (howner : ownerGiven call) (huser : userExists s.db call.userId)
    (h : Available s.db call) :
    ∃ data s', itemsData categories call.data.items = some data ∧
      createTransaction s call categories =
        (.ok (newOrder call s.seq.orders,
          assignIds (newItem s.seq.orders) s.seq.orderItems data), s') ∧
      s'.db = insertBooking (newOrder call s.seq.orders)
        (assignIds (newItem s.seq.orders) s.seq.orderItems data)
        (assignIds newTicket s.seq.tickets
          (ticketsToInsert (assignIds (newItem s.seq.orders) s.seq.orderItems data))) s.db := by
  have hrefusal := (refusal_perm hperm call.data.items).trans (refusal_of_available h)
  unfold refusal at hrefusal
  unfold createTransaction
  cases hmissing : missingItem categories call.data.items with
  | some item => simp [hmissing] at hrefusal
  | none =>
      cases hdata : itemsData categories call.data.items with
      | none => simp [hmissing, hdata] at hrefusal
      | some data =>
          simp only [howner, huser, Bool.not_true, Bool.false_eq_true, if_false]
          exact ⟨data, _, rfl, rfl, rfl⟩

theorem itemsData_forall₂ {items : List OrderItemCreateSchema} {data : List ItemData}
    (h : itemsData categories items = some data) :
    List.Forall₂ (fun requested d => d.categoryId = requested.categoryId.val ∧
      d.quantity = requested.quantity.val ∧
      ∃ cat ∈ categories, cat.id = d.categoryId ∧ d.purchasePrice = cat.price) items data := by
  unfold itemsData at h
  induction items generalizing data with
  | nil =>
      cases h
      exact .nil
  | cons item items ih =>
      rw [List.mapM_cons] at h
      obtain ⟨d, hd, h⟩ := Option.bind_eq_some_iff.mp h
      obtain ⟨rest, hrest, h⟩ := Option.bind_eq_some_iff.mp h
      obtain ⟨cat, hcat, rfl⟩ := Option.map_eq_some_iff.mp hd
      cases h
      obtain ⟨cat', hmem, hid, rfl⟩ := Dict.get_ofList_eq_some hcat
      exact .cons ⟨rfl, rfl, cat', hmem, hid, rfl⟩ (ih hrest)

theorem forall₂_assignIds {α β γ : Type} {R : α → γ → Prop} {mk : Nat → β → γ} {xs : List α}
    {ys : List β} (next : Nat) (h : List.Forall₂ (fun x y => ∀ k, R x (mk k y)) xs ys) :
    List.Forall₂ R xs (assignIds mk next ys) := by
  induction h generalizing next with
  | nil => exact .nil
  | cons hxy _ ih => exact .cons (hxy next) (ih (next + 1))

/-- A booking takes of each category what is requested of it. -/
theorem occupiedCount_booked {data : List ItemData}
    (hdata : itemsData categories call.data.items = some data) (order : Order) (db : Db)
    (orderId nextItem nextTicket id : Nat) :
    occupiedCount (insertBooking order (assignIds (newItem orderId) nextItem data)
      (assignIds newTicket nextTicket (ticketsToInsert
        (assignIds (newItem orderId) nextItem data))) db) id =
      occupiedCount db id + requestedSum call.data.items id := by
  have htickets : (assignIds newTicket nextTicket (ticketsToInsert
      (assignIds (newItem orderId) nextItem data))).map (fun ticket => ticket.categoryId) =
      (ticketsToInsert (assignIds (newItem orderId) nextItem data)).map Prod.fst := by
    refine map_assignIds ?_ _ _
    exact fun _ _ => rfl
  have hitems : (assignIds (newItem orderId) nextItem data).map
      (fun item => (item.categoryId, item.quantity)) =
        data.map fun d => (d.categoryId, d.quantity) := by
    refine map_assignIds ?_ _ _
    exact fun _ _ => rfl
  rw [occupiedCount_insertBooking, htickets, map_fst_ticketsToInsert, hitems, map_itemsData hdata,
    count_places]

theorem placed_of_available (hkeys : (s.db.ticketCategories.map fun cat => cat.id).Nodup)
    (hperm : categories.Perm (selectedCategories s.db call.data.items))
    {data : List ItemData} (hdata : itemsData categories call.data.items = some data)
    (hsum : InStock s.db call.data.items (requestedSum call.data.items)) {s' : Store}
    (hdb : s'.db = insertBooking (newOrder call s.seq.orders)
      (assignIds (newItem s.seq.orders) s.seq.orderItems data)
      (assignIds newTicket s.seq.tickets
        (ticketsToInsert (assignIds (newItem s.seq.orders) s.seq.orderItems data))) s.db) :
    Placed s call (newOrder call s.seq.orders)
      (assignIds (newItem s.seq.orders) s.seq.orderItems data) s' := by
  have hnodup : ((assignIds (newItem s.seq.orders) s.seq.orderItems data).map
      fun item => item.id).Nodup := nodup_assignIds (fun _ _ => rfl) _ _
  have hprepared := (Prepared.nil (assignIds (newItem s.seq.orders) s.seq.orderItems data)).insert
    s.seq.tickets
    (ticketsToInsert (assignIds (newItem s.seq.orders) s.seq.orderItems data)).length
  rw [List.nil_append, List.take_length, List.drop_length] at hprepared
  refine ⟨rfl, ⟨_, hdb, hprepared.filled hnodup, fun ticket hticket => ?_⟩, ?_, ?_⟩
  · obtain ⟨k, d, -, -, hd, rfl⟩ := mem_assignIds hticket
    obtain ⟨item, hitem, rfl⟩ := item_of_mem_ticketsToInsert hd
    exact ⟨item, hitem, rfl⟩
  · refine forall₂_assignIds _ ((itemsData_forall₂ hdata).imp ?_)
    rintro requested d ⟨hid, hquantity, cat, hcat, hcatId, hprice⟩ k
    refine ⟨rfl, hid, hquantity, cat, ?_, hcatId, congrArg some hprice⟩
    exact (List.mem_filter.mp (hperm.mem_iff.mp hcat)).1
  · intro cat hcat hstock
    rw [hdb, occupiedCount_booked hdata]
    by_cases hmem : cat.id ∈ categoryIds call.data.items
    · obtain ⟨item, hitem, hid⟩ := List.mem_map.mp (List.mem_dedup.mp hmem)
      obtain ⟨other, hother, hotherId, hle⟩ := hsum item hitem
      have hsame : other = cat :=
        List.inj_on_of_nodup_map hkeys hother hcat (hotherId.trans hid)
      subst hsame
      have hpos : 0 < requestedSum call.data.items other.id :=
        lt_of_lt_of_le item.quantity.property.1 (quantity_le_requestedSum hitem hid)
      unfold availableQuantity at hle
      omega
    · have hzero : requestedSum call.data.items cat.id = 0 := requestedSum_eq_zero hmem
      have hle := hstock.resolve_right hmem
      omega

/-- `create` books by the sums exactly when the last quantities decide as the sums
do. -/
theorem bookedBySum_iff (hkeys : (s.db.ticketCategories.map fun cat => cat.id).Nodup)
    (hperm : categories.Perm (selectedCategories s.db call.data.items))
    (howner : ownerGiven call) (huser : userExists s.db call.userId) :
    BookedBySum s call (createTransaction s call categories) ↔
      (InStock s.db call.data.items (lastQuantity call.data.items) →
        InStock s.db call.data.items (requestedSum call.data.items)) := by
  by_cases havailable : Available s.db call
  · have hlast := available_iff_inStock.mp havailable
    obtain ⟨data, s', hdata, hresult, hdb⟩ :=
      createTransaction_places hperm howner huser havailable
    constructor
    · intro h _
      rw [hresult] at h
      exact h.decides.mp rfl
    · intro hsum
      rw [hresult]
      refine ⟨⟨fun _ => hsum hlast, fun _ => rfl⟩, ?_, ?_⟩
      · rintro order items ⟨⟩
        exact placed_of_available hkeys hperm hdata (hsum hlast) hdb
      · rintro e ⟨⟩
  · have hlast := fun h => havailable (available_iff_inStock.mpr h)
    obtain ⟨item, hitem, hresult⟩ := createTransaction_refuses hkeys hperm howner havailable
    rw [hresult]
    constructor
    · intro _ h
      exact absurd h hlast
    · intro _
      refine ⟨⟨?_, fun h => absurd h.last_of_sum hlast⟩, ?_, ?_⟩
      · rintro ⟨⟩
      · rintro order items ⟨⟩
      · rintro e ⟨⟩
        exact ⟨⟨item, hitem, rfl⟩, rfl⟩

end Alone

def lastTicket : Store where
  db := { ticketCategories := [⟨1, 1, "A", 10, 1⟩] }

def twoItems : CreateCall where
  data := ⟨some "ann@example.com", [⟨one, two⟩, ⟨one, one⟩], by decide⟩
  userId := none

def oneItem : CreateCall where
  data := { Transactions.onePlace.data with anonymousEmail := some "ann@example.com" }
  userId := none

theorem oneItem_booked :
    BookedBySum lastTicket oneItem
      (createTransaction lastTicket oneItem
        (selectedCategories lastTicket.db oneItem.data.items)) :=
  (bookedBySum_iff (by decide) (List.Perm.refl _) (by decide) (by decide)).mpr fun _ => by decide

/-- Only the one of the second item is checked: the order gets three tickets. -/
theorem last_quantity_booked :
    ¬ BookedBySum lastTicket twoItems (createTransaction lastTicket twoItems
      (selectedCategories lastTicket.db twoItems.data.items)) := by
  intro h
  have hsum : InStock lastTicket.db twoItems.data.items (requestedSum twoItems.data.items) :=
    h.decides.mp (by decide)
  exact absurd hsum (by decide)

end TicketBooking.Order.Quantities
