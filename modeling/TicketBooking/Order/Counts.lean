import TicketBooking.Order.Quantities
/-!
# Occupied places, counted twice

A loaded ticket category sums the quantities of its items; the expression of the
same name counts its tickets.
-/

namespace TicketBooking.Order.Counts

open TicketBooking.Database.Shared TicketBooking.Database.Tables
open TicketBooking.Library.Sessions
open TicketBooking.Order.Booking TicketBooking.Order.Ledger TicketBooking.Order.Lifecycle
open TicketBooking.Order.Transactions

/-! ## The instance and its data object -/

/-- A loaded row.  `items` is there when the relationship has been loaded. -/
structure TicketCategoryInstance where
  row : TicketCategory
  items : Option (List OrderItem)

/-- `TicketCategory.occupied_count` of an instance. -/
def TicketCategoryInstance.occupiedCount (instance_ : TicketCategoryInstance) : Nat :=
  match instance_.items with
  | none => 0
  | some items => (items.map fun item => item.quantity).sum

def TicketCategoryInstance.availableQuantity (instance_ : TicketCategoryInstance) : Nat :=
  instance_.row.totalQuantity - instance_.occupiedCount

structure TicketCategoryDTO where
  id : Nat
  eventId : Nat
  name : String
  price : Rat
  totalQuantity : Nat
  occupiedCount : Nat
  deriving DecidableEq, Repr

def TicketCategoryDTO.availableQuantity (dto : TicketCategoryDTO) : Nat :=
  dto.totalQuantity - dto.occupiedCount

/-- `_to_dto`: the columns, and the hybrid property as the instance has it. -/
def toDto (instance_ : TicketCategoryInstance) : TicketCategoryDTO where
  id := instance_.row.id
  eventId := instance_.row.eventId
  name := instance_.row.name
  price := instance_.row.price
  totalQuantity := instance_.row.totalQuantity
  occupiedCount := instance_.occupiedCount

def loadedWithItems (db : Db) (category : TicketCategory) : TicketCategoryInstance where
  row := category
  items := some (db.orderItems.filter fun item => item.categoryId = category.id)

structure CountsAgree (db : Db) (category : TicketCategory) : Prop where
  occupied : (loadedWithItems db category).occupiedCount = occupiedCount db category.id
  available : (loadedWithItems db category).availableQuantity = availableQuantity db category
  dtoOccupied : (toDto (loadedWithItems db category)).occupiedCount =
    occupiedCount db category.id
  dtoAvailable : (toDto (loadedWithItems db category)).availableQuantity =
    availableQuantity db category

theorem countsAgree_iff {db : Db} {category : TicketCategory} :
    CountsAgree db category ↔
      (loadedWithItems db category).occupiedCount = occupiedCount db category.id := by
  constructor
  · exact fun h => h.occupied
  · intro h
    have havailable : (loadedWithItems db category).availableQuantity =
        availableQuantity db category := congrArg (category.totalQuantity - ·) h
    exact ⟨h, havailable, h, havailable⟩

/-! ## Sums -/

theorem length_filter_or {α : Type} {p q : α → Bool} {xs : List α}
    (h : ∀ x ∈ xs, p x = true → q x = false) :
    (xs.filter fun x => p x || q x).length = (xs.filter p).length + (xs.filter q).length := by
  induction xs with
  | nil => rfl
  | cons x xs ih =>
      rw [List.forall_mem_cons] at h
      have hrest := ih h.2
      cases hp : p x with
      | true =>
          have hq := h.1 hp
          simp only [List.filter_cons, hp, hq, Bool.true_or, if_true, Bool.false_eq_true, if_false,
            List.length_cons, hrest]
          omega
      | false =>
          cases hq : q x with
          | true =>
              simp only [List.filter_cons, hp, hq, Bool.or_true, if_true, Bool.false_eq_true,
                if_false, List.length_cons, hrest]
              omega
          | false => simpa [List.filter_cons, hp, hq] using hrest

theorem sum_length_filter {α β : Type} [DecidableEq β] (key : α → β) {keys : List β}
    (hkeys : keys.Nodup) (xs : List α) :
    (keys.map fun k => (xs.filter fun x => key x = k).length).sum =
      (xs.filter fun x => key x ∈ keys).length := by
  induction keys with
  | nil => simp
  | cons k keys ih =>
      rw [List.nodup_cons] at hkeys
      rw [List.map_cons, List.sum_cons, ih hkeys.2, ← length_filter_or]
      · congr 1
        refine List.filter_congr fun x _ => ?_
        simp only [List.mem_cons, Bool.decide_or]
      · intro x _ hx
        have hkey : key x = k := of_decide_eq_true hx
        rw [decide_eq_false_iff_not, hkey]
        exact hkeys.1

theorem sum_eq_iff_of_le {α : Type} {f g : α → Nat} {xs : List α} (h : ∀ x ∈ xs, f x ≤ g x) :
    (xs.map f).sum = (xs.map g).sum ↔ ∀ x ∈ xs, f x = g x := by
  have hle : ∀ ys : List α, (∀ x ∈ ys, f x ≤ g x) → (ys.map f).sum ≤ (ys.map g).sum := by
    intro ys hys
    induction ys with
    | nil => exact le_refl _
    | cons y ys ih =>
        rw [List.forall_mem_cons] at hys
        have hrest := ih hys.2
        simp only [List.map_cons, List.sum_cons]
        omega
  induction xs with
  | nil => simp
  | cons x xs ih =>
      rw [List.forall_mem_cons] at h
      have hrest := hle xs h.2
      have hhead := h.1
      have htail := ih h.2
      simp only [List.map_cons, List.sum_cons, List.forall_mem_cons]
      constructor
      · intro heq
        exact ⟨by omega, htail.mp (by omega)⟩
      · rintro ⟨hx, hxs⟩
        have htailEq := htail.mpr hxs
        omega

/-! ## Items and tickets -/

/-- Every ticket is of an item, and no item is for nothing. -/
structure Itemized (s : Store) : Prop where
  tickets : ∀ ticket ∈ s.db.tickets, ticket.orderItemId.isSome
  items : ∀ item ∈ s.db.orderItems, 0 < item.quantity

def Preparing : Pc → Prop
  | .create (.selected _ data) => ∀ d ∈ data, 0 < d.quantity
  | .create (.insertingItems _ items todo) =>
      (∀ item ∈ items, 0 < item.quantity) ∧ ∀ d ∈ todo, 0 < d.quantity
  | .create (.insertingTickets _ items tickets _) =>
      (∀ item ∈ items, 0 < item.quantity) ∧ ∀ ticket ∈ tickets, ticket.orderItemId.isSome
  | _ => True

theorem itemsData_pos {categories : List TicketCategory} {items : List OrderItemCreateSchema}
    {data : List ItemData} (h : itemsData categories items = some data) :
    ∀ d ∈ data, 0 < d.quantity := by
  intro d hd
  have hmem : (d.categoryId, d.quantity) ∈ data.map fun d => (d.categoryId, d.quantity) :=
    List.mem_map_of_mem hd
  rw [map_itemsData h] at hmem
  obtain ⟨item, -, heq⟩ := List.mem_map.mp hmem
  have hquantity : item.quantity.val = d.quantity := congrArg Prod.snd heq
  rw [← hquantity]
  exact item.quantity.property.1

theorem createStep_itemized {s : Store} {pc pc' : CreatePc} {a : Act} {eff : Effect Store Row}
    (hs : Itemized s) (hpc : Preparing (.create pc)) (h : CreateStep s pc a eff pc') :
    Itemized (eff.apply s) ∧ Preparing (.create pc') := by
  cases h with
  | accept _ hdata => exact ⟨hs, itemsData_pos hdata⟩
  | insertOrder => exact ⟨⟨hs.tickets, hs.items⟩, List.forall_mem_nil _, hpc⟩
  | @insertItems order items todo =>
      refine ⟨⟨hs.tickets, hs.items⟩, fun item hitem => ?_, fun d hd => ?_⟩
      · rcases List.mem_append.mp hitem with hold | hnew
        · exact hpc.1 item hold
        · obtain ⟨k, d, -, -, hd, rfl⟩ := mem_assignIds hnew
          exact hpc.2 d (List.mem_of_mem_take hd)
      · exact hpc.2 d (List.mem_of_mem_drop hd)
  | itemsDone => exact ⟨hs, hpc.1, List.forall_mem_nil _⟩
  | @insertTickets order items tickets todo =>
      refine ⟨⟨hs.tickets, hs.items⟩, hpc.1, fun ticket hticket => ?_⟩
      rcases List.mem_append.mp hticket with hold | hnew
      · exact hpc.2 ticket hold
      · obtain ⟨k, d, -, -, -, rfl⟩ := mem_assignIds hnew
        rfl
  | @commit order items tickets =>
      refine ⟨⟨fun ticket hticket => ?_, fun item hitem => ?_⟩, trivial⟩
      · exact (List.mem_append.mp hticket).elim (hs.tickets ticket) (hpc.2 ticket)
      · exact (List.mem_append.mp hitem).elim (hs.items item) (hpc.1 item)
  | _ => exact ⟨⟨hs.tickets, hs.items⟩, trivial⟩

theorem orderStep_itemized {ι : Type} {i : ι} {s : Store} {pc pc' : Pc} {a : Act}
    {eff : Effect Store Row} (hs : Itemized s) (hpc : Preparing pc)
    (h : orderStep i s pc a = some (eff, pc')) : Itemized (eff.apply s) ∧ Preparing pc' := by
  cases orderStep_cases h with
  | create hstep => exact createStep_itemized hs hpc hstep
  | confirm hstep =>
      cases hstep with
      | commit =>
          refine ⟨⟨fun ticket hticket => ?_, hs.items⟩, trivial⟩
          obtain ⟨old, hold, -, hitem⟩ := mem_payBooking _ hticket
          rw [← hitem]
          exact hs.tickets old hold
      | _ => exact ⟨⟨hs.tickets, hs.items⟩, trivial⟩
  | expire hstep =>
      cases hstep with
      | commit =>
          refine ⟨⟨fun ticket hticket => ?_, hs.items⟩, trivial⟩
          exact hs.tickets ticket (List.mem_filter.mp hticket).1
      | _ => exact ⟨⟨hs.tickets, hs.items⟩, trivial⟩
  | migrate hstep => cases hstep <;> exact ⟨⟨hs.tickets, hs.items⟩, trivial⟩
  | fire => exact ⟨⟨hs.tickets, hs.items⟩, trivial⟩

theorem itemized_run {ι : Type} [DecidableEq ι] {s : Store} (hs : Opening s) (calls : ι → Call)
    {w : World ι Store Row Pc}
    (h : Run orderStep anyStep (World.start s fun i => (calls i).pc) w) : Itemized w.shared := by
  refine (h.invariant (I := fun w => Itemized w.shared ∧ ∀ i, Preparing (w.pc i)) ?_ ?_).1
  · rintro v v' i a ⟨hv, hpc⟩ - hstep
    obtain ⟨eff, pc, hP, -, rfl⟩ := World.step_eq_some.mp hstep
    obtain ⟨hshared, hself⟩ := orderStep_itemized hv (hpc i) hP
    exact ⟨hshared, World.after_pc_forall (Q := fun _ => Preparing) hself fun j _ => hpc j⟩
  · refine ⟨⟨?_, ?_⟩, fun i => ?_⟩
    · rw [World.start_shared, hs.tickets]
      exact List.forall_mem_nil _
    · rw [World.start_shared, hs.items]
      exact List.forall_mem_nil _
    · rw [World.start_pc]
      cases calls i <;> trivial

/-! ## The counts -/

theorem ticketsFor_item {s : Store} (hs : Inv s) {item : OrderItem}
    (hitem : item ∈ s.db.orderItems) :
    ∃ order ∈ s.db.orders, order.id = item.orderId ∧
      (order.status = .cancelled ∧ ticketsFor s.db.tickets item = [] ∨
        order.status ≠ .cancelled ∧ (ticketsFor s.db.tickets item).length = item.quantity ∧
          ∀ ticket ∈ ticketsFor s.db.tickets item, ticket.categoryId = item.categoryId) := by
  obtain ⟨order, horder, hid⟩ := hs.tables.items_order item hitem
  have hmem : item ∈ itemsOf s.db order.id :=
    List.mem_filter.mpr ⟨hitem, decide_eq_true hid.symm⟩
  have hkept := hs.kept horder
  unfold Kept at hkept
  refine ⟨order, horder, hid, ?_⟩
  cases hstatus : order.status with
  | cancelled =>
      simp only [hstatus] at hkept
      exact .inl ⟨rfl, hkept item hmem⟩
  | pending =>
      simp only [hstatus] at hkept
      obtain ⟨hlength, hall⟩ := hkept item hmem
      exact .inr ⟨by decide, hlength, fun ticket hticket => (hall ticket hticket).2⟩
  | paid =>
      simp only [hstatus] at hkept
      obtain ⟨hlength, hall⟩ := hkept item hmem
      exact .inr ⟨by decide, hlength, fun ticket hticket => (hall ticket hticket).2⟩

theorem occupiedCount_eq_sum {s : Store} (hs : Inv s) (hitemized : Itemized s) (categoryId : Nat) :
    occupiedCount s.db categoryId =
      ((s.db.orderItems.filter fun item => item.categoryId = categoryId).map fun item =>
        (ticketsFor s.db.tickets item).length).sum := by
  have hkeys : ((s.db.orderItems.filter fun item => item.categoryId = categoryId).map
      fun item => some item.id).Nodup := by
    have hids := hs.tables.items_nodup.sublist
      ((List.filter_sublist (p := fun item : OrderItem => item.categoryId = categoryId)).map
        fun item : OrderItem => item.id)
    have hsome := hids.map (f := some) fun _ _ => Option.some.inj
    rwa [List.map_map] at hsome
  have hsum := sum_length_filter (fun ticket : Ticket => ticket.orderItemId) hkeys s.db.tickets
  rw [List.map_map] at hsum
  refine Eq.trans ?_ hsum.symm
  unfold occupiedCount
  congr 1
  refine List.filter_congr fun ticket hticket => ?_
  obtain ⟨itemId, hitemId⟩ := Option.isSome_iff_exists.mp (hitemized.tickets ticket hticket)
  obtain ⟨item, hitem, hid⟩ := hs.tables.tickets_item ticket hticket itemId hitemId
  have hmem : ticket ∈ ticketsFor s.db.tickets item :=
    List.mem_filter.mpr ⟨hticket, decide_eq_true (hitemId.trans (congrArg some hid.symm))⟩
  have hcategory : ticket.categoryId = item.categoryId := by
    obtain ⟨order, -, -, ⟨-, hnil⟩ | ⟨-, -, hall⟩⟩ := ticketsFor_item hs hitem
    · rw [hnil] at hmem
      cases hmem
    · exact hall ticket hmem
  rw [decide_eq_decide, hcategory, hitemId]
  constructor
  · intro hcat
    exact List.mem_map.mpr
      ⟨item, List.mem_filter.mpr ⟨hitem, decide_eq_true hcat⟩, congrArg some hid⟩
  · intro hkey
    obtain ⟨other, hother, hotherId⟩ := List.mem_map.mp hkey
    obtain ⟨hotherMem, hcat⟩ := List.mem_filter.mp hother
    have hsame : other = item :=
      List.inj_on_of_nodup_map hs.tables.items_nodup hotherMem hitem
        ((Option.some.inj hotherId).trans hid.symm)
    rw [← hsame]
    exact of_decide_eq_true hcat

/-- In every interleaving of the order service's calls, the attributes of a loaded
category agree with the expressions exactly when no cancelled order has an item
of it. -/
theorem counts_agree_iff {ι : Type} [DecidableEq ι] {s : Store} (hs : Opening s)
    (calls : ι → Call) {w : World ι Store Row Pc}
    (h : Run orderStep anyStep (World.start s fun i => (calls i).pc) w)
    (category : TicketCategory) :
    CountsAgree w.shared.db category ↔
      ∀ order ∈ w.shared.db.orders, order.status = .cancelled →
        ∀ item ∈ itemsOf w.shared.db order.id, item.categoryId ≠ category.id := by
  have hinv := (outline_valid hs calls h).inv
  have hitemized := itemized_run hs calls h
  have hle : ∀ item ∈ w.shared.db.orderItems.filter fun item => item.categoryId = category.id,
      (ticketsFor w.shared.db.tickets item).length ≤ item.quantity := by
    intro item hitem
    obtain ⟨order, -, -, ⟨-, hnil⟩ | ⟨-, hlength, -⟩⟩ :=
      ticketsFor_item hinv (List.mem_filter.mp hitem).1
    · simp [hnil]
    · exact hlength.le
  rw [countsAgree_iff, occupiedCount_eq_sum hinv hitemized]
  refine eq_comm.trans ((sum_eq_iff_of_le hle).trans ⟨?_, ?_⟩)
  · intro hall order horder hcancelled item hitem hcategory
    obtain ⟨hmem, hid⟩ := List.mem_filter.mp hitem
    have hlength := hall item (List.mem_filter.mpr ⟨hmem, decide_eq_true hcategory⟩)
    have hnil : ticketsFor w.shared.db.tickets item = [] := by
      have hkept := hinv.kept horder
      unfold Kept at hkept
      rw [hcancelled] at hkept
      exact hkept item hitem
    have hpos := hitemized.items item hmem
    rw [hnil, List.length_nil] at hlength
    omega
  · intro hnone item hitem
    obtain ⟨hmem, hcategory⟩ := List.mem_filter.mp hitem
    obtain ⟨order, horder, hid, ⟨hcancelled, -⟩ | ⟨-, hlength, -⟩⟩ := ticketsFor_item hinv hmem
    · refine absurd (of_decide_eq_true hcategory) (hnone order horder hcancelled item ?_)
      exact List.mem_filter.mpr ⟨hmem, decide_eq_true hid.symm⟩
    · exact hlength

def bookAndExpire : Bool → Call
  | false => .create onePlace
  | true => .expireOrder 1

theorem counts_agree_parterre :
    ∃ w : World Bool Store Row Pc,
      Run orderStep anyStep (World.start hall fun i => (bookAndExpire i).pc) w ∧
        w.shared.db.tickets = [⟨1, 1, some 1, .reserved⟩] ∧
        CountsAgree w.shared.db parterre := by
  have hsome : ((World.start hall fun i => (bookAndExpire i).pc).steps orderStep
      (bookOnePlace false)).isSome := by
    decide
  obtain ⟨w, hw⟩ := Option.isSome_iff_exists.mp hsome
  have hrows : ((World.start hall fun i => (bookAndExpire i).pc).steps orderStep
      (bookOnePlace false)).map (fun w => (w.shared.db.orders, w.shared.db.tickets)) =
        some ([⟨1, none, some "guest@example.com", .pending⟩], [⟨1, 1, some 1, .reserved⟩]) := by
    decide
  rw [hw, Option.map_some, Option.some.injEq, Prod.mk.injEq] at hrows
  have hrun : Run orderStep anyStep (World.start hall fun i => (bookAndExpire i).pc) w :=
    Run.of_steps hw
  have hopening : Opening hall := ⟨rfl, rfl, rfl, fun _ => rfl⟩
  refine ⟨w, hrun, hrows.2, (counts_agree_iff hopening bookAndExpire hrun parterre).mpr ?_⟩
  intro order horder hcancelled
  rw [hrows.1, List.mem_singleton] at horder
  subst horder
  cases hcancelled

/-- After the expiry the item is still counted, and its ticket is not. -/
theorem counts_differ_after_expiry :
    ∃ w : World Bool Store Row Pc,
      Run orderStep anyStep (World.start hall fun i => (bookAndExpire i).pc) w ∧
        parterre ∈ w.shared.db.ticketCategories ∧ ¬ CountsAgree w.shared.db parterre := by
  let acts : List (Bool × Act) := bookOnePlace false ++ [(true, .run), (true, .run), (true, .run)]
  have hsome : ((World.start hall fun i => (bookAndExpire i).pc).steps orderStep acts).isSome := by
    decide
  obtain ⟨w, hw⟩ := Option.isSome_iff_exists.mp hsome
  have hcounts : ((World.start hall fun i => (bookAndExpire i).pc).steps orderStep acts).map
      (fun w => (w.shared.db.ticketCategories,
        (loadedWithItems w.shared.db parterre).occupiedCount,
        occupiedCount w.shared.db parterre.id)) = some ([parterre], 1, 0) := by
    decide
  rw [hw, Option.map_some, Option.some.injEq, Prod.mk.injEq, Prod.mk.injEq] at hcounts
  obtain ⟨hcategories, hattribute, hexpression⟩ := hcounts
  refine ⟨w, Run.of_steps hw, ?_, fun h => ?_⟩
  · rw [hcategories]
    exact List.mem_singleton_self _
  · have hsame := h.occupied
    rw [hattribute, hexpression] at hsame
    cases hsame

end TicketBooking.Order.Counts
