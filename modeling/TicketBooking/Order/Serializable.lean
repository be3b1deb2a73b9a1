import TicketBooking.Library.Linearization
import TicketBooking.Order.Transactions
/-!
# Concurrent bookings and their serial order

Calls of `OrderService.create` that run at the same time are compared with the
same calls made one after another.  A call that is refused is decided by the
snapshot of its SELECT, a call that succeeds by its commit; in between it holds
the row locks of every category it takes tickets of.
-/

namespace TicketBooking.Order.Serializable

open TicketBooking.App.Exceptions
open TicketBooking.Database.Shared TicketBooking.Database.Tables
open TicketBooking.Library TicketBooking.Library.Sessions
open TicketBooking.Order.Booking TicketBooking.Order.Transactions

inductive Verdict
  | placed
  | refused (e : AppException)
  deriving DecidableEq

def verdict : Except AppException (Order × List OrderItem) → Verdict
  | .ok _ => .placed
  | .error e => .refused e

/-- How a call ended: a committed order stands, whatever was raised afterwards. -/
def outcome (committed : Option Nat) (result : Except AppException (Order × List OrderItem)) :
    Verdict :=
  match committed with
  | some _ => .placed
  | none => verdict result

def serialCall {ι : Type} (calls : ι → CreateCall) (s : Store) (i : ι) : Verdict × Store :=
  let answer := createTransaction s (calls i) (selectedCategories s.db (calls i).data.items)
  (verdict answer.1, answer.2)

/-- Evaluated now, the SELECT returns every requested category. -/
def Available (db : Db) (call : CreateCall) : Prop :=
  ∀ item ∈ call.data.items, ∃ cat ∈ selectedCategories db call.data.items,
    cat.id = item.categoryId.val

instance (db : Db) (call : CreateCall) : Decidable (Available db call) :=
  inferInstanceAs (Decidable (∀ item ∈ call.data.items,
    ∃ cat ∈ selectedCategories db call.data.items, cat.id = item.categoryId.val))

/-! ## The answer of the SELECT -/

def wanted (call : CreateCall) : List (Nat × Nat) :=
  call.data.items.map fun item => (item.categoryId.val, item.quantity.val)

/-- Why the rows the SELECT returned do not do, if they do not. -/
def refusal (categories : List TicketCategory) (items : List OrderItemCreateSchema) :
    Option AppException :=
  match missingItem categories items with
  | some item => some (noTickets item)
  | none => if (itemsData categories items).isSome then none else some (.other "KeyError")

/-- The order in which the rows come back does not matter. -/
theorem refusal_perm {categories categories' : List TicketCategory}
    (h : categories.Perm categories') (items : List OrderItemCreateSchema) :
    refusal categories items = refusal categories' items := by
  have hmap : ∀ id,
      (categoriesMap categories id).isSome = (categoriesMap categories' id).isSome := by
    intro id
    rw [Bool.eq_iff_iff, categoriesMap_isSome, categoriesMap_isSome]
    simp only [h.mem_iff]
  have hnone : ∀ id,
      (categoriesMap categories id).isNone = (categoriesMap categories' id).isNone := by
    intro id
    rw [← Option.not_isSome, ← Option.not_isSome, hmap]
  have hdata : (itemsData categories items).isSome = (itemsData categories' items).isSome := by
    rw [Bool.eq_iff_iff, itemsData_isSome, itemsData_isSome]
    simp only [hmap]
  unfold refusal missingItem
  simp only [h.length_eq, hnone, hdata]

theorem refusal_of_available {db : Db} {call : CreateCall} (h : Available db call) :
    refusal (selectedCategories db call.data.items) call.data.items = none := by
  have hsome : ∀ item ∈ call.data.items,
      (categoriesMap (selectedCategories db call.data.items) item.categoryId.val).isSome :=
    fun item hitem => categoriesMap_isSome.mpr (h item hitem)
  have hmissing : missingItem (selectedCategories db call.data.items) call.data.items = none := by
    unfold missingItem
    split_ifs
    · rw [List.find?_eq_none]
      intro item hitem
      rw [← Option.not_isSome, hsome item hitem]
      decide
    · rfl
  unfold refusal
  rw [hmissing]
  exact if_pos (itemsData_isSome.mpr hsome)

/-! ## Taken places -/

def places (wanted : List (Nat × Nat)) : List Nat :=
  wanted.flatMap fun w => List.replicate w.2 w.1

theorem map_fst_ticketsToInsert (items : List OrderItem) :
    (ticketsToInsert items).map Prod.fst =
      places (items.map fun item => (item.categoryId, item.quantity)) := by
  unfold ticketsToInsert places
  rw [List.map_flatMap, List.flatMap_map]
  simp only [List.map_replicate]

theorem occupiedCount_insertBooking (order : Order) (items : List OrderItem)
    (tickets : List Ticket) (db : Db) (id : Nat) :
    occupiedCount (insertBooking order items tickets db) id =
      occupiedCount db id + (tickets.map fun ticket => ticket.categoryId).count id := by
  unfold occupiedCount insertBooking
  rw [List.filter_append, List.length_append, ← List.countP_eq_length_filter (l := tickets),
    List.count, List.countP_map]
  congr 2

theorem mem_places {wanted : List (Nat × Nat)} {id : Nat} (h : id ∈ places wanted) :
    ∃ w ∈ wanted, w.1 = id := by
  obtain ⟨w, hw, hid⟩ := List.mem_flatMap.mp h
  exact ⟨w, hw, (List.eq_of_mem_replicate hid).symm⟩

/-- The SELECT only looks at the stock of the requested categories. -/
theorem selectedCategories_congr {db db' : Db} {call : CreateCall}
    (hcategories : db'.ticketCategories = db.ticketCategories)
    (hoccupied : ∀ item ∈ call.data.items,
      occupiedCount db' item.categoryId.val = occupiedCount db item.categoryId.val) :
    selectedCategories db' call.data.items = selectedCategories db call.data.items := by
  unfold selectedCategories
  rw [hcategories]
  refine List.filter_congr fun cat _ => ?_
  unfold selectable
  by_cases hmem : cat.id ∈ categoryIds call.data.items
  · obtain ⟨item, hitem, hid⟩ := List.mem_map.mp (List.mem_dedup.mp hmem)
    have hsame : availableQuantity db' cat = availableQuantity db cat := by
      unfold availableQuantity
      rw [← hid, hoccupied item hitem]
    unfold caseId
    rw [hsame]
  · simp [hmem]

/-! ## A call that runs alone -/

/-- The users, the categories and the stock are the same. -/
structure Matches (s t : Store) : Prop where
  users : t.db.users = s.db.users
  categories : t.db.ticketCategories = s.db.ticketCategories
  occupied : ∀ id, occupiedCount t.db id = occupiedCount s.db id

theorem Matches.of_db {s s' t : Store} (h : Matches s t) (hdb : s'.db = s.db) : Matches s' t := by
  refine ⟨?_, ?_, fun id => ?_⟩
  · rw [hdb, h.users]
  · rw [hdb, h.categories]
  · rw [hdb, h.occupied]

/-- The serial run's SELECT sees what the concurrent one's does. -/
theorem Matches.selected {s t : Store} (h : Matches s t) (call : CreateCall) :
    selectedCategories t.db call.data.items = selectedCategories s.db call.data.items :=
  selectedCategories_congr h.categories fun _ _ => h.occupied _

theorem Matches.userExists {s t : Store} (h : Matches s t) (userId : Option Nat) :
    userExists t.db userId = userExists s.db userId := by
  unfold TicketBooking.Order.Booking.userExists
  rw [h.users]

section Serial

variable {ι : Type} {calls : ι → CreateCall} {t : Store} {i : ι}

theorem serialCall_refuseOwner (h : ¬ ownerGiven (calls i)) :
    serialCall calls t i = (.refused ownerError, t) := by
  unfold serialCall createTransaction
  simp [h, verdict]

theorem serialCall_refuse (howner : ownerGiven (calls i)) {e : AppException}
    (h : refusal (selectedCategories t.db (calls i).data.items) (calls i).data.items = some e) :
    serialCall calls t i = (.refused e, t) := by
  unfold refusal at h
  unfold serialCall createTransaction
  cases hmissing : missingItem (selectedCategories t.db (calls i).data.items)
      (calls i).data.items with
  | some item =>
      simp only [hmissing, Option.some.injEq] at h
      simp [howner, verdict, h]
  | none =>
      simp only [hmissing] at h
      split_ifs at h with hdata
      rw [Option.not_isSome_iff_eq_none] at hdata
      simp only [Option.some.injEq] at h
      simp [howner, hdata, verdict, h]

theorem itemsData_of_refusal_none {categories : List TicketCategory}
    {items : List OrderItemCreateSchema} (h : refusal categories items = none) :
    missingItem categories items = none ∧ ∃ data, itemsData categories items = some data := by
  unfold refusal at h
  cases hmissing : missingItem categories items with
  | some item => simp [hmissing] at h
  | none =>
      simp only [hmissing] at h
      split_ifs at h with hdata
      exact ⟨rfl, Option.isSome_iff_exists.mp hdata⟩

theorem serialCall_refuseUser (howner : ownerGiven (calls i))
    (h : refusal (selectedCategories t.db (calls i).data.items) (calls i).data.items = none)
    (huser : ¬ userExists t.db (calls i).userId) :
    serialCall calls t i = (.refused (.databaseError .foreignKeyViolation), t) := by
  obtain ⟨hmissing, data, hdata⟩ := itemsData_of_refusal_none h
  unfold serialCall createTransaction
  simp [howner, hmissing, hdata, huser, verdict]

theorem serialCall_place (howner : ownerGiven (calls i))
    (h : refusal (selectedCategories t.db (calls i).data.items) (calls i).data.items = none)
    (huser : userExists t.db (calls i).userId) :
    (serialCall calls t i).1 = .placed ∧
      (serialCall calls t i).2.db.users = t.db.users ∧
      (serialCall calls t i).2.db.ticketCategories = t.db.ticketCategories ∧
      ∀ id, occupiedCount (serialCall calls t i).2.db id =
        occupiedCount t.db id + (places (wanted (calls i))).count id := by
  obtain ⟨hmissing, data, hdata⟩ := itemsData_of_refusal_none h
  have hitems : ∀ orderId next, (assignIds (newItem orderId) next data).map
      (fun item => (item.categoryId, item.quantity)) = wanted (calls i) := by
    intro orderId next
    rw [map_assignIds (g := fun d : ItemData => (d.categoryId, d.quantity)) (fun _ _ => rfl),
      map_itemsData hdata]
    rfl
  have htickets : ∀ next next' orderId, (assignIds newTicket next
      (ticketsToInsert (assignIds (newItem orderId) next' data))).map
        (fun ticket => ticket.categoryId) = places (wanted (calls i)) := by
    intro next next' orderId
    rw [map_assignIds (f := fun ticket : Ticket => ticket.categoryId) (g := Prod.fst)
      (fun _ _ => rfl), map_fst_ticketsToInsert, hitems]
  unfold serialCall createTransaction
  simp only [howner, hmissing, hdata, huser, Bool.not_true, Bool.false_eq_true, if_false]
  refine ⟨rfl, rfl, rfl, fun id => ?_⟩
  rw [occupiedCount_insertBooking, htickets]

end Serial

/-! ## What a session holds -/

/-- The session has the row lock of every requested category, and the requested
quantities are available. -/
structure Secured (s : Store) (rows : Set Row) (call : CreateCall) : Prop where
  owner : ownerGiven call
  locked : ∀ item ∈ call.data.items, Row.ticketCategory item.categoryId.val ∈ rows
  available : Available s.db call

def At {ι : Type} (calls : ι → CreateCall) (i : ι) (s : Store) (rows : Set Row) : Pc → Prop
  | .create (.start call) => call = calls i
  | .create (.locking call categories todo) =>
      call = calls i ∧ ownerGiven call ∧
        ∀ cat ∈ categories, cat.id ∈ todo ∨ Row.ticketCategory cat.id ∈ rows
  | .create (.selected call data) =>
      call = calls i ∧ Secured s rows call ∧
        data.map (fun d => (d.categoryId, d.quantity)) = wanted call
  | .create (.insertingItems _ items todo) =>
      Secured s rows (calls i) ∧ userExists s.db (calls i).userId ∧
        items.map (fun item => (item.categoryId, item.quantity)) ++
          todo.map (fun d => (d.categoryId, d.quantity)) = wanted (calls i)
  | .create (.insertingTickets _ _ tickets todo) =>
      Secured s rows (calls i) ∧ userExists s.db (calls i).userId ∧
        tickets.map (fun ticket => ticket.categoryId) ++ todo.map Prod.fst =
          places (wanted (calls i))
  | .create _ => True
  | _ => False

/-- The statement fails before the commit of its call. -/
def failing : Pc → Act → Bool
  | .create (.committed _ _), _ => false
  | _, .fail => true
  | _, _ => false

/-- The call whose SELECT returns with all row locks held, and what it returns. -/
def returning : Pc → Option (CreateCall × List TicketCategory)
  | .create (.locking call categories []) => some (call, categories)
  | _ => none

/-- No statement fails before the commit of its call, and a SELECT that found
every requested category would still find them when it returns. -/
def StillAvailable {ι : Type} (w : World ι Store Row Pc) (i : ι) (a : Act) : Prop :=
  failing (w.pc i) a = false ∧ ∀ select ∈ returning (w.pc i),
    missingItem select.2 select.1.data.items = none → Available w.shared.db select.1

instance {ι : Type} (w : World ι Store Row Pc) (i : ι) (a : Act) :
    Decidable (StillAvailable w i a) :=
  inferInstanceAs (Decidable (failing (w.pc i) a = false ∧ ∀ select ∈ returning (w.pc i),
    missingItem select.2 select.1.data.items = none → Available w.shared.db select.1))

/-- What a statement of `create` changes: the tickets of categories it has locked. -/
structure Confined (s s' : Store) (rows : Set Row) : Prop where
  users : s'.db.users = s.db.users
  categories : s'.db.ticketCategories = s.db.ticketCategories
  occupied : ∀ id, Row.ticketCategory id ∉ rows → occupiedCount s'.db id = occupiedCount s.db id

theorem Confined.of_db {s s' : Store} {rows : Set Row} (hdb : s'.db = s.db) :
    Confined s s' rows := by
  refine ⟨?_, ?_, fun id _ => ?_⟩
  all_goals rw [hdb]

theorem Secured.stable {s s' : Store} {rows rows' : Set Row} {call : CreateCall}
    (h : Secured s rows' call) (hstep : Confined s s' rows)
    (hdisjoint : ∀ row, row ∈ rows' → row ∉ rows) : Secured s' rows' call := by
  refine ⟨h.owner, h.locked, ?_⟩
  have hsame : selectedCategories s'.db call.data.items = selectedCategories s.db call.data.items :=
    selectedCategories_congr hstep.categories fun item hitem =>
      hstep.occupied _ (hdisjoint _ (h.locked item hitem))
  unfold Available
  rw [hsame]
  exact h.available

/-- Advancing a sequence changes no table. -/
theorem Secured.of_db {s s' : Store} {rows : Set Row} {call : CreateCall} (h : Secured s rows call)
    (hdb : s'.db = s.db) : Secured s' rows call := by
  refine ⟨h.owner, h.locked, ?_⟩
  rw [hdb]
  exact h.available

theorem Matches.refusal_none {s t : Store} {rows : Set Row} {call : CreateCall} (h : Matches s t)
    (hsecured : Secured s rows call) :
    refusal (selectedCategories t.db call.data.items) call.data.items = none := by
  rw [h.selected]
  exact refusal_of_available hsecured.available

theorem At.stable {ι : Type} {calls : ι → CreateCall} {i : ι} {s s' : Store} {rows rows' : Set Row}
    {pc : Pc} (hat : At calls i s rows' pc) (hstep : Confined s s' rows)
    (hdisjoint : ∀ row, row ∈ rows' → row ∉ rows) : At calls i s' rows' pc := by
  have huser : ∀ userId, userExists s.db userId → userExists s'.db userId := by
    intro userId h
    unfold userExists at h ⊢
    rw [hstep.users]
    exact h
  cases pc with
  | create c =>
      cases c with
      | start call => exact hat
      | locking call categories todo => exact hat
      | selected call data => exact ⟨hat.1, hat.2.1.stable hstep hdisjoint, hat.2.2⟩
      | insertingItems order items todo =>
          exact ⟨hat.1.stable hstep hdisjoint, huser _ hat.2.1, hat.2.2⟩
      | insertingTickets order items tickets todo =>
          exact ⟨hat.1.stable hstep hdisjoint, huser _ hat.2.1, hat.2.2⟩
      | committed order items => trivial
      | finished committed result => trivial
  | _ => exact hat

/-! ## One statement -/

section Step

variable {ι : Type} {calls : ι → CreateCall} {i : ι} {s : Store} {rows : Set Row} {a : Act}
  {pc pc' : CreatePc} {eff : Effect Store Row}

theorem locked_of_accept {call : CreateCall} {categories : List TicketCategory}
    {data : List ItemData} (hdata : itemsData categories call.data.items = some data)
    (hlocked : ∀ cat ∈ categories, cat.id ∈ ([] : List Nat) ∨ Row.ticketCategory cat.id ∈ rows) :
    ∀ item ∈ call.data.items, Row.ticketCategory item.categoryId.val ∈ rows := by
  intro item hitem
  have hsome : (itemsData categories call.data.items).isSome := by
    rw [hdata]
    rfl
  obtain ⟨cat, hcat, hid⟩ := categoriesMap_isSome.mp (itemsData_isSome.mp hsome item hitem)
  rw [← hid]
  exact (hlocked cat hcat).resolve_left List.not_mem_nil

/-- A commit writes tickets of locked categories only. -/
theorem confined_commit {order : Order} {items : List OrderItem} {tickets : List Ticket}
    {call : CreateCall} (hsecured : Secured s rows call)
    (htickets : tickets.map (fun ticket => ticket.categoryId) = places (wanted call)) :
    Confined s (s.withDb (insertBooking order items tickets)) rows := by
  refine ⟨rfl, rfl, fun id hid => ?_⟩
  have hzero : (places (wanted call)).count id = 0 := by
    rw [List.count_eq_zero]
    intro hmem
    obtain ⟨w, hw, rfl⟩ := mem_places hmem
    obtain ⟨item, hitem, rfl⟩ := List.mem_map.mp hw
    exact hid (hsecured.locked item hitem)
  rw [Store.withDb_db, occupiedCount_insertBooking, htickets, hzero, Nat.add_zero]

theorem createStep_confined (hat : At calls i s rows (.create pc)) (h : CreateStep s pc a eff pc') :
    Confined s (eff.apply s) rows := by
  cases h with
  | commit =>
      obtain ⟨hsecured, -, htickets⟩ := hat
      rw [List.map_nil, List.append_nil] at htickets
      exact confined_commit hsecured htickets
  | _ => exact .of_db rfl

theorem createStep_at (hat : At calls i s rows (.create pc)) (h : CreateStep s pc a eff pc')
    (hok : ∀ call categories, pc = .locking call categories [] →
      missingItem categories call.data.items = none → Available s.db call) :
    At calls i (eff.apply s) (eff.held rows) (.create pc') := by
  cases h with
  | select howner hperm =>
      refine ⟨hat, howner, fun cat hcat => ?_⟩
      exact .inl (List.mem_map_of_mem hcat)
  | @lock call categories id todo =>
      refine ⟨hat.1, hat.2.1, fun cat hcat => ?_⟩
      rcases hat.2.2 cat hcat with h | h
      · rcases List.mem_cons.mp h with rfl | h
        · exact .inr (Set.mem_insert _ _)
        · exact .inl h
      · exact .inr (Set.mem_insert_of_mem _ h)
  | accept hmissing hdata =>
      exact ⟨hat.1, ⟨hat.2.1, locked_of_accept hdata hat.2.2, hok _ _ rfl hmissing⟩,
        map_itemsData hdata⟩
  | insertOrder huser =>
      obtain ⟨rfl, hsecured, hdata⟩ := hat
      exact ⟨hsecured.of_db rfl, huser, hdata⟩
  | @insertItems order items todo =>
      obtain ⟨hsecured, huser, hitems⟩ := hat
      refine ⟨hsecured.of_db rfl, huser, ?_⟩
      rw [List.map_append, map_assignIds (g := fun d : ItemData => (d.categoryId, d.quantity))
        (fun _ _ => rfl), List.append_assoc, ← List.map_append, List.take_append_drop]
      exact hitems
  | itemsDone =>
      obtain ⟨hsecured, huser, hitems⟩ := hat
      refine ⟨hsecured, huser, ?_⟩
      rw [List.map_nil, List.append_nil] at hitems
      rw [List.map_nil, List.nil_append, map_fst_ticketsToInsert, hitems]
  | @insertTickets order items tickets todo =>
      obtain ⟨hsecured, huser, htickets⟩ := hat
      refine ⟨hsecured.of_db rfl, huser, ?_⟩
      rw [List.map_append, map_assignIds (f := fun ticket : Ticket => ticket.categoryId)
        (g := Prod.fst) (fun _ _ => rfl), List.append_assoc, ← List.map_append,
        List.take_append_drop]
      exact htickets
  | _ => trivial

end Step

/-! ## The serial order -/

def decision : CreatePc → Option Verdict
  | .locking call categories _ => (refusal categories call.data.items).map .refused
  | .committed _ _ => some .placed
  | .finished committed result => some (outcome committed result)
  | _ => none

def decided : Pc → Option Verdict
  | .create pc => decision pc
  | _ => none

def outline {ι : Type} (calls : ι → CreateCall) : Outline ι Store Row Pc where
  inv _ := True
  at_ i s rows pc := At calls i s rows pc
  apart _ _ := True

section Run

variable {ι : Type} {calls : ι → CreateCall}

theorem At.create_pc {i : ι} {s : Store} {rows : Set Row} {pc : Pc} (h : At calls i s rows pc) :
    ∃ c, pc = .create c := by
  cases pc with
  | create c => exact ⟨c, rfl⟩
  | _ => exact absurd h (by simp [At])

theorem create_of_step {w : World ι Store Row Pc} {i : ι} {a : Act} {eff : Effect Store Row}
    {pc : Pc} (hat : At calls i w.shared (w.held i) (w.pc i))
    (h : orderStep i w.shared (w.pc i) a = some (eff, pc)) :
    ∃ c c', w.pc i = .create c ∧ pc = .create c' ∧ CreateStep w.shared c a eff c' := by
  obtain ⟨c, hc⟩ := hat.create_pc
  rw [hc] at h
  cases orderStep_cases h with
  | create hstep => exact ⟨c, _, hc, rfl, hstep⟩

theorem StillAvailable.fail {w : World ι Store Row Pc} {i : ι} {c : CreatePc}
    (h : StillAvailable w i .fail) (hc : w.pc i = .create c) :
    ∃ order items, c = .committed order items := by
  have hfailing := h.1
  rw [hc] at hfailing
  cases c with
  | committed order items => exact ⟨order, items, rfl⟩
  | _ => cases hfailing

theorem StillAvailable.select {w : World ι Store Row Pc} {i : ι} {a : Act} {call : CreateCall}
    {categories : List TicketCategory} (h : StillAvailable w i a)
    (hc : w.pc i = .create (.locking call categories []))
    (hmissing : missingItem categories call.data.items = none) : Available w.shared.db call :=
  h.2 (call, categories) (by rw [hc]; rfl) hmissing

theorem outline_sound : (outline calls).Sound orderStep StillAvailable where
  own w i a eff pc hw hok hstep _ := by
    have hat : At calls i w.shared (w.held i) (w.pc i) := hw.at_ i
    obtain ⟨c, c', hc, rfl, hcreate⟩ := create_of_step hat hstep
    rw [hc] at hat
    refine ⟨trivial, createStep_at hat hcreate fun call categories hlocking hmissing => ?_⟩
    rw [hlocking] at hc
    exact hok.select hc hmissing
  frame w i j a eff pc hw _ hstep _ hji := by
    have hat : At calls i w.shared (w.held i) (w.pc i) := hw.at_ i
    obtain ⟨c, c', hc, rfl, hcreate⟩ := create_of_step hat hstep
    rw [hc] at hat
    have hconfined := createStep_confined hat hcreate
    refine ⟨At.stable (hw.at_ j) hconfined fun row hj hi => ?_, trivial, trivial⟩
    exact hji (w.held_disjoint hj hi)

theorem create_linear : Linear (outline calls) orderStep StillAvailable (serialCall calls)
    (fun _ => decided) Matches := by
  intro w i a eff pc t hw hok hstep ht
  have hat : At calls i w.shared (w.held i) (w.pc i) := hw.at_ i
  obtain ⟨c, c', hc, rfl, hcreate⟩ := create_of_step hat hstep
  rw [hc] at hat ⊢
  cases hcreate with
  | refuseOwner howner =>
      subst hat
      right
      rw [serialCall_refuseOwner howner]
      exact ⟨rfl, rfl, ht⟩
  | @select call categories howner hperm =>
      subst hat
      have hrefusal : refusal categories (calls i).data.items =
          refusal (selectedCategories t.db (calls i).data.items) (calls i).data.items := by
        rw [ht.selected]
        exact refusal_perm (List.isPerm_iff.mp hperm) _
      cases he : refusal categories (calls i).data.items with
      | none =>
          left
          exact ⟨by simp [decided, decision, he], ht⟩
      | some e =>
          right
          rw [serialCall_refuse howner (hrefusal.symm.trans he)]
          exact ⟨rfl, by simp [decided, decision, he], ht⟩
  | lock => exact .inl ⟨rfl, ht⟩
  | refuseItem hmissing =>
      exact .inl ⟨by simp [decided, decision, outcome, verdict, refusal, hmissing], ht⟩
  | keyError hmissing hdata =>
      exact .inl ⟨by simp [decided, decision, outcome, verdict, refusal, hmissing, hdata], ht⟩
  | accept hmissing hdata =>
      exact .inl ⟨by simp [decided, decision, refusal, hmissing, hdata], ht⟩
  | refuseUser huser =>
      obtain ⟨rfl, hsecured, -⟩ := hat
      right
      rw [serialCall_refuseUser hsecured.owner (ht.refusal_none hsecured)
        (by rw [ht.userExists]; exact huser)]
      exact ⟨rfl, rfl, ht⟩
  | insertOrder huser => exact .inl ⟨rfl, ht.of_db rfl⟩
  | insertItems => exact .inl ⟨rfl, ht.of_db rfl⟩
  | itemsDone => exact .inl ⟨rfl, ht⟩
  | insertTickets => exact .inl ⟨rfl, ht.of_db rfl⟩
  | commit =>
      obtain ⟨hsecured, huser, htickets⟩ := hat
      rw [List.map_nil, List.append_nil] at htickets
      obtain ⟨hplaced, husers, hcategories, hoccupied⟩ :=
        serialCall_place hsecured.owner (ht.refusal_none hsecured)
          (by rw [ht.userExists]; exact huser)
      right
      refine ⟨rfl, congrArg some hplaced.symm, ⟨?_, ?_, fun id => ?_⟩⟩
      · rw [husers, ht.users]
        rfl
      · rw [hcategories, ht.categories]
        rfl
      · rw [hoccupied, ht.occupied, Effect.apply_commit, Store.withDb_db,
          occupiedCount_insertBooking, htickets]
  | schedule => exact .inl ⟨rfl, ht.of_db rfl⟩
  | scheduleFails => exact .inl ⟨rfl, ht⟩
  | fails hcommitted =>
      obtain ⟨order, items, rfl⟩ := hok.fail hc
      exact absurd rfl (hcommitted order items)

end Run

def Ended : Pc → Prop
  | .create (.finished _ _) => True
  | _ => False

instance (pc : Pc) : Decidable (Ended pc) := by
  unfold Ended
  split <;> infer_instance

theorem Ended.decided {pc : Pc} (h : Ended pc) : (decided pc).isSome := by
  unfold Ended at h
  split at h
  · rfl
  · exact h.elim

/-- Made one after another in the order `log`, the calls that ended in `w` end
the same way and leave the same number of tickets in every category. -/
structure SerialOrder {ι : Type} (s : Store) (calls : ι → CreateCall) (w : World ι Store Row Pc)
    (log : List ι) : Prop where
  nodup : log.Nodup
  mem : ∀ i, i ∈ log ↔ Ended (w.pc i)
  outcomes : ∀ i committed result, w.pc i = .create (.finished committed result) →
    (i, outcome committed result) ∈ (serially (serialCall calls) s log).1
  occupied : ∀ id, occupiedCount w.shared.db id =
    occupiedCount (serially (serialCall calls) s log).2.db id

/-- When no SELECT that found all its categories has become stale by the time it
returns, and no statement fails before its commit, concurrent calls have a
serial order as soon as none of them is under way. -/
theorem create_serializable {ι : Type} [DecidableEq ι] (s : Store) (calls : ι → CreateCall)
    {w : World ι Store Row Pc}
    (h : Run orderStep StillAvailable (World.start s fun i => (Call.create (calls i)).pc) w)
    (hquiescent : ∀ i, w.pc i = (Call.create (calls i)).pc ∨ Ended (w.pc i)) :
    ∃ log, SerialOrder s calls w log := by
  have hvalid : (outline calls).Valid (World.start s fun i => (Call.create (calls i)).pc) :=
    ⟨trivial, fun _ => rfl, fun _ _ _ => trivial⟩
  have hmatches : Matches s s := ⟨rfl, rfl, fun _ => rfl⟩
  obtain ⟨log, hlog⟩ := h.linearized outline_sound create_linear hvalid (fun _ => rfl) hmatches
  refine ⟨log, hlog.nodup, fun i => ?_, fun i committed result hpc => ?_, fun id => ?_⟩
  · rw [hlog.mem i]
    constructor
    · intro hsome
      refine (hquiescent i).resolve_left fun hstart => ?_
      rw [hstart] at hsome
      cases hsome
    · exact Ended.decided
  · refine hlog.result i _ ?_
    rw [hpc]
    rfl
  · exact (hlog.state.occupied id).symm

def bothPlaces : CreateCall :=
  ⟨⟨some "guest@example.com", [⟨one, two⟩], by decide⟩, none⟩

def race : World Bool Store Row Pc :=
  World.start hall fun _ => (Call.create bothPlaces).pc

def afterSnapshot (i : Bool) : List (Bool × Act) :=
  List.replicate 7 (i, .run) ++ [(i, .perform 5 5)]

/-- One after another, the second guest is refused. -/
theorem create_serializable_hall :
    ∃ w, Run orderStep StillAvailable race w ∧
      ∃ log, SerialOrder hall (fun _ => bothPlaces) w log := by
  let acts : List (Bool × Act) := (false, .select [parterre]) :: afterSnapshot false ++
    [(true, .select []), (true, .run)]
  have hrun : (race.guardedSteps orderStep StillAvailable acts).map
      (fun w => (decide (Ended (w.pc false)), decide (Ended (w.pc true)))) = some (true, true) := by
    decide
  obtain ⟨w, hw, heq⟩ := Option.map_eq_some_iff.mp hrun
  simp only [Prod.mk.injEq, decide_eq_true_eq] at heq
  have hr : Run orderStep StillAvailable race w := Run.of_guardedSteps hw
  have hended : ∀ i, Ended (w.pc i) := Bool.forall_bool.mpr heq
  exact ⟨w, hr, create_serializable hall (fun _ => bothPlaces) hr fun i => .inr (hended i)⟩

/-- Two SELECTs on the same snapshot: both guests get both places. -/
theorem create_oversells :
    ∃ w, Run orderStep anyStep race w ∧ (∀ i, Ended (w.pc i)) ∧
      ¬ ∃ log, SerialOrder hall (fun _ => bothPlaces) w log := by
  let acts : List (Bool × Act) := (false, .select [parterre]) :: (true, .select [parterre]) ::
    afterSnapshot false ++ afterSnapshot true
  have hrun : (race.steps orderStep acts).map
      (fun w => (decide (Ended (w.pc false)), decide (Ended (w.pc true)),
        occupiedCount w.shared.db 1)) = some (true, true, 4) := by
    decide
  obtain ⟨w, hw, heq⟩ := Option.map_eq_some_iff.mp hrun
  simp only [Prod.mk.injEq, decide_eq_true_eq] at heq
  obtain ⟨hfalse, htrue, hfour⟩ := heq
  refine ⟨w, Run.of_steps hw, Bool.forall_bool.mpr ⟨hfalse, htrue⟩, ?_⟩
  rintro ⟨log, hlog⟩
  have hperm : log.Perm [false, true] := by
    rw [List.perm_ext_iff_of_nodup hlog.nodup (by decide)]
    intro i
    cases i
    · simpa using (hlog.mem false).mpr hfalse
    · simpa using (hlog.mem true).mpr htrue
  have hcount := hlog.occupied 1
  rw [hfour] at hcount
  obtain ⟨i, j, rfl⟩ := List.length_eq_two.mp hperm.length_eq
  have hij : i ≠ j := by simpa using hlog.nodup
  cases i <;> cases j
  · exact hij rfl
  · exact absurd hcount (by decide)
  · exact absurd hcount (by decide)
  · exact hij rfl

end TicketBooking.Order.Serializable
