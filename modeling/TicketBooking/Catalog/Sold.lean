import TicketBooking.Catalog.Drafts
/-!
# Categories with sold tickets

The ticket categories of a draft can be changed, and `OrderService.create` does
not ask for the state of an event.  A category stays as it was bought as long
as orders are placed for events that have left DRAFT, one call after another.
-/

namespace TicketBooking.Catalog.Sold

open TicketBooking.Catalog.Drafts TicketBooking.Catalog.Editing TicketBooking.Catalog.Keys
open TicketBooking.Catalog.System TicketBooking.Catalog.Transactions
open TicketBooking.Database.Shared TicketBooking.Database.Tables
open TicketBooking.Library.Sessions
open TicketBooking.Order.Booking

/-- The category exists and its event has left DRAFT. -/
def OnSale (db : Db) (categoryId : Nat) : Prop :=
  ∃ category ∈ db.ticketCategories, category.id = categoryId ∧ LeftDraft db category.eventId

def requested : Pc → List Nat
  | .order (.create (.locking call categories _)) =>
      if missingItem categories call.data.items = none then categories.map fun cat => cat.id else []
  | .order (.create (.selected _ data)) => data.map fun item => item.categoryId
  | .order (.create (.insertingItems _ items todo)) =>
      items.map (fun item => item.categoryId) ++ todo.map fun item => item.categoryId
  | .order (.create (.insertingTickets _ items _ _)) => items.map fun item => item.categoryId
  | _ => []

def resting : Pc → Bool
  | .order (.create pc) => (pc matches .start _ | .finished _ _)
  | .order (.confirm pc) => (pc matches .start _ | .finished _)
  | .order (.expire pc) => (pc matches .start _ | .finished _)
  | .order (.migrate pc) => (pc matches .start _ | .finished _)
  | .order .waiting => true
  | .createEvent pc => (pc matches .start _ _ | .finished _)
  | .createCategory pc => (pc matches .start _ | .finished _)
  | .updateEvent pc => (pc matches .start _ _ _ | .finished _)
  | .transition pc => (pc matches .start _ | .finished _)
  | .createTicketCategory pc => (pc matches .start _ _ | .finished _)
  | .modifyTicketCategory pc => (pc matches .start _ _ _ | .finished _)

/-- The order whose SELECT the statement is, and what it returns. -/
def selecting : Pc → Act → Option (CreateCall × List TicketCategory)
  | .order (.create (.start call)), .order (.select categories) => some (call, categories)
  | _, _ => none

/-- An order that finds every requested category available requests categories
of events that have left DRAFT only. -/
def Published {ι : Type} (w : World ι Store Row Pc) (i : ι) (a : Act) : Prop :=
  ∀ select ∈ selecting (w.pc i) a, missingItem select.2 select.1.data.items = none →
    ∀ category ∈ select.2, LeftDraft w.shared.db category.eventId

/-- No call begins before the one before it has ended. -/
def OneByOne {ι : Type} (w : World ι Store Row Pc) (i : ι) (_ : Act) : Prop :=
  ∀ j, j ≠ i → resting (w.pc j)

def Sequential {ι : Type} (w : World ι Store Row Pc) (i : ι) (a : Act) : Prop :=
  OneByOne w i a ∧ Published w i a

instance {ι : Type} (w : World ι Store Row Pc) (i : ι) (a : Act) : Decidable (Published w i a) :=
  inferInstanceAs (Decidable (∀ select ∈ selecting (w.pc i) a,
    missingItem select.2 select.1.data.items = none →
      ∀ category ∈ select.2, LeftDraft w.shared.db category.eventId))

instance {ι : Type} [Fintype ι] [DecidableEq ι] (w : World ι Store Row Pc) (i : ι) (a : Act) :
    Decidable (OneByOne w i a) :=
  inferInstanceAs (Decidable (∀ j, j ≠ i → resting (w.pc j)))

instance {ι : Type} [Fintype ι] [DecidableEq ι] (w : World ι Store Row Pc) (i : ι) (a : Act) :
    Decidable (Sequential w i a) :=
  inferInstanceAs (Decidable (OneByOne w i a ∧ Published w i a))

theorem editing_of_resting {pc : Pc} (h : resting pc) : editing pc = none := by
  cases pc with
  | createTicketCategory pc => cases pc <;> first | rfl | cases h
  | modifyTicketCategory pc => cases pc <;> first | rfl | cases h
  | _ => rfl

theorem requested_of_resting {pc : Pc} (h : resting pc) : requested pc = [] := by
  cases pc with
  | order pc =>
      cases pc with
      | create pc => cases pc <;> first | rfl | cases h
      | _ => rfl
  | _ => rfl

/-- One call after another, no edit of a category is open when an event changes
its state. -/
theorem Sequential.undisturbed {ι : Type} {w : World ι Store Row Pc} {i : ι} {a : Act}
    (h : Sequential w i a) : Undisturbed w i a := by
  intro t ht j hediting
  by_cases hj : j = i
  · subst hj
    unfold committing at ht
    split at ht
    · rename_i hpc
      rw [hpc] at hediting
      cases hediting
    · cases ht
  · rw [editing_of_resting (h.1 j hj)] at hediting
    cases hediting

theorem Settled.onSale {s s' : Store} (h : Settled s s') {categoryId : Nat}
    (hsale : OnSale s.db categoryId) : OnSale s'.db categoryId := by
  obtain ⟨category, hcategory, hid, hleft⟩ := hsale
  obtain ⟨hleft', heq⟩ := h category.eventId hleft
  have hmem : category ∈ categoriesOf s'.db category.eventId := by
    rw [heq]
    exact List.mem_filter.mpr ⟨hcategory, by simp⟩
  exact ⟨category, (List.mem_filter.mp hmem).1, hid, hleft'⟩

/-! ## What an order has found -/

theorem createStep_requested {s : Store} {pc pc' : Order.Transactions.CreatePc}
    {a : Order.Transactions.Act} {eff : Effect Store Row}
    (h : Order.Transactions.CreateStep s pc a eff pc')
    (hat : ∀ id ∈ requested (.order (.create pc)), OnSale s.db id)
    (hpublished : ∀ call categories, pc = .start call → a = .select categories →
      missingItem categories call.data.items = none →
        ∀ category ∈ categories, LeftDraft s.db category.eventId) :
    ∀ id ∈ requested (.order (.create pc')), OnSale s.db id := by
  cases h with
  | @select call categories howner hperm =>
      intro id hid
      simp only [requested] at hid
      split_ifs at hid with hmissing
      · obtain ⟨category, hcategory, rfl⟩ := List.mem_map.mp hid
        have hselected := (List.isPerm_iff.mp hperm).mem_iff.mp hcategory
        exact ⟨category, (List.mem_filter.mp hselected).1, rfl,
          hpublished call categories rfl rfl hmissing category hcategory⟩
      · cases hid
  | lock => exact hat
  | @accept call categories data hmissing hdata =>
      intro id hid
      obtain ⟨item, hitem, rfl⟩ := List.mem_map.mp hid
      obtain ⟨category, hcategory, heq⟩ := itemsData_categories hdata hitem
      have hrequested :
          category.id ∈ requested (.order (.create (.locking call categories []))) := by
        rw [requested, if_pos hmissing]
        exact List.mem_map_of_mem hcategory
      exact heq ▸ hat category.id hrequested
  | insertOrder => exact hat
  | @insertItems order items todo =>
      have hsame : ∀ n, ((items ++ assignIds (newItem order.id) n
          (todo.take Order.Transactions.chunkSize)).map fun item => item.categoryId) ++
            ((todo.drop Order.Transactions.chunkSize).map fun item => item.categoryId) =
          (items.map fun item => item.categoryId) ++ todo.map fun item => item.categoryId := by
        intro n
        have hids : ((assignIds (newItem order.id) n
            (todo.take Order.Transactions.chunkSize)).map fun item => item.categoryId) =
              (todo.take Order.Transactions.chunkSize).map fun item => item.categoryId :=
          map_assignIds (f := fun item : OrderItem => item.categoryId)
            (g := fun item : ItemData => item.categoryId) (fun _ _ => rfl) n _
        rw [List.map_append, hids, List.append_assoc, ← List.map_append, List.take_append_drop]
      intro id hid
      rw [requested, hsame] at hid
      exact hat id hid
  | itemsDone => simpa [requested] using hat
  | insertTickets => exact hat
  | _ => exact fun id hid => absurd hid List.not_mem_nil

theorem orderStep_items {ι : Type} {i : ι} {s : Store} {pc pc' : Order.Transactions.Pc}
    {a : Order.Transactions.Act} {eff : Effect Store Row}
    (h : Order.Transactions.orderStep i s pc a = some (eff, pc')) :
    (∃ create create', pc = .create create ∧ pc' = .create create' ∧
      Order.Transactions.CreateStep s create a eff create') ∨
    requested (.order pc') = [] ∧ (eff.apply s).db.orderItems = s.db.orderItems := by
  cases Order.Transactions.orderStep_cases h with
  | create hstep => exact .inl ⟨_, _, rfl, rfl, hstep⟩
  | confirm hstep => cases hstep <;> exact .inr ⟨rfl, rfl⟩
  | expire hstep => cases hstep <;> exact .inr ⟨rfl, rfl⟩
  | migrate hstep => cases hstep <;> exact .inr ⟨rfl, rfl⟩
  | fire => exact .inr ⟨rfl, rfl⟩

/-- The items a statement publishes are of categories its order requests. -/
theorem SystemStep.items {s : Store} {pc pc' : Pc} {a : Act} {eff : Effect Store Row}
    (h : SystemStep s pc a eff pc') : ∀ item ∈ (eff.apply s).db.orderItems,
      item ∈ s.db.orderItems ∨ item.categoryId ∈ requested pc := by
  have hsame : (eff.apply s).db.orderItems = s.db.orderItems →
      ∀ item ∈ (eff.apply s).db.orderItems,
        item ∈ s.db.orderItems ∨ item.categoryId ∈ requested pc :=
    fun heq item hitem => .inl (heq ▸ hitem)
  cases h with
  | order h =>
      rcases orderStep_items h with ⟨create, create', rfl, rfl, hstep⟩ | ⟨-, heq⟩
      · cases hstep with
        | commit =>
            intro item hitem
            rcases List.mem_append.mp hitem with hitem | hitem
            · exact .inl hitem
            · exact .inr (List.mem_map_of_mem hitem)
        | _ => exact hsame rfl
      · exact hsame heq
  | createEvent h => cases h <;> exact hsame rfl
  | createCategory h => cases h <;> exact hsame rfl
  | updateEvent h => cases h <;> exact hsame rfl
  | transition h => cases h <;> exact hsame rfl
  | createTicketCategory h => cases h <;> exact hsame rfl
  | modifyTicketCategory h => cases h <;> exact hsame rfl

section Run

variable {ι : Type}

theorem SystemStep.requested {w : World ι Store Row Pc} {i : ι} {a : Act} {eff : Effect Store Row}
    {pc : Pc} (hat : ∀ id ∈ Sold.requested (w.pc i), OnSale w.shared.db id) (hok : Published w i a)
    (h : SystemStep w.shared (w.pc i) a eff pc) :
    ∀ id ∈ Sold.requested pc, OnSale w.shared.db id := by
  generalize hpc : w.pc i = pc₀ at h hat
  cases h with
  | order h =>
      rcases orderStep_items h with ⟨create, create', rfl, rfl, hstep⟩ | ⟨hnil, -⟩
      · refine createStep_requested hstep hat fun call categories hstart ha => ?_
        subst hstart ha
        exact hok (call, categories) (by rw [hpc]; rfl)
      · rw [hnil]
        exact fun id hid => absurd hid List.not_mem_nil
  | _ => exact fun id hid => absurd hid List.not_mem_nil

def outline : Outline ι Store Row Pc where
  inv s := ∀ item ∈ s.db.orderItems, OnSale s.db item.categoryId
  at_ _ s _ pc := ∀ id ∈ requested pc, OnSale s.db id
  apart _ _ := True

/-- The guard, in worlds where the other outlines hold. -/
def SequentialValid (w : World ι Store Row Pc) (i : ι) (a : Act) : Prop :=
  Sequential w i a ∧ Keys.outline.Valid w ∧ Drafts.outline.Valid w

theorem outline_sound : (outline : Outline ι Store Row Pc).Sound systemStep SequentialValid where
  own w i a eff pc hw hok hP _ := by
    have hstep := systemStep_cases hP
    have hsettled : Settled w.shared (eff.apply w.shared) :=
      Drafts.SystemStep.settled (hok.2.2.at_ i) (hok.2.1.at_ i) hstep
    refine ⟨fun item hitem => Settled.onSale hsettled ?_, fun id hid => Settled.onSale hsettled ?_⟩
    · rcases SystemStep.items hstep item hitem with hold | hnew
      · exact hw.inv item hold
      · exact hw.at_ i _ hnew
    · exact SystemStep.requested (hw.at_ i) hok.1.2 hstep id hid
  frame w i j a eff pc _ hok _ _ hj := by
    refine ⟨fun id hid => ?_, trivial, trivial⟩
    rw [requested_of_resting (hok.1.1 j hj)] at hid
    cases hid

variable [DecidableEq ι]

theorem run_sequentialValid {s : Store} (hkeyed : Keyed s) (calls : ι → Call)
    {w : World ι Store Row Pc} (h : Run systemStep Sequential (atCalls s calls) w) :
    Run systemStep SequentialValid (atCalls s calls) w := by
  refine h.with_invariant (fun v v' i a hv hok hs => ?_)
    ⟨Keys.outline_start hkeyed calls, Drafts.outline_start s calls⟩
  exact ⟨Keys.outline_sound.step hv.1 trivial hs,
    Drafts.outline_sound.step hv.2 ⟨hok.undisturbed, hv.1⟩ hs⟩

theorem run_onSale {s : Store} (hkeyed : Keyed s) (hitems : s.db.orderItems = [])
    (calls : ι → Call) {w : World ι Store Row Pc}
    (h : Run systemStep Sequential (atCalls s calls) w) :
    ∀ item ∈ w.shared.db.orderItems, OnSale w.shared.db item.categoryId := by
  refine (outline_sound.run (run_sequentialValid hkeyed calls h) ⟨?_, fun i => ?_, ?_⟩).inv
  · show ∀ item ∈ s.db.orderItems, OnSale s.db item.categoryId
    simp [hitems]
  · show ∀ id ∈ requested (calls i).pc, OnSale s.db id
    cases calls i <;> simp [Call.pc, requested]
  · exact fun _ _ _ => trivial

theorem findTicketCategory_of_mem {s : Store} (h : Keyed s) {category : TicketCategory}
    (hcategory : category ∈ s.db.ticketCategories) :
    findTicketCategory s.db category.id = some category := by
  cases hfind : findTicketCategory s.db category.id with
  | none => simpa using List.find?_eq_none.mp hfind category hcategory
  | some other =>
      obtain ⟨hother, hid⟩ := findTicketCategory_eq_some hfind
      rw [h.ticketCategory_ext hother hcategory hid]

/-- Once an item has been ordered, its category stays the row it was. -/
theorem sold_category_stays {s : Store} (hkeyed : Keyed s) (hitems : s.db.orderItems = [])
    (calls : ι → Call) {w w' : World ι Store Row Pc}
    (h : Run systemStep Sequential (atCalls s calls) w) (h' : Run systemStep Sequential w w')
    {item : OrderItem} (hitem : item ∈ w.shared.db.orderItems) :
    ∃ category, findTicketCategory w.shared.db item.categoryId = some category ∧
      findTicketCategory w'.shared.db item.categoryId = some category := by
  have hundisturbed : ∀ {v v' : World ι Store Row Pc}, Run systemStep Sequential v v' →
      Run systemStep Undisturbed v v' := fun h => h.mono fun _ _ _ hok => hok.undisturbed
  obtain ⟨category, hcategory, hid, hleft⟩ := run_onSale hkeyed hitems calls h item hitem
  obtain ⟨hkeys, hdrafts⟩ := run_valid hkeyed calls (hundisturbed h)
  obtain ⟨hkeys', -⟩ := run_valid hkeyed calls (hundisturbed (h.trans h'))
  obtain ⟨-, hsame⟩ := run_settled (hundisturbed h') hkeys hdrafts category.eventId hleft
  have hcategory' : category ∈ categoriesOf w'.shared.db category.eventId := by
    rw [hsame]
    exact List.mem_filter.mpr ⟨hcategory, by simp⟩
  rw [← hid]
  exact ⟨category, findTicketCategory_of_mem hkeys.inv hcategory,
    findTicketCategory_of_mem hkeys'.inv (List.mem_filter.mp hcategory').1⟩

end Run

/-! ## A season -/

def season : Fin 4 → Call
  | 0 => .createTicketCategory 1 ⟨one, "parterre", ten, two⟩
  | 1 => .publish 1 1
  | 2 => .createOrder Order.Transactions.onePlace
  | 3 => .updateTicketCategory 1 1 { price := some (some 20) }

def edits {ι : Type} (i : ι) (n : Nat) : List (ι × Act) := List.replicate n (i, .edit (.run 0))

def books {ι : Type} (i : ι) : List (ι × Act) :=
  (i, .order (.select [Order.Transactions.parterre])) :: List.replicate 7 (i, .order .run) ++
    [(i, .order (.perform 0 0))]

/-- The place is booked after the event is published, and the price stays. -/
theorem sold_category_stays_season :
    ∃ w w' item, Run systemStep Sequential (atCalls stage season) w ∧
      Run systemStep Sequential w w' ∧ item ∈ w.shared.db.orderItems ∧
      ∃ category, findTicketCategory w.shared.db item.categoryId = some category ∧
        findTicketCategory w'.shared.db item.categoryId = some category := by
  have hrun : ((atCalls stage season).guardedSteps systemStep Sequential
      (edits 0 5 ++ edits 1 2 ++ books 2)).bind
      (fun w => (w.guardedSteps systemStep Sequential (edits 3 2)).map
        fun _ => decide (⟨1, 1, 1, 1, some 10⟩ ∈ w.shared.db.orderItems)) = some true := by
    decide +kernel
  obtain ⟨w, hw, hrest⟩ := Option.bind_eq_some_iff.mp hrun
  obtain ⟨w', hw', hitem⟩ := Option.map_eq_some_iff.mp hrest
  have h := Run.of_guardedSteps hw
  have h' := Run.of_guardedSteps hw'
  have hitem := of_decide_eq_true hitem
  exact ⟨w, w', _, h, h', hitem, sold_category_stays keyed_stage rfl season h h' hitem⟩

/-- The place is booked while the event is a draft, and the price is raised. -/
theorem sold_category_changes :
    ∃ w w' item, Run systemStep OneByOne (atCalls stage season) w ∧
      Run systemStep OneByOne w w' ∧ item ∈ w.shared.db.orderItems ∧
      ¬ ∃ category, findTicketCategory w.shared.db item.categoryId = some category ∧
        findTicketCategory w'.shared.db item.categoryId = some category := by
  have hrun : ((atCalls stage season).guardedSteps systemStep OneByOne (edits 0 5 ++ books 2)).bind
      (fun w => (w.guardedSteps systemStep OneByOne (edits 3 7)).map
        fun w' => (decide (⟨1, 1, 1, 1, some 10⟩ ∈ w.shared.db.orderItems),
          decide (findTicketCategory w.shared.db 1 = findTicketCategory w'.shared.db 1))) =
        some (true, false) := by
    decide +kernel
  obtain ⟨w, hw, hrest⟩ := Option.bind_eq_some_iff.mp hrun
  obtain ⟨w', hw', heq⟩ := Option.map_eq_some_iff.mp hrest
  simp only [Prod.mk.injEq, decide_eq_true_eq, decide_eq_false_iff_not] at heq
  obtain ⟨hitem, hne⟩ := heq
  refine ⟨w, w', _, Run.of_guardedSteps hw, Run.of_guardedSteps hw', hitem, ?_⟩
  rintro ⟨category, hbefore, hafter⟩
  exact hne (hbefore.trans hafter.symm)

end TicketBooking.Catalog.Sold
