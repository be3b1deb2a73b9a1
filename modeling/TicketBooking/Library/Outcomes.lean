import Mathlib.Data.List.Forall2
/-!
# Computations that may raise

What a composed computation's answer says about its parts.
-/

namespace TicketBooking.Library.Outcomes

section Parts

variable {ε α β : Type*} {x : Except ε α} {b : β}

theorem bind_eq_ok {f : α → Except ε β} (h : x.bind f = .ok b) : ∃ a, x = .ok a ∧ f a = .ok b := by
  cases x with
  | error e => cases h
  | ok a => exact ⟨a, rfl, h⟩

theorem map_eq_ok {f : α → β} (h : x.map f = .ok b) : ∃ a, x = .ok a ∧ f a = b := by
  cases x with
  | error e => cases h
  | ok a => exact ⟨a, rfl, Except.ok.inj h⟩

theorem bind_eq_error {f : α → Except ε β} {e : ε} (h : x.bind f = .error e) :
    x = .error e ∨ ∃ a, x = .ok a ∧ f a = .error e := by
  cases x with
  | error e' =>
      cases h
      exact .inl rfl
  | ok a => exact .inr ⟨a, rfl, h⟩

theorem map_eq_error {f : α → β} {e : ε} (h : x.map f = .error e) : x = .error e := by
  cases x with
  | error e' =>
      cases h
      rfl
  | ok a => cases h

end Parts

/-- A loop that raises does so at one of its elements. -/
theorem foldlM_eq_error {ε : Type*} {α β : Type*} {f : β → α → Except ε β} {xs : List α} {b : β}
    {e : ε} (h : xs.foldlM f b = .error e) : ∃ x ∈ xs, ∃ c, f c x = .error e := by
  induction xs generalizing b with
  | nil => cases h
  | cons x xs ih =>
      rw [List.foldlM_cons] at h
      rcases bind_eq_error h with hx | ⟨c, -, hrest⟩
      · exact ⟨x, List.mem_cons_self, b, hx⟩
      · obtain ⟨y, hy, c', hc'⟩ := ih hrest
        exact ⟨y, List.mem_cons_of_mem _ hy, c', hc'⟩

theorem mapM_eq_ok_iff {ε : Type*} {α β : Type*} {f : α → Except ε β} {xs : List α}
    {ys : List β} : xs.mapM f = .ok ys ↔ List.Forall₂ (fun x y => f x = .ok y) xs ys := by
  induction xs generalizing ys with
  | nil =>
      rw [List.mapM_nil, List.forall₂_nil_left_iff]
      exact ⟨fun h => (Except.ok.inj h).symm, fun h => congrArg Except.ok h.symm⟩
  | cons x xs ih =>
      rw [List.mapM_cons, List.forall₂_cons_left_iff]
      constructor
      · intro h
        obtain ⟨y, hy, h⟩ := bind_eq_ok h
        obtain ⟨rest, hrest, heq⟩ := bind_eq_ok h
        exact ⟨y, rest, hy, ih.mp hrest, (Except.ok.inj heq).symm⟩
      · rintro ⟨y, rest, hy, hrest, rfl⟩
        rw [hy, ih.mpr hrest]
        rfl

/-- A loop over computations that may raise comes to its end when each of them does, with
answers as each gives. -/
theorem exists_mapM_ok {ε : Type*} {α β : Type*} {f : α → Except ε β} {xs : List α}
    {p : β → Prop} :
    (∃ ys, xs.mapM f = .ok ys ∧ ∀ y ∈ ys, p y) ↔ ∀ x ∈ xs, ∃ y, f x = .ok y ∧ p y := by
  simp only [mapM_eq_ok_iff]
  induction xs with
  | nil => simp
  | cons x xs ih =>
      simp only [List.forall₂_cons_left_iff, List.forall_mem_cons, ← ih]
      constructor
      · rintro ⟨_, ⟨y, ys, hy, hys, rfl⟩, hall⟩
        obtain ⟨hp, hall⟩ := List.forall_mem_cons.mp hall
        exact ⟨⟨y, hy, hp⟩, ys, hys, hall⟩
      · rintro ⟨⟨y, hy, hp⟩, ys, hys, hall⟩
        exact ⟨y :: ys, ⟨y, ys, hy, hys, rfl⟩, List.forall_mem_cons.mpr ⟨hp, hall⟩⟩

end TicketBooking.Library.Outcomes
