import Mathlib.Data.List.Basic
/-!
# Merged lists

Two lists put together to one, each in its own order.
-/

namespace TicketBooking.Library.Merges

variable {α β : Type*}

/-- The third list has the elements of the first two, and keeps their orders. -/
inductive Merged : List α → List α → List α → Prop
  | nil : Merged [] [] []
  | left {x : α} {xs ys zs : List α} : Merged xs ys zs → Merged (x :: xs) ys (x :: zs)
  | right {y : α} {xs ys zs : List α} : Merged xs ys zs → Merged xs (y :: ys) (y :: zs)

namespace Merged

variable {xs ys zs xs' ys' zs' : List α}

theorem right_only (ys : List α) : Merged [] ys ys := by
  induction ys with
  | nil => exact nil
  | cons y ys ih => exact right ih

theorem left_only (xs : List α) : Merged xs [] xs := by
  induction xs with
  | nil => exact nil
  | cons x xs ih => exact left ih

theorem one_after_other (xs ys : List α) : Merged xs ys (xs ++ ys) := by
  induction xs with
  | nil => exact right_only ys
  | cons x xs ih => exact left ih

theorem mem_iff (h : Merged xs ys zs) {z : α} : z ∈ zs ↔ z ∈ xs ∨ z ∈ ys := by
  induction h with
  | nil => simp
  | left _ ih => rw [List.mem_cons, List.mem_cons, ih, or_assoc]
  | right _ ih => rw [List.mem_cons, List.mem_cons, ih, or_left_comm]

theorem append (h : Merged xs ys zs) (h' : Merged xs' ys' zs') :
    Merged (xs ++ xs') (ys ++ ys') (zs ++ zs') := by
  induction h with
  | nil => exact h'
  | left _ ih => exact left ih
  | right _ ih => exact right ih

theorem flatMap (h : Merged xs ys zs) (f : α → List β) :
    Merged (xs.flatMap f) (ys.flatMap f) (zs.flatMap f) := by
  induction h with
  | nil => exact nil
  | left _ ih => exact append (left_only (f _)) ih
  | right _ ih => exact append (right_only (f _)) ih

theorem filterMap (h : Merged xs ys zs) (f : α → Option β) :
    Merged (xs.filterMap f) (ys.filterMap f) (zs.filterMap f) := by
  have hflat : ∀ l : List α, l.filterMap f = l.flatMap fun x => (f x).toList :=
    List.filterMap_eq_flatMap_toList f
  rw [hflat, hflat, hflat]
  exact h.flatMap _

theorem filter (h : Merged xs ys zs) (p : α → Bool) :
    Merged (xs.filter p) (ys.filter p) (zs.filter p) := by
  rw [← List.filterMap_eq_filter]
  exact h.filterMap _

theorem reverse (h : Merged xs ys zs) : Merged xs.reverse ys.reverse zs.reverse := by
  induction h with
  | nil => exact nil
  | @left x xs ys zs _ ih =>
      have hlast : Merged (xs.reverse ++ [x]) (ys.reverse ++ []) (zs.reverse ++ [x]) :=
        append ih (left_only [x])
      rwa [List.append_nil, ← List.reverse_cons, ← List.reverse_cons] at hlast
  | @right y xs ys zs _ ih =>
      have hlast : Merged (xs.reverse ++ []) (ys.reverse ++ [y]) (zs.reverse ++ [y]) :=
        append ih (right_only [y])
      rwa [List.append_nil, ← List.reverse_cons, ← List.reverse_cons] at hlast

/-- What is found first in the merged list is found first in one of the two. -/
theorem find? (h : Merged xs ys zs) {p : α → Bool} {z : α} (hz : zs.find? p = some z) :
    xs.find? p = some z ∨ ys.find? p = some z := by
  induction h with
  | nil => cases hz
  | @left x xs ys zs _ ih =>
      by_cases hx : p x
      · rw [List.find?_cons_of_pos hx] at hz ⊢
        exact .inl hz
      · rw [List.find?_cons_of_neg hx] at hz ⊢
        exact ih hz
  | @right y xs ys zs _ ih =>
      by_cases hy : p y
      · rw [List.find?_cons_of_pos hy] at hz ⊢
        exact .inr hz
      · rw [List.find?_cons_of_neg hy] at hz ⊢
        exact ih hz

end Merged

end TicketBooking.Library.Merges
