import Mathlib.Data.List.Basic
/-!
# Paths with a doubled separator

Texts cut at every occurrence of a separator written twice, as `a__b__c` is cut
at `__`: all at once (`split`), or only at the first one (`cut`).
-/

namespace TicketBooking.Library.Keys

variable {α : Type*}

def push (x : α) : List (List α) → List (List α)
  | [] => [[x]]
  | part :: parts => (x :: part) :: parts

section Split

variable [DecidableEq α] (sep : α)

/-- The parts between the separators, leftmost separator first. -/
def split : List α → List (List α)
  | [] => [[]]
  | [x] => [[x]]
  | x :: y :: rest =>
      if x = sep ∧ y = sep then [] :: split rest else push x (split (y :: rest))

def cut : List α → Option (List α × List α)
  | [] => none
  | [_] => none
  | x :: y :: rest =>
      if x = sep ∧ y = sep then some ([], rest)
      else (cut (y :: rest)).map fun parts => (x :: parts.1, parts.2)

end Split

def join (sep : α) : List (List α) → List α
  | [] => []
  | [part] => part
  | part :: next :: parts => part ++ sep :: sep :: join sep (next :: parts)

variable {sep : α}

theorem join_push (x : α) (parts : List (List α)) :
    join sep (push x parts) = x :: join sep parts := by
  match parts with
  | [] => rfl
  | [part] => rfl
  | part :: next :: parts => rfl

theorem join_cons (part : List α) {parts : List (List α)} (h : parts ≠ []) :
    join sep (part :: parts) = part ++ sep :: sep :: join sep parts := by
  obtain ⟨next, parts, rfl⟩ := List.exists_cons_of_ne_nil h
  rfl

theorem length_join_dropLast {parts : List (List α)} (h : 2 ≤ parts.length) :
    (join sep parts.dropLast).length < (join sep parts).length := by
  match parts with
  | [first, last] => simp [join]
  | first :: next :: last :: parts =>
      have ih : (join sep (next :: last :: parts).dropLast).length <
          (join sep (next :: last :: parts)).length :=
        length_join_dropLast (by simp)
      rw [List.dropLast_cons_cons, join_cons first (by simp), join_cons first (by simp)]
      simp only [List.length_append, List.length_cons] at ih ⊢
      omega

variable [DecidableEq α]

theorem split_ne_nil (text : List α) : split sep text ≠ [] := by
  fun_cases split sep text with
  | case1 => exact List.cons_ne_nil _ _
  | case2 => exact List.cons_ne_nil _ _
  | case3 => exact List.cons_ne_nil _ _
  | case4 x y rest hsep =>
      cases split sep (y :: rest) <;> exact List.cons_ne_nil _ _

theorem join_split (text : List α) : join sep (split sep text) = text := by
  fun_induction split sep text with
  | case1 => rfl
  | case2 => rfl
  | case3 x y rest hsep ih =>
      rw [join_cons [] (split_ne_nil rest), ih, hsep.1, hsep.2]
      rfl
  | case4 x y rest hsep ih => rw [join_push, ih]

/-- Splitting is cutting again and again. -/
theorem split_eq (text : List α) :
    split sep text = match cut sep text with
      | none => [text]
      | some (head, rest) => head :: split sep rest := by
  fun_induction split sep text with
  | case1 => rfl
  | case2 => rfl
  | case3 x y rest hsep => rw [cut, if_pos hsep]
  | case4 x y rest hsep ih =>
      rw [cut, if_neg hsep, ih]
      cases cut sep (y :: rest) <;> rfl

theorem eq_of_cut {text head rest : List α} (h : cut sep text = some (head, rest)) :
    text = head ++ sep :: sep :: rest := by
  fun_induction cut sep text generalizing head with
  | case1 => cases h
  | case2 => cases h
  | case3 x y rest' hsep =>
      cases h
      rw [hsep.1, hsep.2]
      rfl
  | case4 x y rest' hsep ih =>
      obtain ⟨⟨head', rest''⟩, hcut, heq⟩ := Option.map_eq_some_iff.mp h
      cases heq
      rw [ih hcut]
      rfl

/-- The first part has no separator in it. -/
theorem cut_head {text head rest : List α} (h : cut sep text = some (head, rest)) :
    cut sep head = none := by
  fun_induction cut sep text generalizing head with
  | case1 => cases h
  | case2 => cases h
  | case3 =>
      cases h
      rfl
  | case4 x y rest' hsep ih =>
      obtain ⟨⟨head', rest''⟩, hcut, heq⟩ := Option.map_eq_some_iff.mp h
      cases heq
      match head', ih hcut, eq_of_cut hcut with
      | [], _, _ => rfl
      | y' :: head', hnone, heq =>
          have hy : y = y' := (List.cons.inj heq).1
          rw [cut, if_neg (hy ▸ hsep), hnone]
          rfl

theorem split_eq_singleton {text : List α} : split sep text = [text] ↔ cut sep text = none := by
  rw [split_eq]
  cases hcut : cut sep text with
  | none => simp
  | some parts =>
      obtain ⟨head, rest⟩ := parts
      simp only [reduceCtorEq, iff_false, List.cons.injEq, not_and]
      exact fun _ => split_ne_nil rest

end TicketBooking.Library.Keys
