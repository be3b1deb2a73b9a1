import Mathlib.Data.List.Basic
/-!
# Texts

Blank texts, and keys put together from texts: a key that joins its parts with
a separator determines the parts as long as the last one does not contain it,
which holds of every number written out.
-/

namespace TicketBooking.Library.Texts

/-- The white space `str.strip` removes. -/
def isSpace (c : Char) : Bool :=
  (9 ≤ c.val ∧ c.val ≤ 13) ∨ (28 ≤ c.val ∧ c.val ≤ 32) ∨ c.val = 133 ∨ c.val = 160 ∨
    c.val = 5760 ∨ (8192 ≤ c.val ∧ c.val ≤ 8202) ∨ c.val = 8232 ∨ c.val = 8233 ∨
    c.val = 8239 ∨ c.val = 8287 ∨ c.val = 12288

/-- `not text or not text.strip()`. -/
def isBlank (text : String) : Bool := text.toList.all isSpace

theorem append_sep_inj {α : Type*} {sep : α} {xs xs' ys ys' : List α} (hys : sep ∉ ys)
    (hys' : sep ∉ ys') (h : xs ++ sep :: ys = xs' ++ sep :: ys') : xs = xs' ∧ ys = ys' := by
  rcases List.append_eq_append_iff.mp h with ⟨as, rfl, has⟩ | ⟨as, rfl, has⟩
  · cases as with
    | nil => exact ⟨by simp, by simpa using has⟩
    | cons a as =>
        rw [List.cons_append, List.cons.injEq] at has
        exact absurd (has.2 ▸ List.mem_append_right as List.mem_cons_self) hys
  · cases as with
    | nil => exact ⟨by simp, by simpa using has.symm⟩
    | cons a as =>
        rw [List.cons_append, List.cons.injEq] at has
        exact absurd (has.2 ▸ List.mem_append_right as List.mem_cons_self) hys'

theorem sep_append_inj {α : Type*} {sep : α} {xs xs' ys ys' : List α} (hxs : sep ∉ xs)
    (hxs' : sep ∉ xs') (h : xs ++ sep :: ys = xs' ++ sep :: ys') : xs = xs' ∧ ys = ys' := by
  have hrev : ys.reverse ++ sep :: xs.reverse = ys'.reverse ++ sep :: xs'.reverse := by
    simpa using congrArg List.reverse h
  obtain ⟨hys, hxs⟩ := append_sep_inj (by simpa using hxs) (by simpa using hxs') hrev
  exact ⟨List.reverse_injective hxs, List.reverse_injective hys⟩

/-- Cut at the last `c`, a text gives back what stood before and after it. -/
theorem append_char_inj {c : Char} {s s' t t' : String} (ht : c ∉ t.toList) (ht' : c ∉ t'.toList)
    (h : s ++ String.singleton c ++ t = s' ++ String.singleton c ++ t') : s = s' ∧ t = t' := by
  have hlist : s.toList ++ c :: t.toList = s'.toList ++ c :: t'.toList := by
    simpa using congrArg String.toList h
  obtain ⟨hs, ht⟩ := append_sep_inj ht ht' hlist
  exact ⟨String.toList_injective hs, String.toList_injective ht⟩

theorem repr_injective {m n : Nat} (h : Nat.repr m = Nat.repr n) : m = n := by
  have hdigits := congrArg String.toList h
  rw [Nat.toList_repr, Nat.toList_repr] at hdigits
  rw [← Nat.ofDigitChars_ten_toDigits (n := m), hdigits, Nat.ofDigitChars_ten_toDigits]

theorem isDigit_of_mem_repr {n : Nat} {c : Char} (h : c ∈ (Nat.repr n).toList) : c.isDigit := by
  rw [Nat.toList_repr] at h
  exact Nat.isDigit_of_mem_toDigits (by decide) (by decide) h

theorem int_repr_ofNat (n : Nat) : toString (n : Int) = Nat.repr n := rfl

theorem int_repr_negSucc (n : Nat) : toString (Int.negSucc n) = "-" ++ Nat.repr (n + 1) := rfl

/-- A number written out has digits only, after the sign of a negative one. -/
theorem mem_toString {i : Int} {c : Char} (h : c ∈ (toString i).toList) :
    c = '-' ∨ c.isDigit := by
  cases i with
  | ofNat n => exact .inr (isDigit_of_mem_repr h)
  | negSucc n =>
      rw [int_repr_negSucc, String.toList_append, List.mem_append] at h
      rcases h with h | h
      · exact .inl (by simpa using h)
      · exact .inr (isDigit_of_mem_repr h)

theorem toString_injective {i j : Int} (h : toString i = toString j) : i = j := by
  have hsign : ∀ m n : Nat, toString (Int.ofNat m) ≠ toString (Int.negSucc n) := by
    intro m n heq
    have hminus : '-' ∈ (Nat.repr m).toList := by
      rw [← int_repr_ofNat m, show ((m : Int)) = Int.ofNat m from rfl, heq, int_repr_negSucc]
      simp
    exact absurd (isDigit_of_mem_repr hminus) (by decide)
  cases i with
  | ofNat m =>
      cases j with
      | ofNat n => rw [repr_injective h]
      | negSucc n => exact absurd h (hsign m n)
  | negSucc m =>
      cases j with
      | ofNat n => exact absurd h.symm (hsign n m)
      | negSucc n =>
          rw [int_repr_negSucc, int_repr_negSucc] at h
          have hlist := congrArg String.toList h
          rw [String.toList_append, String.toList_append] at hlist
          have hrepr := String.toList_injective (List.append_cancel_left hlist)
          rw [Nat.succ.inj (repr_injective hrepr)]

theorem colon_notMem_toString (i : Int) : ':' ∉ (toString i).toList := by
  intro h
  rcases mem_toString h with h | h
  · exact absurd h (by decide)
  · exact absurd h (by decide)

end TicketBooking.Library.Texts
