import Mathlib.Data.List.Dedup
import Mathlib.Data.List.Nodup
import Mathlib.Data.List.Perm.Basic
import Mathlib.Data.List.Range
/-!
# Pages of a list that may be arranged in several ways

A query with an ORDER BY clause fixes the order of its rows up to ties.  A walk
over pages asks for each page separately, so each page may be cut from another
arrangement.  The walk shows every row exactly once, whatever the arrangements
are, precisely when no tie lies across the boundary of two pages.
-/

namespace TicketBooking.Library.Pages

variable {α : Type*}

/-- `before x y`: `x` may stand before `y`. -/
structure Arrangement (before : α → α → Bool) (rows arranged : List α) : Prop where
  perm : arranged.Perm rows
  ordered : arranged.Pairwise fun x y => before x y = true

/-- What may stand before what, for the values of an ORDER BY clause. -/
structure Preorder (before : α → α → Bool) : Prop where
  total : ∀ x y, before x y = true ∨ before y x = true
  trans : ∀ x y z, before x y = true → before y z = true → before x z = true

def window (limit : Nat) (arranged : List α) (k : Nat) : List α :=
  (arranged.drop (k * limit)).take limit

/-- Between two pages the order is strict. -/
def Untied (before : α → α → Bool) (limit : Nat) (arranged : List α) : Prop :=
  ∀ k x y, 0 < k → arranged[k * limit - 1]? = some x → arranged[k * limit]? = some y →
    before y x = false

variable {before : α → α → Bool} {rows arranged other : List α} {limit : Nat}

theorem take_succ_window (k : Nat) (xs : List α) :
    xs.take ((k + 1) * limit) = xs.take (k * limit) ++ window limit xs k := by
  rw [Nat.succ_mul, List.take_add]
  rfl

theorem mem_window {xs : List α} {k i : Nat} {x : α} (hi : i < limit)
    (hx : xs[k * limit + i]? = some x) : x ∈ window limit xs k := by
  refine List.mem_of_getElem? (i := i) ?_
  unfold window
  rw [List.getElem?_take_of_lt hi, List.getElem?_drop]
  exact hx

theorem split_boundary {xs : List α} {p : Nat} {x y : α} (hp : 0 < p)
    (hx : xs[p - 1]? = some x) (hy : xs[p]? = some y) :
    xs = xs.take (p - 1) ++ x :: y :: xs.drop (p + 1) ∧ (xs.take (p - 1)).length + 1 = p := by
  obtain ⟨hi, hxi⟩ := List.getElem?_eq_some_iff.mp hx
  obtain ⟨hj, hyj⟩ := List.getElem?_eq_some_iff.mp hy
  constructor
  · calc xs = xs.take (p - 1) ++ xs.drop (p - 1) := (List.take_append_drop _ _).symm
      _ = xs.take (p - 1) ++ x :: xs.drop p := by
          rw [List.drop_eq_getElem_cons hi, hxi, Nat.sub_add_cancel hp]
      _ = xs.take (p - 1) ++ x :: y :: xs.drop (p + 1) := by
          rw [List.drop_eq_getElem_cons hj, hyj]
  · rw [List.length_take]
    omega

/-! ## Below a strict boundary the rows are fixed -/

/-- The rows before a strict boundary are those that cannot stand after it. -/
theorem take_eq_filter (hbefore : Preorder before)
    (hordered : arranged.Pairwise fun x y => before x y = true) {p : Nat} {x y : α} (hp : 0 < p)
    (hx : arranged[p - 1]? = some x) (hy : arranged[p]? = some y)
    (hstrict : before y x = false) :
    arranged.take p = arranged.filter fun z => before y z = false := by
  obtain ⟨hsplit, hlength⟩ := split_boundary hp hx hy
  generalize arranged.take (p - 1) = low at hsplit hlength
  generalize arranged.drop (p + 1) = high at hsplit
  subst hsplit
  rw [List.pairwise_append, List.pairwise_cons, List.pairwise_cons] at hordered
  obtain ⟨-, ⟨-, hhigh, -⟩, hcross⟩ := hordered
  have hlow : ∀ z ∈ low ++ [x], before y z = false := by
    intro z hz
    have hzx : before z x = true := by
      rcases List.mem_append.mp hz with h | h
      · exact hcross z h x List.mem_cons_self
      · rw [List.mem_singleton.mp h]
        rcases hbefore.total x x with h | h <;> exact h
    by_contra hyz
    rw [Bool.not_eq_false] at hyz
    rw [hbefore.trans y z x hyz hzx] at hstrict
    cases hstrict
  have hyy : before y y = true := by
    rcases hbefore.total y y with h | h <;> exact h
  have hfrom : ∀ z ∈ y :: high, ¬ decide (before y z = false) = true := by
    rw [List.forall_mem_cons]
    exact ⟨by simp [hyy], fun z hz => by simp [hhigh z hz]⟩
  calc (low ++ x :: y :: high).take p
      = low ++ [x] := by
        rw [List.append_cons, List.take_left' (by simpa using hlength)]
    _ = (low ++ [x] ++ y :: high).filter fun z => before y z = false := by
        rw [List.filter_append, List.filter_eq_nil_iff.mpr hfrom, List.append_nil,
          List.filter_eq_self.mpr fun z hz => by simpa using hlow z hz]
    _ = (low ++ x :: y :: high).filter fun z => before y z = false := by
        rw [List.append_assoc, List.singleton_append]

/-- The rows a list ordered around `y` has before it. -/
theorem take_filter_of_ordered (hbefore : Preorder before) {y : α} {xs : List α}
    (hordered : xs.Pairwise fun x y => before x y = true) :
    xs.take (xs.filter fun z => before y z = false).length =
      xs.filter fun z => before y z = false := by
  induction xs with
  | nil => rfl
  | cons x xs ih =>
      rw [List.pairwise_cons] at hordered
      by_cases hx : before y x = false
      · rw [List.filter_cons_of_pos (by simpa using hx), List.length_cons, List.take_succ_cons,
          ih hordered.2]
      · have hnone : xs.filter (fun z => before y z = false) = [] := by
          rw [List.filter_eq_nil_iff]
          intro z hz hyz
          rw [Bool.not_eq_false] at hx
          have htrans := hbefore.trans y x z hx (hordered.1 z hz)
          rw [of_decide_eq_true hyz] at htrans
          cases htrans
        rw [List.filter_cons_of_neg (by simpa using hx), hnone]
        rfl

/-- Two arrangements have the same rows before a strict boundary. -/
theorem take_perm (hbefore : Preorder before) (h : Arrangement before rows arranged)
    (hother : Arrangement before rows other) {p : Nat} {x y : α} (hp : 0 < p)
    (hx : arranged[p - 1]? = some x) (hy : arranged[p]? = some y)
    (hstrict : before y x = false) : (other.take p).Perm (arranged.take p) := by
  have hfilter := take_eq_filter hbefore h.ordered hp hx hy hstrict
  have hperm : (other.filter fun z => before y z = false).Perm
      (arranged.filter fun z => before y z = false) :=
    (hother.perm.trans h.perm.symm).filter _
  have hlength : (other.filter fun z => before y z = false).length = p := by
    obtain ⟨hlt, -⟩ := List.getElem?_eq_some_iff.mp hy
    rw [hperm.length_eq, ← hfilter, List.length_take]
    omega
  have hown := take_filter_of_ordered hbefore (y := y) hother.ordered
  rw [hlength] at hown
  rw [hown, hfilter]
  exact hperm

/-- If the boundaries are strict, all arrangements have the same first pages. -/
theorem take_pages_perm (hbefore : Preorder before) (h : Arrangement before rows arranged)
    (hother : Arrangement before rows other) (huntied : Untied before limit arranged)
    (hlimit : 0 < limit) (k : Nat) :
    (other.take (k * limit)).Perm (arranged.take (k * limit)) := by
  have hsame : other.length = arranged.length := (hother.perm.trans h.perm.symm).length_eq
  by_cases hk : k = 0
  · subst hk
    simp
  · have hpos : 0 < k * limit := Nat.mul_pos (by omega) hlimit
    by_cases hend : arranged.length ≤ k * limit
    · rw [List.take_of_length_le hend, List.take_of_length_le (hsame ▸ hend)]
      exact hother.perm.trans h.perm.symm
    · have hx := List.getElem?_eq_getElem (l := arranged) (i := k * limit - 1) (by omega)
      have hy := List.getElem?_eq_getElem (l := arranged) (i := k * limit) (by omega)
      exact take_perm hbefore h hother hpos hx hy (huntied k _ _ (by omega) hx hy)

theorem window_perm (hbefore : Preorder before) (h : Arrangement before rows arranged)
    (hother : Arrangement before rows other) (huntied : Untied before limit arranged)
    (hlimit : 0 < limit) (k : Nat) : (window limit other k).Perm (window limit arranged k) := by
  have hlow := take_pages_perm hbefore h hother huntied hlimit k
  have hhigh := take_pages_perm hbefore h hother huntied hlimit (k + 1)
  rw [take_succ_window, take_succ_window] at hhigh
  exact (List.perm_append_left_iff _).mp ((hlow.symm.append_right _).trans hhigh)

/-- Rows of different pages are different, if the boundaries are strict. -/
theorem windows_disjoint (hbefore : Preorder before)
    (hordered : arranged.Pairwise fun x y => before x y = true)
    (huntied : Untied before limit arranged) {j k : Nat} (hjk : j < k) :
    (window limit arranged j).Disjoint (window limit arranged k) := by
  intro z hzj hzk
  have hlimit : 0 < limit := by
    by_contra hzero
    have hnil : limit = 0 := by omega
    simp [window, hnil] at hzj
  have hlow : z ∈ arranged.take (k * limit) := by
    have hmem : z ∈ arranged.take ((j + 1) * limit) := by
      rw [take_succ_window]
      exact List.mem_append_right _ hzj
    exact (List.take_sublist_take_left (Nat.mul_le_mul_right limit hjk)).subset hmem
  have hhigh : z ∈ arranged.drop (k * limit) := List.mem_of_mem_take hzk
  have hlt : k * limit < arranged.length := by
    by_contra hend
    rw [List.drop_of_length_le (by omega)] at hhigh
    cases hhigh
  have hpos : 0 < k * limit := Nat.mul_pos (by omega) hlimit
  have hx := List.getElem?_eq_getElem (l := arranged) (i := k * limit - 1) (by omega)
  have hy := List.getElem?_eq_getElem (l := arranged) (i := k * limit) hlt
  have hstrict := huntied k _ _ (by omega) hx hy
  rw [take_eq_filter hbefore hordered hpos hx hy hstrict] at hlow
  have hbelow : before arranged[k * limit] z = false :=
    of_decide_eq_true (List.mem_filter.mp hlow).2
  have habove : before arranged[k * limit] z = true := by
    have htail := hordered.drop (i := k * limit)
    rw [List.drop_eq_getElem_cons hlt, List.pairwise_cons] at htail
    rw [List.drop_eq_getElem_cons hlt] at hhigh
    rcases List.mem_cons.mp hhigh with hz | hz
    · rw [hz]
      rcases hbefore.total arranged[k * limit] arranged[k * limit] with h | h <;> exact h
    · exact htail.1 z hz
  rw [hbelow] at habove
  cases habove

/-! ## Walks -/

def Distinct (distinct : List α → List α) : Prop :=
  ∀ xs, (distinct xs).Nodup ∧ ∀ x, x ∈ distinct xs ↔ x ∈ xs

/-- The first `pages` pages, the `k`-th cut from the arrangement `choice k`. -/
def walk (limit : Nat) (distinct : List α → List α) (choice : Nat → List α) (pages : Nat) :
    List α :=
  (List.range pages).flatMap fun k => distinct (window limit (choice k) k)

/-- Every walk to the last page shows every row exactly once. -/
def EachOnce (before : α → α → Bool) (limit : Nat) (distinct : List α → List α) (rows : List α) :
    Prop :=
  ∀ choice : Nat → List α, (∀ k, Arrangement before rows (choice k)) →
    ∀ pages, rows.length ≤ pages * limit →
      (walk limit distinct choice pages).Perm (distinct rows)

variable {distinct : List α → List α}

theorem mem_take_pages {x : α} (xs : List α) (pages : Nat) :
    x ∈ xs.take (pages * limit) ↔ ∃ k < pages, x ∈ window limit xs k := by
  induction pages with
  | zero => simp
  | succ pages ih =>
      rw [take_succ_window, List.mem_append, ih]
      constructor
      · rintro (⟨k, hk, hx⟩ | hx)
        · exact ⟨k, by omega, hx⟩
        · exact ⟨pages, by omega, hx⟩
      · rintro ⟨k, hk, hx⟩
        by_cases hlast : k = pages
        · exact .inr (hlast ▸ hx)
        · exact .inl ⟨k, by omega, hx⟩

theorem mem_walk {choice : Nat → List α} {pages : Nat} (hdistinct : Distinct distinct) {x : α} :
    x ∈ walk limit distinct choice pages ↔ ∃ k < pages, x ∈ window limit (choice k) k := by
  unfold walk
  simp only [List.mem_flatMap, List.mem_range, (hdistinct _).2]

/-- Strict boundaries are enough. -/
theorem eachOnce_of_untied (hbefore : Preorder before) (hdistinct : Distinct distinct)
    (h : Arrangement before rows arranged) (hlimit : 0 < limit)
    (huntied : Untied before limit arranged) : EachOnce before limit distinct rows := by
  intro choice hchoice pages hpages
  have hwindow : ∀ k, (window limit (choice k) k).Perm (window limit arranged k) :=
    fun k => window_perm hbefore h (hchoice k) huntied hlimit k
  refine (List.perm_ext_iff_of_nodup ?_ (hdistinct rows).1).mpr fun x => ?_
  · unfold walk
    rw [List.nodup_flatMap]
    refine ⟨fun k _ => (hdistinct _).1, List.pairwise_lt_range.imp ?_⟩
    intro j k hjk x hxj hxk
    rw [(hdistinct _).2, (hwindow _).mem_iff] at hxj hxk
    exact windows_disjoint hbefore h.ordered huntied hjk hxj hxk
  · rw [mem_walk hdistinct, (hdistinct rows).2, ← h.perm.mem_iff]
    simp only [(hwindow _).mem_iff]
    rw [← mem_take_pages, List.take_of_length_le]
    rw [h.perm.length_eq]
    exact hpages

theorem swap_boundary (h : Arrangement before rows arranged) {p : Nat} {x y : α} (hp : 0 < p)
    (hx : arranged[p - 1]? = some x) (hy : arranged[p]? = some y) (htied : before y x = true) :
    ∃ swapped, Arrangement before rows swapped ∧ swapped[p]? = some x := by
  obtain ⟨hsplit, hlength⟩ := split_boundary hp hx hy
  generalize arranged.take (p - 1) = low at hsplit hlength
  generalize arranged.drop (p + 1) = high at hsplit
  have hperm : (low ++ y :: x :: high).Perm arranged := by
    rw [hsplit]
    exact (List.Perm.swap x y high).append_left low
  refine ⟨low ++ y :: x :: high, ⟨hperm.trans h.perm, ?_⟩, ?_⟩
  · have hordered := h.ordered
    rw [hsplit, List.pairwise_append, List.pairwise_cons, List.pairwise_cons] at hordered
    obtain ⟨hlow, ⟨hxs, hys, hhigh⟩, hcross⟩ := hordered
    rw [List.pairwise_append, List.pairwise_cons, List.pairwise_cons]
    refine ⟨hlow, ⟨?_, fun z hz => hxs z (List.mem_cons_of_mem _ hz), hhigh⟩, ?_⟩
    · intro z hz
      rcases List.mem_cons.mp hz with rfl | hz
      · exact htied
      · exact hys z hz
    · intro z hz z' hz'
      refine hcross z hz z' ?_
      simp only [List.mem_cons] at hz' ⊢
      tauto
  · rw [List.getElem?_append_right (by omega)]
    have hone : p - low.length = 1 := by omega
    rw [hone]
    rfl

/-- And they are necessary: a tied row can be shown on both pages. -/
theorem untied_of_eachOnce (hdistinct : Distinct distinct) (h : Arrangement before rows arranged)
    (hlimit : 0 < limit) (honce : EachOnce before limit distinct rows) :
    Untied before limit arranged := by
  intro k x y hk hx hy
  by_contra htied
  rw [Bool.not_eq_false] at htied
  have hpos : 0 < k * limit := Nat.mul_pos hk hlimit
  obtain ⟨swapped, hswapped, hxs⟩ := swap_boundary h hpos hx hy htied
  let choice : Nat → List α := fun j => if j = k then swapped else arranged
  have hchoice : ∀ j, Arrangement before rows (choice j) := by
    intro j
    unfold choice
    split_ifs
    · exact hswapped
    · exact h
  obtain ⟨pages, hkpages, hpages⟩ : ∃ pages, k < pages ∧ rows.length ≤ pages * limit :=
    ⟨k + rows.length + 1, by omega, by
      calc rows.length ≤ (k + rows.length + 1) * 1 := by omega
        _ ≤ (k + rows.length + 1) * limit := Nat.mul_le_mul_left _ hlimit⟩
  have hnodup : (walk limit distinct choice pages).Nodup :=
    (honce choice hchoice pages hpages).nodup_iff.mpr (hdistinct rows).1
  unfold walk at hnodup
  rw [List.nodup_flatMap] at hnodup
  have hpair := List.pairwise_iff_getElem.mp hnodup.2 (k - 1) k
    (by rw [List.length_range]; omega) (by rw [List.length_range]; omega) (by omega)
  rw [List.getElem_range, List.getElem_range] at hpair
  have hprevious : x ∈ window limit (choice (k - 1)) (k - 1) := by
    have hne : k - 1 ≠ k := by omega
    have hindex : (k - 1) * limit + (limit - 1) = k * limit - 1 := by
      have hsucc : k * limit = (k - 1) * limit + limit := by
        rw [← Nat.succ_mul]
        congr 1
        omega
      omega
    unfold choice
    rw [if_neg hne]
    exact mem_window (i := limit - 1) (by omega) (hindex ▸ hx)
  have hown : x ∈ window limit (choice k) k := by
    unfold choice
    rw [if_pos rfl]
    exact mem_window hlimit hxs
  exact hpair ((hdistinct _).2 x |>.mpr hprevious) ((hdistinct _).2 x |>.mpr hown)

end TicketBooking.Library.Pages
