import Mathlib.Data.Set.Finite.Basic
import Mathlib.Logic.Relation
import Mathlib.Order.WellFounded
import TicketBooking.Library.Sessions
/-!
# Sessions that wait for each other

A session waits for another when it offers a lock that the other one holds.  A
session is deadlocked when it waits, through others, for itself.  Where finitely
many sessions hold locks and every holder has something to do, whoever waits
either waits for a session that can go on, or for a deadlocked one.
-/

namespace TicketBooking.Library.Deadlocks

open Relation
open TicketBooking.Library.Sessions

variable {ι S Row Pc Act : Type*}

/-- Session `i` offers the statement that locks the row. -/
def Asks (P : Protocol ι S Row Pc Act) (w : World ι S Row Pc) (i : ι) (row : Row) : Prop :=
  ∃ a pc, P i w.shared (w.pc i) a = some (.lock row, pc)

/-- Session `i` offers to lock a row that `j` has locked. -/
def Waits (P : Protocol ι S Row Pc Act) (w : World ι S Row Pc) (i j : ι) : Prop :=
  i ≠ j ∧ ∃ row, Asks P w i row ∧ row ∈ w.held j

/-- Session `i` waits, through others, for itself. -/
def Deadlocked (P : Protocol ι S Row Pc Act) (w : World ι S Row Pc) (i : ι) : Prop :=
  TransGen (Waits P w) i i

section Cycles

variable {P : Protocol ι S Row Pc Act} {w : World ι S Row Pc} {i j : ι}

theorem Waits.holds (h : Waits P w i j) : (w.held j).Nonempty := by
  obtain ⟨-, row, -, hrow⟩ := h
  exact ⟨row, hrow⟩

theorem deadlocked_of_waits (h : Waits P w i j) (hback : TransGen (Waits P w) j i) :
    Deadlocked P w i ∧ Deadlocked P w j :=
  ⟨.head h hback, hback.tail h⟩

theorem Deadlocked.waits (h : Deadlocked P w i) : ∃ j, Waits P w i j := by
  obtain ⟨j, hij, -⟩ := TransGen.head'_iff.mp h
  exact ⟨j, hij⟩

theorem Deadlocked.waited (h : Deadlocked P w i) :
    ∃ j, Waits P w j i ∧ TransGen (Waits P w) i j := by
  obtain ⟨j, hij, hji⟩ := TransGen.tail'_iff.mp h
  refine ⟨j, hji, ?_⟩
  rcases reflTransGen_iff_eq_or_transGen.mp hij with rfl | hij
  · exact h
  · exact hij

theorem Deadlocked.holds (h : Deadlocked P w i) : (w.held i).Nonempty := by
  obtain ⟨j, hji, -⟩ := h.waited
  exact hji.holds

/-- What every step along a cycle has, and composes, any two sessions of it have. -/
theorem related_of_cycle {R : ι → ι → Prop} (htrans : ∀ i j k, R i j → R j k → R i k)
    (hstep : ∀ i j, Waits P w i j → TransGen (Waits P w) j i → R i j)
    (hij : TransGen (Waits P w) i j) (hji : TransGen (Waits P w) j i) : R i j := by
  induction hij using TransGen.head_induction_on with
  | single h => exact hstep _ _ h hji
  | @head i k h hkj ih =>
      have hki : TransGen (Waits P w) k i := hkj.trans hji
      exact htrans _ _ _ (hstep _ _ h hki) (ih (hji.tail h))

/-- A rank that no step along a cycle lowers is the same for all of it. -/
theorem rank_of_cycle {α : Type*} [PartialOrder α] (rank : ι → α)
    (hstep : ∀ i j, Waits P w i j → TransGen (Waits P w) j i → rank i ≤ rank j)
    (hij : TransGen (Waits P w) i j) (hji : TransGen (Waits P w) j i) : rank i = rank j := by
  have hle : ∀ {i j}, TransGen (Waits P w) i j → TransGen (Waits P w) j i → rank i ≤ rank j :=
    related_of_cycle (R := fun i j => rank i ≤ rank j) (fun _ _ _ => le_trans) hstep
  exact le_antisymm (hle hij hji) (hle hji hij)

end Cycles

/-! ## Locks taken in order -/

section Ordered

variable {P : Protocol ι S Row Pc Act} {w : World ι S Row Pc} {α : Type*} [Preorder α]

/-- Along a path of waits, the last row is not below the first. -/
theorem rises {rank : Row → α}
    (hordered : ∀ i row held, Asks P w i row → held ∈ w.held i → row ∉ w.held i →
      rank held < rank row)
    {i j : ι} (h : TransGen (Waits P w) i j) :
    ∃ first last, Asks P w i first ∧ first ∉ w.held i ∧ last ∈ w.held j ∧
      rank first ≤ rank last := by
  induction h with
  | single h =>
      obtain ⟨hne, row, hasks, hheld⟩ := h
      refine ⟨row, row, hasks, fun hown => ?_, hheld, le_refl _⟩
      exact hne (w.held_disjoint hown hheld)
  | tail _ h ih =>
      obtain ⟨first, last, hasks, hfree, hlast, hle⟩ := ih
      obtain ⟨hne, row, hrow, hheld⟩ := h
      have hlt : rank last < rank row :=
        hordered _ _ _ hrow hlast fun hown => hne (w.held_disjoint hown hheld)
      exact ⟨first, row, hasks, hfree, hheld, hle.trans hlt.le⟩

/-- Where every session asks only for rows above the ones it holds, none is deadlocked. -/
theorem not_deadlocked_of_ordered (rank : Row → α)
    (hordered : ∀ i row held, Asks P w i row → held ∈ w.held i → row ∉ w.held i →
      rank held < rank row) (i : ι) : ¬ Deadlocked P w i := by
  intro h
  obtain ⟨first, last, hasks, hfree, hlast, hle⟩ := rises hordered h
  exact absurd hle (hordered _ _ _ hasks hlast hfree).not_ge

end Ordered

/-! ## Whom a session waits for -/

section Progress

variable [DecidableEq ι] [DecidableEq Row] {P : Protocol ι S Row Pc Act} {w : World ι S Row Pc}
  {good : Act → Prop}

/-- Session `i` can take one of the good statements. -/
def Movable (P : Protocol ι S Row Pc Act) (good : Act → Prop) (w : World ι S Row Pc) (i : ι) :
    Prop :=
  ∃ a, good a ∧ (w.step P i a).isSome

/-- A statement that is offered runs, or waits for another session. -/
theorem movable_or_waits {i : ι}
    (hnext : ∃ a, good a ∧ (P i w.shared (w.pc i) a).isSome) :
    Movable P good w i ∨ ∃ j, Waits P w i j := by
  obtain ⟨a, ha, hsome⟩ := hnext
  obtain ⟨⟨eff, pc⟩, hP⟩ := Option.isSome_iff_exists.mp hsome
  by_cases hgrant : eff.Granted i w.holder
  · refine .inl ⟨a, ha, ?_⟩
    rw [World.step_eq_some.mpr ⟨eff, pc, hP, hgrant, rfl⟩]
    rfl
  · cases eff with
    | lock row =>
        obtain ⟨hfree, hother⟩ := not_or.mp hgrant
        obtain ⟨j, hj⟩ := Option.ne_none_iff_exists'.mp hfree
        refine .inr ⟨j, fun hij => hother ?_, row, ⟨a, pc, hP⟩, hj⟩
        rw [hj, hij]
    | _ => exact absurd trivial hgrant

/-- Whoever waits, waits for a session that can go on or for a deadlocked one. -/
theorem waits_end (hfinite : {i | (w.held i).Nonempty}.Finite)
    (hnext : ∀ i, (w.held i).Nonempty → ∃ a, good a ∧ (P i w.shared (w.pc i) a).isSome)
    {i j : ι} (h : Waits P w i j) :
    ∃ k, ReflTransGen (Waits P w) j k ∧ (Movable P good w k ∨ Deadlocked P w k) := by
  by_contra hnone
  have hstuck : ∀ k, ReflTransGen (Waits P w) j k →
      ¬ Movable P good w k ∧ ¬ Deadlocked P w k :=
    fun k hk => not_or.mp fun hk' => hnone ⟨k, hk, hk'⟩
  have hholds : ∀ k, ReflTransGen (Waits P w) j k → (w.held k).Nonempty := by
    intro k hk
    rcases hk.cases_tail with rfl | ⟨k', -, hk'⟩
    · exact h.holds
    · exact hk'.holds
  let R : Set ι := {k | ReflTransGen (Waits P w) j k}
  have : Finite R := (hfinite.subset fun k hk => hholds k hk).to_subtype
  let after : R → R → Prop := fun k l => TransGen (Waits P w) l.1 k.1
  have : IsTrans R after := ⟨fun _ _ _ hkl hlm => hlm.trans hkl⟩
  have : Std.Irrefl after := ⟨fun k hk => (hstuck k.1 k.2).2 hk⟩
  -- the waits lead through finitely many sessions, so one of them has no successor
  have hwf : WellFounded after := Finite.wellFounded_of_trans_of_irrefl _
  obtain ⟨last, -, hlast⟩ := hwf.has_min Set.univ ⟨⟨j, .refl⟩, trivial⟩
  rcases movable_or_waits (hnext last.1 (hholds last.1 last.2)) with hmove | ⟨k, hk⟩
  · exact (hstuck last.1 last.2).1 hmove
  · have hreach : ReflTransGen (Waits P w) j k := last.2.tail hk
    exact hlast ⟨k, hreach⟩ trivial (TransGen.single hk)

theorem held_finite {ok : World ι S Row Pc → ι → Act → Prop} {u v : World ι S Row Pc}
    (h : Run P ok u v) (hu : {i | (u.held i).Nonempty}.Finite) :
    {i | (v.held i).Nonempty}.Finite := by
  induction h with
  | refl => exact hu
  | @step v v' i a _ _ hs ih =>
      obtain ⟨eff, pc, -, hgrant, rfl⟩ := World.step_eq_some.mp hs
      refine (ih.insert i).subset fun j hj => ?_
      by_cases hji : j = i
      · exact .inl hji
      · refine .inr ?_
        rwa [Set.mem_ofPred_eq, World.held_after_other v hji eff pc hgrant] at hj

end Progress

end TicketBooking.Library.Deadlocks
