import Mathlib.Data.List.Nodup
import TicketBooking.Library.Sessions
/-!
# Linearization points

A run of concurrent sessions is compared with the same calls made one after
another.  Every session has one statement that decides its result; if the
serial call, made at that point, has the same result and leaves a matching
state, the whole run has a serial order.
-/

namespace TicketBooking.Library.Sessions

variable {ι S Row Pc Act T V : Type*}

/-- The calls of `log`, one after another: each one's result, and the last state. -/
def serially (call : T → ι → V × T) : T → List ι → List (ι × V) × T
  | t, [] => ([], t)
  | t, i :: rest =>
      ((i, (call t i).1) :: (serially call (call t i).2 rest).1,
        (serially call (call t i).2 rest).2)

theorem serially_concat (call : T → ι → V × T) (t : T) (log : List ι) (i : ι) :
    serially call t (log ++ [i]) =
      ((serially call t log).1 ++ [(i, (call (serially call t log).2 i).1)],
        (call (serially call t log).2 i).2) := by
  induction log generalizing t with
  | nil => rfl
  | cons j rest ih =>
      rw [List.cons_append, serially, ih]
      rfl

variable [DecidableEq ι] [DecidableEq Row]

/-- `log` is a serial order of the sessions of `w` that have their result. -/
structure Linearized (call : T → ι → V × T) (decided : ι → Pc → Option V) (C : S → T → Prop) (t : T)
    (w : World ι S Row Pc) (log : List ι) : Prop where
  nodup : log.Nodup
  mem : ∀ i, i ∈ log ↔ (decided i (w.pc i)).isSome
  result : ∀ i v, decided i (w.pc i) = some v → (i, v) ∈ (serially call t log).1
  state : C w.shared (serially call t log).2

variable {O : Outline ι S Row Pc} {P : Protocol ι S Row Pc Act}
  {ok : World ι S Row Pc → ι → Act → Prop} {call : T → ι → V × T} {decided : ι → Pc → Option V}
  {C : S → T → Prop}

/-- A statement either decides nothing and keeps the states matching, or it
decides its session's result as the serial call would now. -/
def Linear (O : Outline ι S Row Pc) (P : Protocol ι S Row Pc Act)
    (ok : World ι S Row Pc → ι → Act → Prop) (call : T → ι → V × T) (decided : ι → Pc → Option V)
    (C : S → T → Prop) : Prop :=
  ∀ w i a eff pc t, O.Valid w → ok w i a → P i w.shared (w.pc i) a = some (eff, pc) →
    C w.shared t →
      (decided i pc = decided i (w.pc i) ∧ C (eff.apply w.shared) t) ∨
      (decided i (w.pc i) = none ∧ decided i pc = some (call t i).1 ∧
        C (eff.apply w.shared) (call t i).2)

theorem Linearized.step (hlinear : Linear O P ok call decided C) {w w' : World ι S Row Pc} {i : ι}
    {a : Act} {t : T} {log : List ι} (hO : O.Valid w) (hok : ok w i a) (hs : w.step P i a = some w')
    (h : Linearized call decided C t w log) :
    ∃ log', Linearized call decided C t w' log' := by
  obtain ⟨eff, pc, hP, -, rfl⟩ := World.step_eq_some.mp hs
  rcases hlinear w i a eff pc _ hO hok hP h.state with ⟨hsame, hstate⟩ | ⟨hnone, hnow, hstate⟩
  · have hpc : ∀ j, decided j ((w.after i eff pc).pc j) = decided j (w.pc j) := by
      intro j
      by_cases hj : j = i
      · subst hj
        rw [World.after_pc_self, hsame]
      · rw [World.after_pc_other w hj]
    refine ⟨log, h.nodup, fun j => ?_, fun j v hv => ?_, hstate⟩
    · rw [hpc]
      exact h.mem j
    · rw [hpc] at hv
      exact h.result j v hv
  · have hnew : i ∉ log := by
      intro hmem
      have hsome := (h.mem i).mp hmem
      rw [hnone] at hsome
      cases hsome
    refine ⟨log ++ [i], ?_, fun j => ?_, fun j v hv => ?_, ?_⟩
    · rw [List.nodup_append]
      refine ⟨h.nodup, List.nodup_singleton i, fun a ha b hb => ?_⟩
      rw [List.mem_singleton.mp hb]
      rintro rfl
      exact hnew ha
    · rw [List.mem_append, List.mem_singleton]
      by_cases hj : j = i
      · subst hj
        rw [World.after_pc_self, hnow]
        simp
      · rw [World.after_pc_other w hj, h.mem j]
        simp [hj]
    · rw [serially_concat]
      by_cases hj : j = i
      · subst hj
        rw [World.after_pc_self, hnow] at hv
        cases hv
        exact List.mem_append_right _ (List.mem_singleton_self _)
      · rw [World.after_pc_other w hj] at hv
        exact List.mem_append_left _ (h.result j v hv)
    · rw [serially_concat]
      exact hstate

/-- Every run whose statements are linear has a serial order. -/
theorem Run.linearized (hO : O.Sound P ok) (hlinear : Linear O P ok call decided C)
    {w w' : World ι S Row Pc} (h : Run P ok w w') (hw : O.Valid w)
    (hnone : ∀ i, decided i (w.pc i) = none) {t : T} (ht : C w.shared t) :
    ∃ log, Linearized call decided C t w' log := by
  induction h with
  | refl =>
      refine ⟨[], List.nodup_nil, fun i => ?_, fun i v hv => ?_, ht⟩
      · rw [hnone]
        simp
      · rw [hnone] at hv
        cases hv
  | step hrun hok hs ih =>
      obtain ⟨log, hlog⟩ := ih
      exact hlog.step hlinear (hO.run hrun hw) hok hs

end TicketBooking.Library.Sessions
