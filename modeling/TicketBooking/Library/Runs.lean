import Mathlib.Logic.Basic
import Mathlib.Tactic.SplitIfs
/-!
# Runs of a system whose operations do not overlap

An operation either moves the state or is not possible in it.  A run is a
sequence of operations, each of which may have to meet a condition on the state
it finds.
-/

namespace TicketBooking.Library.Runs

variable {S Op : Type*}

/-- The states reached from `s` by operations that all meet `ok`. -/
inductive Run (step : S → Op → Option S) (ok : S → Op → Prop) (s : S) : S → Prop
  | refl : Run step ok s s
  | step {t u : S} (op : Op) : Run step ok s t → ok t op → step t op = some u → Run step ok s u

def anyOp : S → Op → Prop := fun _ _ => True

def runAll (step : S → Op → Option S) (s : S) : List Op → Option S
  | [] => some s
  | op :: ops => (step s op).bind fun t => runAll step t ops

def runGuarded (step : S → Op → Option S) (ok : S → Op → Prop) [∀ s op, Decidable (ok s op)]
    (s : S) : List Op → Option S
  | [] => some s
  | op :: ops => if ok s op then (step s op).bind fun t => runGuarded step ok t ops else none

namespace Run

variable {step : S → Op → Option S} {ok : S → Op → Prop} {s t u : S}

theorem trans (hst : Run step ok s t) (htu : Run step ok t u) : Run step ok s u := by
  induction htu with
  | refl => exact hst
  | step op _ hok hs ih => exact .step op ih hok hs

theorem of_runAll {ops : List Op} {s t : S} (h : runAll step s ops = some t) :
    Run step anyOp s t := by
  induction ops generalizing s with
  | nil =>
      cases h
      exact .refl
  | cons op ops ih =>
      obtain ⟨u, hu, hrest⟩ := Option.bind_eq_some_iff.mp h
      exact (Run.step op .refl trivial hu).trans (ih hrest)

theorem of_runGuarded [∀ s op, Decidable (ok s op)] {ops : List Op} {s t : S}
    (h : runGuarded step ok s ops = some t) : Run step ok s t := by
  induction ops generalizing s with
  | nil =>
      cases h
      exact .refl
  | cons op ops ih =>
      unfold runGuarded at h
      split_ifs at h with hok
      obtain ⟨u, hu, hrest⟩ := Option.bind_eq_some_iff.mp h
      exact (Run.step op .refl hok hu).trans (ih hrest)

/-- A property every operation keeps holds along every run. -/
theorem invariant {I : S → Prop} (hstep : ∀ t u op, I t → ok t op → step t op = some u → I u)
    (h : Run step ok s t) (hs : I s) : I t := by
  induction h with
  | refl => exact hs
  | step op _ hok hs' ih => exact hstep _ _ op ih hok hs'

end Run

end TicketBooking.Library.Runs
