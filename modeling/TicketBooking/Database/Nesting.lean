import Mathlib.Data.List.Infix
import TicketBooking.Database.UnitOfWork
/-!
# Nested blocks on one unit of work

What the counters of the unit are after any program, whatever calls of the
session fail; and what becomes of the changes when none does.
-/

namespace TicketBooking.Database.UnitOfWork

variable {σ : Type} {fails : Nat → Bool} {level : Nat} {w w' : World σ}

/-! ## Depth and failures -/

/-- How often `begin_nested` has raised. -/
def failures (w : World σ) : Nat :=
  (w.history.filter fun r => r matches .beginNestedFailed).length

theorem failures_eq_zero : failures w = 0 ↔ .beginNestedFailed ∉ w.history := by
  unfold failures
  rw [List.length_eq_zero_iff, List.filter_eq_nil_iff]
  constructor
  · intro h hmem
    exact h _ hmem rfl
  · intro h r hr
    cases r with
    | beginNestedFailed => exact absurd hr h
    | _ => simp

theorem failures_record (w : World σ) (r : Record σ) :
    failures (w.record r) = failures w + if r matches .beginNestedFailed then 1 else 0 := by
  unfold failures World.record
  rw [List.filter_append, List.length_append]
  cases r <;> simp

/-- The unit's depth grows by one with every block that is entered and not left,
and with every `begin_nested` that raises. -/
structure Balanced (w w' : World σ) : Prop where
  depth : w'.unit.depth + failures w = w.unit.depth + failures w'
  history : w.history <+: w'.history

theorem Balanced.refl (w : World σ) : Balanced w w := ⟨rfl, List.prefix_rfl⟩

theorem Balanced.trans {u v w : World σ} (huv : Balanced u v) (hvw : Balanced v w) :
    Balanced u w where
  depth := by
    have h₁ := huv.depth
    have h₂ := hvw.depth
    omega
  history := huv.history.trans hvw.history

theorem Balanced.failures_le (h : Balanced w w') : failures w ≤ failures w' :=
  (h.history.sublist.filter _).length_le

/-- A record of anything else leaves the balance. -/
theorem balanced_record {r : Record σ} (hr : (r matches .beginNestedFailed) = false) :
    Balanced w (w.record r) where
  depth := by
    rw [failures_record, hr]
    rfl
  history := List.prefix_append _ _

theorem balanced_mark (level : Nat) (w : World σ) : Balanced w (mark level w) := by
  unfold mark
  split
  · exact ⟨rfl, List.prefix_rfl⟩
  · exact balanced_record rfl

theorem balanced_leave (level : Nat) (raised : Bool) (before : View σ) (w : World σ) :
    Balanced w (leave level raised before w) := by
  unfold leave
  split
  · exact balanced_record rfl
  · exact balanced_record rfl

theorem balanced_write (repository : String) (change : σ → σ) (w : World σ) :
    Balanced w (write repository change w).2 := by
  unfold write
  split
  · exact .refl w
  · rename_i session _
    refine (balanced_record (w := w)
      (r := .wrote w.unit.isReadonly session.current (change session.current)) rfl).trans ⟨?_, ?_⟩
    · dsimp only
      split <;> rfl
    · dsimp only
      split <;> exact List.prefix_rfl

theorem balanced_commit (fails : Nat → Bool) (level : Nat) (w : World σ) :
    Balanced w (commit fails level w).2 := by
  unfold commit
  split
  · exact .refl w
  · split
    · split
      · exact ⟨rfl, List.prefix_rfl⟩
      · refine (balanced_record (r := .sessionCommit level w.unit.isReadonly) rfl).trans ⟨?_, ?_⟩
        · dsimp only
          split <;> rfl
        · dsimp only
          split <;> exact List.prefix_rfl
    · exact .refl w

theorem aenter_depth (fails : Nat → Bool) (w : World σ) :
    (aenter fails w).2.unit.depth = w.unit.depth + 1 ∧ w.history <+: (aenter fails w).2.history ∧
      failures (aenter fails w).2 =
        failures w + if (aenter fails w).1 = .raised then 1 else 0 := by
  have hopen : w.openSession.unit.depth = w.unit.depth ∧ w.openSession.history = w.history := by
    unfold World.openSession
    split <;> exact ⟨rfl, rfl⟩
  obtain ⟨hdepth, hhistory⟩ := hopen
  have hfailures : failures w.openSession = failures w := by
    unfold failures
    rw [hhistory]
  unfold aenter
  dsimp only
  split
  · split
    · refine ⟨by simp [World.record, World.called, World.setUnit, hdepth], ?_, ?_⟩
      · simp [World.record, World.called, World.setUnit, hhistory]
      · rw [failures_record, ← hfailures]
        rfl
    · refine ⟨by simp [World.called, World.setUnit, World.beginNested, World.setSession, hdepth],
        ?_, ?_⟩
      · simp [World.called, World.setUnit, World.beginNested, World.setSession, hhistory]
      · rw [← hfailures]
        rfl
  · refine ⟨by simp [World.setUnit, hdepth], by simp [World.setUnit, hhistory], ?_⟩
    rw [← hfailures]
    rfl

/-- The world in which `__aenter__` runs. -/
inductive Entering (w : World σ) : Mode → World σ → Prop
  | readWrite : Entering w .readWrite w
  | readonly (hmode : w.unit.session.isSome → w.unit.isReadonly) :
      Entering w .readonly (w.setUnit fun unit => { unit with isReadonly := true })

/-- A block is refused by `as_readonly`, or `__aenter__` decides. -/
theorem enter_cases {mode : Mode} {outcome : Outcome} (h : enter fails mode w = (outcome, w')) :
    (outcome = .raised ∧ w' = w) ∨ ∃ v, Entering w mode v ∧ aenter fails v = (outcome, w') := by
  cases mode with
  | readWrite => exact .inr ⟨w, .readWrite, h⟩
  | readonly =>
      by_cases hmode : w.unit.session.isSome ∧ ¬ w.unit.isReadonly
      · have hnone : w.unit.asReadonly = none := if_pos hmode
        simp only [enter, hnone] at h
        cases h
        exact .inl ⟨rfl, rfl⟩
      · have hsome : w.unit.asReadonly = some { w.unit with isReadonly := true } := if_neg hmode
        simp only [enter, hsome] at h
        refine .inr ⟨_, .readonly fun hsession => ?_, h⟩
        by_contra hread
        exact hmode ⟨hsession, hread⟩

theorem Entering.keeps {mode : Mode} {v : World σ} (h : Entering w mode v) :
    v.unit.depth = w.unit.depth ∧ v.history = w.history ∧ failures v = failures w := by
  cases h <;> exact ⟨rfl, rfl, rfl⟩

theorem enter_depth {mode : Mode} {outcome : Outcome} (h : enter fails mode w = (outcome, w')) :
    (outcome = .raised ∧ w' = w) ∨
      w'.unit.depth = w.unit.depth + 1 ∧ w.history <+: w'.history ∧
        failures w' = failures w + if outcome = .raised then 1 else 0 := by
  rcases enter_cases h with hrefused | ⟨v, hv, haenter⟩
  · exact .inl hrefused
  · obtain ⟨hdepth, hhistory, hfailures⟩ := aenter_depth fails v
    obtain ⟨hdepth', hhistory', hfailures'⟩ := hv.keeps
    rw [haenter] at hdepth hhistory hfailures
    rw [hdepth'] at hdepth
    rw [hhistory'] at hhistory
    rw [hfailures'] at hfailures
    exact .inr ⟨hdepth, hhistory, hfailures⟩

theorem balanced_enter_raised {mode : Mode} (h : enter fails mode w = (.raised, w')) :
    Balanced w w' := by
  rcases enter_depth h with ⟨-, rfl⟩ | ⟨hdepth, hhistory, hfailures⟩
  · exact .refl w'
  · refine ⟨?_, hhistory⟩
    rw [if_pos rfl] at hfailures
    omega

theorem enter_normal_depth {mode : Mode} (h : enter fails mode w = (.normal, w')) :
    w'.unit.depth = w.unit.depth + 1 ∧ w.history <+: w'.history ∧ failures w' = failures w := by
  rcases enter_depth h with ⟨hraised, -⟩ | ⟨hdepth, hhistory, hfailures⟩
  · cases hraised
  · exact ⟨hdepth, hhistory, by simpa using hfailures⟩

def popped (w : World σ) (stack : List Nat) : World σ :=
  (countedOut w).called.setUnit fun unit => { unit with transactionStack := stack }

/-- What `__aexit__` can do. -/
inductive Exits (fails : Nat → Bool) (raised : Bool) (w : World σ) : Outcome × World σ → Prop
  | readonly (hdepth : 0 < w.unit.depth - 1) (hmode : w.unit.isReadonly = true) :
      Exits fails raised w (.normal, countedOut w)
  | indexError (hdepth : 0 < w.unit.depth - 1) (hmode : w.unit.isReadonly = false)
      (hstack : w.unit.transactionStack = []) :
      Exits fails raised w (.raised, (countedOut w).record .poppedEmpty)
  | savepointFails {id : Nat} {stack : List Nat} (hdepth : 0 < w.unit.depth - 1)
      (hmode : w.unit.isReadonly = false) (hstack : w.unit.transactionStack = id :: stack)
      (hfails : fails w.calls = true) : Exits fails raised w (.raised, popped w stack)
  | rollback {id : Nat} {stack : List Nat} (hdepth : 0 < w.unit.depth - 1)
      (hmode : w.unit.isReadonly = false) (hstack : w.unit.transactionStack = id :: stack)
      (hraised : raised = true) :
      Exits fails raised w ((popped w stack).savepointRollback id)
  | commit {id : Nat} {stack : List Nat} (hdepth : 0 < w.unit.depth - 1)
      (hmode : w.unit.isReadonly = false) (hstack : w.unit.transactionStack = id :: stack)
      (hraised : raised = false) :
      Exits fails raised w ((popped w stack).savepointCommit id)
  | rollbackFails (hdepth : ¬ 0 < w.unit.depth - 1) (hfails : fails w.calls = true) :
      Exits fails raised w (.raised, finish (countedOut w).called)
  | rolledBack (hdepth : ¬ 0 < w.unit.depth - 1) :
      Exits fails raised w (.normal, finish (countedOut w).called.sessionRollback)
  | closed (hdepth : ¬ 0 < w.unit.depth - 1) :
      Exits fails raised w (.normal, finish (countedOut w))
  | nothing (hdepth : ¬ 0 < w.unit.depth - 1) (hsession : w.unit.session.isSome = false) :
      Exits fails raised w (.normal, countedOut w)

theorem aexit_cases (fails : Nat → Bool) (raised : Bool) (w : World σ) :
    Exits fails raised w (aexit fails raised w) := by
  unfold aexit
  dsimp only
  split
  · rename_i hdepth
    split
    · rename_i hmode
      exact .readonly hdepth hmode
    · rename_i hmode
      have hread : w.unit.isReadonly = false := Bool.eq_false_iff.mpr hmode
      split
      · rename_i hstack
        exact .indexError hdepth hread hstack
      · rename_i id stack hstack
        split
        · rename_i hfails
          exact .savepointFails hdepth hread hstack hfails
        · split
          · rename_i hraised
            exact .rollback hdepth hread hstack hraised
          · rename_i hraised
            exact .commit hdepth hread hstack (Bool.eq_false_iff.mpr hraised)
  · rename_i hdepth
    split
    · split
      · split
        · rename_i hfails
          exact .rollbackFails hdepth hfails
        · exact .rolledBack hdepth
      · exact .closed hdepth
    · rename_i hsession
      exact .nothing hdepth (Bool.eq_false_iff.mpr hsession)

theorem savepointRollback_keeps (w : World σ) (id : Nat) :
    (w.savepointRollback id).2.unit.session.isSome = w.unit.session.isSome ∧
      (w.savepointRollback id).2.unit.transactionStack = w.unit.transactionStack ∧
      (w.savepointRollback id).2.unit.isReadonly = w.unit.isReadonly ∧
      (w.savepointRollback id).2.unit.depth = w.unit.depth ∧
      (w.savepointRollback id).2.openSessions = w.openSessions ∧
      (w.savepointRollback id).2.history = w.history := by
  unfold World.savepointRollback
  split <;> simp [World.setSession, World.setUnit]

theorem savepointCommit_keeps (w : World σ) (id : Nat) :
    (w.savepointCommit id).2.unit.session.isSome = w.unit.session.isSome ∧
      (w.savepointCommit id).2.unit.transactionStack = w.unit.transactionStack ∧
      (w.savepointCommit id).2.unit.isReadonly = w.unit.isReadonly ∧
      (w.savepointCommit id).2.unit.depth = w.unit.depth ∧
      (w.savepointCommit id).2.openSessions = w.openSessions ∧
      (w.savepointCommit id).2.history =
        w.history ++ [.savepointCommit w.unit.isReadonly] := by
  unfold World.savepointCommit
  dsimp only
  split <;> simp [World.setSession, World.setUnit, World.record]

theorem aexit_depth (fails : Nat → Bool) (raised : Bool) (w : World σ) :
    (aexit fails raised w).2.unit.depth = w.unit.depth - 1 ∧
      w.history <+: (aexit fails raised w).2.history ∧
      failures (aexit fails raised w).2 = failures w := by
  have hfailures : ∀ {v : World σ}, v.history = w.history → failures v = failures w := by
    intro v hv
    unfold failures
    rw [hv]
  have hrecord : ∀ {v : World σ} {r : Record σ}, (r matches .beginNestedFailed) = false →
      v.history = w.history ++ [r] → failures v = failures w := by
    intro v r hr hv
    have hcount := failures_record w r
    rw [hr] at hcount
    unfold failures at hcount ⊢
    rw [hv]
    exact hcount
  have hexits := aexit_cases fails raised w
  generalize aexit fails raised w = result at hexits ⊢
  cases hexits with
  | indexError => exact ⟨rfl, List.prefix_append _ _, hrecord rfl rfl⟩
  | @rollback id stack =>
      obtain ⟨-, -, -, hdepth, -, hhistory⟩ := savepointRollback_keeps (popped w stack) id
      exact ⟨hdepth, by rw [hhistory]; exact List.prefix_rfl, hfailures hhistory⟩
  | @commit id stack =>
      obtain ⟨-, -, -, hdepth, -, hhistory⟩ := savepointCommit_keeps (popped w stack) id
      exact ⟨hdepth, by rw [hhistory]; exact List.prefix_append _ _, hrecord rfl hhistory⟩
  | _ => exact ⟨rfl, List.prefix_rfl, hfailures rfl⟩

/-- A block that was entered is left with the balance it was entered with. -/
theorem balanced_block {mode : Mode} {before : View σ} {entered : World σ}
    {result : Outcome × World σ} (henter : enter fails mode w = (.normal, entered))
    (hinner : Balanced entered result.2) :
    Balanced w (exitBlock fails level before result).2 := by
  obtain ⟨hdepth, hhistory, hfailures⟩ := enter_normal_depth henter
  obtain ⟨hdepth', hhistory', hfailures'⟩ := aexit_depth fails (result.1 = .raised) result.2
  have hexited : Balanced w (aexit fails (result.1 = .raised) result.2).2 := by
    refine ⟨?_, (hhistory.trans hinner.history).trans hhistory'⟩
    have hbalance := hinner.depth
    have hle := hinner.failures_le
    omega
  exact hexited.trans (balanced_leave _ _ _ _)

theorem run_relates {R : Nat → World σ → World σ → Prop}
    (htrans : ∀ {level : Nat} {u v w : World σ}, R level u v → R level v w → R level u w)
    (hmark : ∀ level w, R level w (mark level w))
    (hwrite : ∀ level repository change w, R level w (write repository change w).2)
    (hcommit : ∀ level w, R level w (commit fails level w).2)
    (hrefused : ∀ {level : Nat} {mode : Mode} {w w' : World σ},
      enter fails mode w = (.raised, w') → R level w w')
    (hblock : ∀ {level : Nat} {mode : Mode} {w entered : World σ} {result : Outcome × World σ},
      enter fails mode w = (.normal, entered) → R (level + 1) entered result.2 →
        R level w (exitBlock fails level w.view result).2)
    (level : Nat) (body : Body σ) (w : World σ) : R level w (run fails level body w).2 := by
  induction body generalizing level w with
  | done => exact hmark level w
  | raise => exact hmark level w
  | write repository change rest ih =>
      unfold run
      have hstep := htrans (hmark level w) (hwrite level repository change (mark level w))
      split
      · rename_i v hv
        rwa [hv] at hstep
      · rename_i v hv
        rw [hv] at hstep
        exact htrans hstep (ih level v)
  | commit rest ih =>
      unfold run
      have hstep := htrans (hmark level w) (hcommit level (mark level w))
      split
      · rename_i v hv
        rwa [hv] at hstep
      · rename_i v hv
        rw [hv] at hstep
        exact htrans hstep (ih level v)
  | block mode inner rest ihInner ihRest =>
      unfold run
      have hview : (mark level w).view = w.view := by
        unfold mark
        split <;> rfl
      split
      · rename_i v hv
        exact htrans (hmark level w) (hrefused hv)
      · rename_i v hv
        have hleft := htrans (hmark level w) (hblock hv (ihInner (level + 1) v))
        rw [hview] at hleft
        split
        · rename_i u hu
          rwa [hu] at hleft
        · rename_i u hu
          rw [hu] at hleft
          exact htrans hleft (ihRest level u)
  | attempt inner rest ihInner ihRest =>
      unfold run
      exact htrans (ihInner level w) (ihRest level _)

theorem balanced_run (fails : Nat → Bool) (level : Nat) (body : Body σ) (w : World σ) :
    Balanced w (run fails level body w).2 :=
  run_relates (R := fun _ => Balanced) .trans balanced_mark
    (fun _ => balanced_write) (balanced_commit fails) balanced_enter_raised balanced_block
    level body w

/-! ## The representation of the unit -/

/-- What the record shows about the unit: inside a read-write block one savepoint
for each block but the outermost, no pop of an empty stack, no commit in
read-only mode, and outside the blocks the unit its constructor makes, with its
session closed. -/
def Record.Represents : Record σ → Prop
  | .inside unit => unit.isReadonly = false → unit.transactionStack.length + 1 = unit.depth
  | .poppedEmpty => False
  | .sessionCommit _ isReadonly => isReadonly = false
  | .savepointCommit isReadonly => isReadonly = false
  | .closed unit openSessions _ _ => unit = {} ∧ openSessions = 0
  | _ => True

def Represented (w : World σ) : Prop := ∀ r ∈ w.history, r.Represents

theorem Represented.record {r : Record σ} (hw : Represented w) (hr : r.Represents) :
    Represented (w.record r) := by
  intro r' hr'
  rcases List.mem_append.mp hr' with h | h
  · exact hw r' h
  · rw [List.mem_singleton.mp h]
    exact hr

theorem Represented.of_history {v : World σ} (hw : Represented w) (h : v.history = w.history) :
    Represented v := by
  intro r hr
  rw [h] at hr
  exact hw r hr

structure Held (level : Nat) (w : World σ) : Prop where
  session : w.unit.session.isSome
  openSessions : w.openSessions = 1
  depth : w.unit.depth = level
  stack : w.unit.transactionStack.length + 1 = if w.unit.isReadonly then 1 else level

def Entered (level : Nat) (w : World σ) : Prop :=
  if level = 0 then w.unit = {} ∧ w.openSessions = 0 else Held level w

theorem Entered.held (h : Entered level w) (hlevel : level ≠ 0) : Held level w := by
  unfold Entered at h
  rwa [if_neg hlevel] at h

theorem Held.congr {v : World σ} (h : Held level w)
    (hsession : v.unit.session.isSome = w.unit.session.isSome)
    (hstack : v.unit.transactionStack = w.unit.transactionStack)
    (hmode : v.unit.isReadonly = w.unit.isReadonly) (hdepth : v.unit.depth = w.unit.depth)
    (hopen : v.openSessions = w.openSessions) : Held level v where
  session := hsession.trans h.session
  openSessions := hopen.trans h.openSessions
  depth := hdepth.trans h.depth
  stack := by rw [hstack, hmode, h.stack]

theorem entered_of_held (hlevel : level ≠ 0) (h : Held level w) : Entered level w := by
  unfold Entered
  rwa [if_neg hlevel]

theorem Entered.initial (h : Entered 0 w) : w.unit = {} ∧ w.openSessions = 0 := h

theorem entered_mark (hw : Entered level w) (hrep : Represented w) :
    Entered level (mark level w) ∧ Represented (mark level w) := by
  unfold mark
  by_cases hlevel : level = 0
  · subst hlevel
    exact ⟨hw, hrep⟩
  · rw [if_neg hlevel]
    have hheld := hw.held hlevel
    refine ⟨entered_of_held hlevel ⟨hheld.session, hheld.openSessions, hheld.depth, hheld.stack⟩,
      hrep.record fun hmode => ?_⟩
    have hstack := hheld.stack
    rw [if_neg (by simp [hmode])] at hstack
    rw [hstack, hheld.depth]

theorem entered_write (repository : String) (change : σ → σ) (hw : Entered level w)
    (hrep : Represented w) :
    Entered level (write repository change w).2 ∧ Represented (write repository change w).2 := by
  unfold write
  split
  · exact ⟨hw, hrep⟩
  · rename_i session hsession
    by_cases hlevel : level = 0
    · subst hlevel
      rw [hw.initial.1] at hsession
      cases hsession
    · obtain ⟨-, hopen, hdepth, hstack⟩ := hw.held hlevel
      have hwrote : Represented (w.record
          (.wrote w.unit.isReadonly session.current (change session.current))) :=
        hrep.record trivial
      dsimp only
      split
      all_goals
        refine ⟨entered_of_held hlevel ⟨?_, hopen, hdepth, hstack⟩, hwrote⟩
        simp [World.setSession, World.setUnit, World.record, hsession]

theorem entered_commit (fails : Nat → Bool) (hw : Entered level w) (hrep : Represented w) :
    Entered level (commit fails level w).2 ∧ Represented (commit fails level w).2 := by
  by_cases hlevel : level = 0
  · subst hlevel
    have hnone : w.unit.isReadonly = false ∧ w.unit.session = none := by
      rw [hw.initial.1]
      exact ⟨rfl, rfl⟩
    simp only [commit, hnone.1, hnone.2, Bool.false_eq_true, if_false, Option.isSome_none]
    exact ⟨hw, hrep⟩
  · obtain ⟨hsession, hopen, hdepth, hstack⟩ := hw.held hlevel
    unfold commit
    split
    · exact ⟨hw, hrep⟩
    · rename_i hmode
      split
      · exact ⟨entered_of_held hlevel ⟨hsession, hopen, hdepth, hstack⟩, hrep⟩
      · have hcommitted : Represented (w.record (.sessionCommit level w.unit.isReadonly)) :=
          hrep.record (Bool.eq_false_iff.mpr hmode)
        have hsome : (((w.record (.sessionCommit level w.unit.isReadonly)).called.sessionCommit)
            |>.unit.session).isSome := by
          simpa [World.sessionCommit, World.setSession, World.setUnit, World.called,
            World.record] using hsession
        dsimp only
        split
        all_goals
          exact ⟨entered_of_held hlevel ⟨hsome, hopen, hdepth, hstack⟩, hcommitted⟩

/-- The session `__aenter__` finds or makes. -/
theorem openSession_spec (w : World σ) :
    w.openSession.unit.session.isSome ∧
      w.openSession.openSessions =
        w.openSessions + (if w.unit.session.isSome then 0 else 1) ∧
      w.openSession.unit.depth = w.unit.depth ∧
      w.openSession.unit.transactionStack = w.unit.transactionStack ∧
      w.openSession.unit.isReadonly = w.unit.isReadonly ∧ w.openSession.history = w.history := by
  unfold World.openSession
  split
  · rename_i session hsession
    simp [hsession]
  · rename_i hsession
    simp [hsession]

theorem aenter_held (hw : Entered level w ∨ level = 0 ∧ w.unit = { isReadonly := true } ∧
      w.openSessions = 0) (hrep : Represented w) (h : aenter fails w = (.normal, w')) :
    Held (level + 1) w' ∧ Represented w' := by
  obtain ⟨hsession, hopen, hdepth, hstack, hmode, hhistory⟩ := openSession_spec w
  have hfacts : w.unit.depth = level ∧
      w.openSessions + (if w.unit.session.isSome then 0 else 1) = 1 ∧
      w.unit.transactionStack.length + 1 =
        if w.unit.isReadonly ∨ level = 0 then 1 else level := by
    rcases hw with hw | ⟨rfl, hunit, hnone⟩
    · by_cases hlevel : level = 0
      · subst hlevel
        rw [hw.initial.1, hw.initial.2]
        exact ⟨rfl, rfl, rfl⟩
      · have hheld := hw.held hlevel
        refine ⟨hheld.depth, ?_, ?_⟩
        · rw [hheld.openSessions, if_pos hheld.session]
        · rw [hheld.stack]
          simp [hlevel]
    · rw [hunit, hnone]
      exact ⟨rfl, rfl, rfl⟩
  obtain ⟨hlevel, hcount, hlength⟩ := hfacts
  unfold aenter at h
  dsimp only at h
  split_ifs at h with hnested hfails
  · cases h
  · cases h
    simp only [World.setUnit, hdepth, hlevel, hmode] at hnested
    refine ⟨⟨?_, hopen.trans hcount, ?_, ?_⟩, hrep.of_history hhistory⟩
    · simpa [World.setUnit, World.called, World.beginNested, World.setSession] using hsession
    · simp [World.setUnit, World.called, World.beginNested, World.setSession, hdepth, hlevel]
    · have hread : w.unit.isReadonly = false := by simpa using hnested.2
      have hpos : level ≠ 0 := by omega
      simp only [hread, hpos, Bool.false_eq_true, or_self, if_false] at hlength
      simp [World.setUnit, World.called, World.beginNested, World.setSession, hstack, hmode,
        hread, hlength]
  · cases h
    simp only [World.setUnit, hdepth, hlevel, hmode] at hnested
    refine ⟨⟨hsession, hopen.trans hcount, by simp [World.setUnit, hdepth, hlevel], ?_⟩,
      hrep.of_history hhistory⟩
    simp only [World.setUnit, hstack, hmode, hlength]
    by_cases hread : w.unit.isReadonly
    · simp [hread]
    · have hzero : level = 0 := by
        by_contra hpos
        exact hnested ⟨by omega, hread⟩
      simp [hzero]

theorem enter_held {mode : Mode} (hw : Entered level w) (hrep : Represented w)
    (h : enter fails mode w = (.normal, w')) : Held (level + 1) w' ∧ Represented w' := by
  rcases enter_cases h with ⟨hraised, -⟩ | ⟨v, hv, haenter⟩
  · cases hraised
  · cases hv with
    | readWrite => exact aenter_held (.inl hw) hrep haenter
    | readonly hmode =>
        have hrepSwitched :
            Represented (w.setUnit fun unit => { unit with isReadonly := true }) := hrep
        refine aenter_held ?_ hrepSwitched haenter
        by_cases hlevel : level = 0
        · subst hlevel
          obtain ⟨hunit, hopen⟩ := hw.initial
          exact .inr ⟨rfl, by simp [World.setUnit, hunit], hopen⟩
        · obtain ⟨hsession, hopen, hdepth, hstack⟩ := hw.held hlevel
          have hread : w.unit.isReadonly = true := hmode hsession
          rw [hread] at hstack
          exact .inl (entered_of_held hlevel ⟨hsession, hopen, hdepth, hstack⟩)

theorem enter_refused {mode : Mode} (h : enter fails mode w = (.raised, w'))
    (hfailures : failures w' = 0) : w' = w := by
  rcases enter_depth h with ⟨-, rfl⟩ | ⟨-, -, hcount⟩
  · rfl
  · rw [if_pos rfl] at hcount
    omega

theorem finish_initial (hdepth : w.unit.depth = 0) (hstack : w.unit.transactionStack = [])
    (hopen : w.openSessions = 1) :
    (finish w).unit = {} ∧ (finish w).openSessions = 0 := by
  unfold finish
  simp [hdepth, hstack, hopen]

theorem aexit_entered (fails : Nat → Bool) (raised : Bool) (hw : Held (level + 1) w)
    (hrep : Represented w) :
    Entered level (aexit fails raised w).2 ∧ Represented (aexit fails raised w).2 := by
  obtain ⟨hsession, hopen, hdepth, hstack⟩ := hw
  have houter : ¬ 0 < w.unit.depth - 1 → level = 0 ∧ w.unit.transactionStack = [] := by
    intro hzero
    have hlevel : level = 0 := by omega
    subst hlevel
    refine ⟨rfl, List.eq_nil_of_length_eq_zero ?_⟩
    simpa using hstack
  have hfinish : ∀ v : World σ, ¬ 0 < w.unit.depth - 1 → v.unit.depth = w.unit.depth - 1 →
      v.unit.transactionStack = w.unit.transactionStack → v.openSessions = w.openSessions →
        v.history = w.history → Entered level (finish v) ∧ Represented (finish v) := by
    intro v hzero hv hv' hv'' hhistory
    obtain ⟨hlevel, hnil⟩ := houter hzero
    subst hlevel
    exact ⟨finish_initial (by omega) (hv'.trans hnil) (hv''.trans hopen),
      hrep.of_history hhistory⟩
  have hinner : ∀ {id : Nat} {stack : List Nat}, 0 < w.unit.depth - 1 →
      w.unit.isReadonly = false → w.unit.transactionStack = id :: stack →
        level ≠ 0 ∧ Held level (popped w stack) := by
    intro id stack hpos hmode hids
    rw [hids, hmode] at hstack
    have hlength : stack.length + 1 = level := by simpa using hstack
    refine ⟨by omega, hsession, hopen, ?_, ?_⟩
    · simp [popped, countedOut, World.setUnit, World.called, hdepth]
    · simp [popped, countedOut, World.setUnit, World.called, hmode, hlength]
  have hexits := aexit_cases fails raised w
  generalize aexit fails raised w = result at hexits ⊢
  cases hexits with
  | readonly hpos hmode =>
      rw [hmode] at hstack
      have hheld : Held level (countedOut w) := by
        refine ⟨hsession, hopen, ?_, ?_⟩
        · simp [countedOut, World.setUnit, hdepth]
        · simpa [countedOut, World.setUnit, hmode] using hstack
      exact ⟨entered_of_held (by omega) hheld, hrep⟩
  | indexError hpos hmode hnil =>
      rw [hnil, hmode] at hstack
      simp at hstack
      omega
  | savepointFails hpos hmode hids _ =>
      obtain ⟨hlevel, hheld⟩ := hinner hpos hmode hids
      exact ⟨entered_of_held hlevel hheld, hrep⟩
  | @rollback id stack hpos hmode hids _ =>
      obtain ⟨hlevel, hheld⟩ := hinner hpos hmode hids
      obtain ⟨hs, ht, hm, hd, ho, hh⟩ := savepointRollback_keeps (popped w stack) id
      exact ⟨entered_of_held hlevel (hheld.congr hs ht hm hd ho), hrep.of_history hh⟩
  | @commit id stack hpos hmode hids _ =>
      obtain ⟨hlevel, hheld⟩ := hinner hpos hmode hids
      obtain ⟨hs, ht, hm, hd, ho, hh⟩ := savepointCommit_keeps (popped w stack) id
      have hcommitted : Represented (w.record (.savepointCommit w.unit.isReadonly)) :=
        hrep.record hmode
      exact ⟨entered_of_held hlevel (hheld.congr hs ht hm hd ho), hcommitted.of_history hh⟩
  | rollbackFails hzero _ => exact hfinish _ hzero rfl rfl rfl rfl
  | rolledBack hzero => exact hfinish _ hzero rfl rfl rfl rfl
  | closed hzero => exact hfinish _ hzero rfl rfl rfl rfl
  | nothing _ hnone =>
      rw [hsession] at hnone
      cases hnone

theorem leave_entered (raised : Bool) (before : View σ) (hw : Entered level w)
    (hrep : Represented w) :
    Entered level (leave level raised before w) ∧ Represented (leave level raised before w) := by
  unfold leave
  by_cases hlevel : level = 0
  · subst hlevel
    exact ⟨hw, hrep.record hw.initial⟩
  · rw [if_neg hlevel]
    obtain ⟨hsession, hopen, hdepth, hstack⟩ := hw.held hlevel
    exact ⟨entered_of_held hlevel ⟨hsession, hopen, hdepth, hstack⟩, hrep.record trivial⟩

theorem Balanced.failures_zero (h : Balanced w w') (hzero : failures w' = 0) : failures w = 0 := by
  have hle := h.failures_le
  omega

theorem Balanced.represented (h : Balanced w w') (hrep : Represented w') : Represented w :=
  fun r hr => hrep r (h.history.subset hr)

/-- What a run does for the representation, as long as no `begin_nested` raises. -/
structure Represents (level : Nat) (w w' : World σ) : Prop where
  balanced : Balanced w w'
  entered : Entered level w → Represented w → failures w' = 0 →
    Entered level w' ∧ Represented w'

theorem Represents.trans {u v w : World σ} (huv : Represents level u v)
    (hvw : Represents level v w) : Represents level u w where
  balanced := huv.balanced.trans hvw.balanced
  entered hu hrep hzero := by
    obtain ⟨hv, hrepV⟩ := huv.entered hu hrep (hvw.balanced.failures_zero hzero)
    exact hvw.entered hv hrepV hzero

theorem represents_block {mode : Mode} {entered : World σ} {result : Outcome × World σ}
    (henter : enter fails mode w = (.normal, entered))
    (hinner : Represents (level + 1) entered result.2) :
    Represents level w (exitBlock fails level w.view result).2 where
  balanced := balanced_block henter hinner.balanced
  entered hw hrep hzero := by
    obtain ⟨hheld, hrepHeld⟩ := enter_held hw hrep henter
    obtain ⟨-, -, hexit⟩ := aexit_depth fails (result.1 = .raised) result.2
    have hleft := (balanced_leave _ _ _ _).failures_zero hzero
    rw [hexit] at hleft
    obtain ⟨hin, hrepIn⟩ :=
      hinner.entered (entered_of_held (Nat.succ_ne_zero level) hheld) hrepHeld hleft
    obtain ⟨hout, hrepOut⟩ := aexit_entered fails (result.1 = .raised)
      (hin.held (Nat.succ_ne_zero level)) hrepIn
    exact leave_entered _ _ hout hrepOut

/-- If no `begin_nested` raises, every program keeps the unit as its level asks. -/
theorem represents_run (fails : Nat → Bool) (level : Nat) (body : Body σ) (w : World σ) :
    Represents level w (run fails level body w).2 := by
  refine run_relates .trans ?_ ?_ ?_ ?_ represents_block level body w
  · intro level w
    exact ⟨balanced_mark level w, fun hw hrep _ => entered_mark hw hrep⟩
  · intro level repository change w
    exact ⟨balanced_write repository change w,
      fun hw hrep _ => entered_write repository change hw hrep⟩
  · intro level w
    exact ⟨balanced_commit fails level w, fun hw hrep _ => entered_commit fails hw hrep⟩
  · intro level mode w w' henter
    refine ⟨balanced_enter_raised henter, fun hw hrep hzero => ?_⟩
    rw [enter_refused henter hzero]
    exact ⟨hw, hrep⟩

theorem aenter_outermost (fails : Nat → Bool) (hdepth : w.unit.depth = 0) :
    (aenter fails w).1 = .normal := by
  obtain ⟨-, -, hopened, -, -, -⟩ := openSession_spec w
  unfold aenter
  dsimp only
  rw [if_neg]
  intro hnested
  simp only [World.setUnit, hopened, hdepth] at hnested
  omega

/-- An outermost block that is left with the unit as it was had no failure. -/
theorem exitBlock_of_represented {mode : Mode} {inner : Body σ} {entered : World σ}
    (hw : Entered 0 w) (hzero : failures w = 0)
    (henter : enter fails mode (mark 0 w) = (.normal, entered))
    (hrep : Represented (exitBlock fails 0 w.view (run fails 1 inner entered)).2) :
    Entered 0 (exitBlock fails 0 w.view (run fails 1 inner entered)).2 ∧
      failures (exitBlock fails 0 w.view (run fails 1 inner entered)).2 = 0 := by
  obtain ⟨hdepth, -, hfailures⟩ := enter_normal_depth henter
  obtain ⟨hout, -, hcount⟩ := aexit_depth fails
    ((run fails 1 inner entered).1 = .raised) (run fails 1 inner entered).2
  have hbalance := (balanced_run fails 1 inner entered).depth
  have hclosed := hrep (.closed _ _ _ _)
    (List.mem_append_right _ (List.mem_singleton_self _))
  have hfinal : (aexit fails ((run fails 1 inner entered).1 = .raised)
      (run fails 1 inner entered).2).2.unit.depth = 0 := by
    rw [hclosed.1]
  have hstart : (mark 0 w).unit.depth = 0 := by
    rw [show (mark 0 w).unit = {} from hw.initial.1]
  have hmark : failures (mark 0 w) = 0 := hzero
  have hrecorded : failures (exitBlock fails 0 w.view (run fails 1 inner entered)).2 =
      failures (aexit fails ((run fails 1 inner entered).1 = .raised)
        (run fails 1 inner entered).2).2 := by
    unfold exitBlock leave
    dsimp only
    rw [if_pos rfl, failures_record]
    rfl
  exact ⟨hclosed, by omega⟩

/-- A `begin_nested` that raised shows when the outermost block is left. -/
theorem failures_of_represented {body : Body σ} (hw : Entered 0 w) (hzero : failures w = 0)
    (hrep : Represented (run fails 0 body w).2) :
    Entered 0 (run fails 0 body w).2 ∧ failures (run fails 0 body w).2 = 0 := by
  induction body generalizing w with
  | done => exact ⟨hw, hzero⟩
  | raise => exact ⟨hw, hzero⟩
  | write repository change rest ih =>
      have hnone : (mark 0 w).unit.session = none := by
        rw [show (mark 0 w).unit = {} from hw.initial.1]
      have hwrite : write repository change (mark 0 w) = (.raised, mark 0 w) := by
        unfold write
        split
        · rfl
        · rename_i session hsession
          rw [hnone] at hsession
          cases hsession
      simp only [run, hwrite]
      exact ⟨hw, hzero⟩
  | commit rest ih =>
      have hcommit : commit fails 0 (mark 0 w) = (.normal, mark 0 w) := by
        have hunit : (mark 0 w).unit = {} := hw.initial.1
        simp [commit, hunit]
      simp only [run, hcommit] at hrep ⊢
      exact ih hw hzero hrep
  | block mode inner rest _ ihRest =>
      unfold run at hrep ⊢
      cases henter : enter fails mode (mark 0 w) with
      | mk outcome entered =>
          cases outcome with
          | raised =>
              simp only [henter] at hrep ⊢
              rcases enter_cases henter with ⟨-, rfl⟩ | ⟨v, hv, haenter⟩
              · exact ⟨hw, hzero⟩
              · have hdepth : v.unit.depth = 0 := by
                  rw [hv.keeps.1, show (mark 0 w).unit = {} from hw.initial.1]
                have hnormal := aenter_outermost fails hdepth
                rw [haenter] at hnormal
                cases hnormal
          | normal =>
              simp only [henter] at hrep ⊢
              have hblock : Represented (exitBlock fails 0 w.view (run fails 1 inner entered)).2 →
                  Entered 0 (exitBlock fails 0 w.view (run fails 1 inner entered)).2 ∧
                    failures (exitBlock fails 0 w.view (run fails 1 inner entered)).2 = 0 :=
                exitBlock_of_represented hw hzero henter
              cases hexit : exitBlock fails 0 w.view (run fails 1 inner entered) with
              | mk outcome left =>
                  rw [hexit] at hblock
                  cases outcome with
                  | raised =>
                      simp only [hexit] at hrep ⊢
                      exact hblock hrep
                  | normal =>
                      simp only [hexit] at hrep ⊢
                      obtain ⟨hleft, hfree⟩ :=
                        hblock ((balanced_run fails 0 rest left).represented hrep)
                      exact ihRest hleft hfree hrep
  | attempt inner rest ihInner ihRest =>
      unfold run at hrep ⊢
      obtain ⟨hin, hfree⟩ := ihInner hw hzero ((balanced_run fails 0 rest _).represented hrep)
      exact ihRest hin hfree hrep

/-- Whatever calls of the session raise, the unit keeps its representation exactly
when no `begin_nested` is among them. -/
theorem represented_iff (fails : Nat → Bool) (body : Body σ) (database : σ) :
    (∀ r ∈ (run fails 0 body (.start database)).2.history, r.Represents) ↔
      .beginNestedFailed ∉ (run fails 0 body (.start database)).2.history := by
  have hstart : Entered 0 (World.start database) := ⟨rfl, rfl⟩
  have hempty : Represented (World.start database) := by
    intro r hr
    cases hr
  rw [← failures_eq_zero]
  constructor
  · intro hrep
    exact (failures_of_represented hstart rfl hrep).2
  · intro hzero
    exact ((represents_run fails 0 body _).entered hstart hempty hzero).2

def guardedInner : Body Nat :=
  .block .readWrite (.attempt (.block .readWrite .done .done) .done) .done

/-- The savepoint cannot be opened: the depth stays one too high, the exit of the
outermost block pops the empty stack, and the session is not closed. -/
theorem session_leaked :
    ¬ ∀ r ∈ (run (fun n => n = 0) 0 guardedInner (.start 0)).2.history, r.Represents := by
  intro h
  refine h .poppedEmpty ?_
  simp [run, guardedInner, mark, enter, aenter, exitBlock, aexit, leave, countedOut, World.start,
    World.openSession, World.setUnit, World.called, World.record]

end TicketBooking.Database.UnitOfWork
