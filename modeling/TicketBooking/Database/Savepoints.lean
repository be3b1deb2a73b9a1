import TicketBooking.Database.Nesting
/-!
# Changes inside nested blocks

With a session none of whose calls fail, what an exception undoes and what the
outermost block leaves in the database.
-/

namespace TicketBooking.Database.UnitOfWork

variable {σ : Type} {level : Nat} {w w' : World σ}

/-- A session none of whose calls raise. -/
def reliable : Nat → Bool := fun _ => false

/-- No `commit()` inside a nested block, no change in read-only mode. -/
def Record.Allowed : Record σ → Prop
  | .sessionCommit level _ => level ≤ 1
  | .wrote isReadonly before after => isReadonly = true → after = before
  | _ => True

/-- An inner block left by an exception leaves everything as it found it; the
outermost block, however it is left, leaves the database as its last `commit()`. -/
def Record.Undone : Record σ → Prop
  | .left raised before after => raised = true → after = before
  | .closed _ _ checkpoint database => database = checkpoint
  | _ => True

instance [DecidableEq σ] : DecidablePred (Record.Allowed (σ := σ))
  | .sessionCommit level _ => inferInstanceAs (Decidable (level ≤ 1))
  | .wrote isReadonly before after =>
      inferInstanceAs (Decidable (isReadonly = true → after = before))
  | .inside _ | .beginNestedFailed | .poppedEmpty | .savepointCommit _ | .left _ _ _
  | .closed _ _ _ _ => isTrue trivial

def AllUndone (w : World σ) : Prop := ∀ r ∈ w.history, r.Undone

theorem AllUndone.record {r : Record σ} (hw : AllUndone w) (hr : r.Undone) :
    AllUndone (w.record r) := by
  intro r' hr'
  rcases List.mem_append.mp hr' with h | h
  · exact hw r' h
  · rw [List.mem_singleton.mp h]
    exact hr

/-- The stack names the open savepoints, and a read-only transaction sees what is
committed. -/
structure Tracked (w : World σ) : Prop where
  checkpoint : w.database = w.checkpoint
  mode : ∀ session, w.unit.session = some session → session.autocommit = w.unit.isReadonly
  savepoints : ∀ session, w.unit.session = some session →
    session.savepoints.map Prod.fst = w.unit.transactionStack
  current : ∀ session, w.unit.session = some session → w.unit.isReadonly = true →
    session.current = w.database

/-- What a run inside `level` blocks leaves. -/
structure Framed (level : Nat) (w w' : World σ) : Prop where
  savepoints : w'.unit.session.map Session.savepoints = w.unit.session.map Session.savepoints
  mode : w'.unit.isReadonly = w.unit.isReadonly
  database : 1 < level → w'.database = w.database

theorem Framed.refl (level : Nat) (w : World σ) : Framed level w w := ⟨rfl, rfl, fun _ => rfl⟩

theorem Framed.trans {u v w : World σ} (huv : Framed level u v) (hvw : Framed level v w) :
    Framed level u w where
  savepoints := hvw.savepoints.trans huv.savepoints
  mode := hvw.mode.trans huv.mode
  database hlevel := (hvw.database hlevel).trans (huv.database hlevel)

theorem mark_spec (level : Nat) (w : World σ) :
    (mark level w).unit = w.unit ∧ (mark level w).database = w.database ∧
      (mark level w).view = w.view := by
  unfold mark
  split <;> exact ⟨rfl, rfl, rfl⟩

theorem tracked_mark (level : Nat) (hw : Tracked w) (hu : AllUndone w) :
    Tracked (mark level w) ∧ AllUndone (mark level w) ∧ Framed level w (mark level w) := by
  unfold mark
  split
  · exact ⟨⟨rfl, hw.mode, hw.savepoints, hw.current⟩, hu, ⟨rfl, rfl, fun _ => rfl⟩⟩
  · exact ⟨⟨hw.checkpoint, hw.mode, hw.savepoints, hw.current⟩, hu.record trivial,
      ⟨rfl, rfl, fun _ => rfl⟩⟩

theorem tracked_write (level : Nat) {repository : String} {change : σ → σ} (hw : Tracked w)
    (hu : AllUndone w)
    (hallowed : ∀ r ∈ (write repository change w).2.history, r.Allowed) :
    Tracked (write repository change w).2 ∧ AllUndone (write repository change w).2 ∧
      Framed level w (write repository change w).2 := by
  cases hsession : w.unit.session with
  | none =>
      simp only [write, hsession]
      exact ⟨hw, hu, .refl level w⟩
  | some session =>
      simp only [write, hsession] at hallowed ⊢
      have hsame : w.unit.isReadonly = true → change session.current = session.current := by
        refine hallowed (.wrote w.unit.isReadonly session.current (change session.current)) ?_
        split <;> exact List.mem_append_right _ (List.mem_singleton_self _)
      -- in AUTOCOMMIT the statement is committed, with what was there
      have hdatabase : (if session.autocommit then change session.current else w.database) =
          w.database := by
        by_cases hread : w.unit.isReadonly
        · rw [hw.mode session hsession, if_pos hread, hsame hread]
          exact hw.current session hsession hread
        · rw [hw.mode session hsession, if_neg hread]
      have hunit : ∀ v : World σ, v.unit.isReadonly = w.unit.isReadonly →
          v.unit.transactionStack = w.unit.transactionStack →
          v.unit.session = some { session with current := change session.current } →
          v.database = w.database → v.checkpoint = w.checkpoint → AllUndone v →
            Tracked v ∧ AllUndone v ∧ Framed level w v := by
        intro v hmode hstack hs hd hc hundone
        refine ⟨⟨by rw [hd, hc, hw.checkpoint], ?_, ?_, ?_⟩, hundone, ⟨?_, hmode, fun _ => hd⟩⟩
        · intro session' h
          rw [hs] at h
          cases h
          rw [hmode]
          exact hw.mode session hsession
        · intro session' h
          rw [hs] at h
          cases h
          rw [hstack]
          exact hw.savepoints session hsession
        · intro session' h hread
          rw [hs] at h
          cases h
          rw [hmode] at hread
          rw [hd, ← hw.current session hsession hread]
          exact hsame hread
        · rw [hs, hsession]
          rfl
      have hmapped : w.unit.session.map
          (fun session' => { session' with current := change session.current }) =
            some { session with current := change session.current } := by
        rw [hsession]
        rfl
      cases hauto : session.autocommit with
      | false => exact hunit _ rfl rfl hmapped rfl rfl (hu.record trivial)
      | true =>
          rw [hauto, if_pos rfl] at hdatabase
          exact hunit _ rfl rfl hmapped hdatabase rfl (hu.record trivial)

theorem tracked_commit (hw : Tracked w) (hu : AllUndone w) (hentered : Entered level w)
    (hallowed : ∀ r ∈ (commit reliable level w).2.history, r.Allowed) :
    Tracked (commit reliable level w).2 ∧ AllUndone (commit reliable level w).2 ∧
      Framed level w (commit reliable level w).2 := by
  by_cases hread : w.unit.isReadonly
  · simp only [commit, hread, if_true]
    exact ⟨hw, hu, .refl level w⟩
  cases hsession : w.unit.session with
  | none =>
      simp only [commit, hread, hsession, Bool.false_eq_true, if_false, Option.isSome_none]
      exact ⟨hw, hu, .refl level w⟩
  | some session =>
      have hfails : reliable w.calls = false := rfl
      simp only [commit, hread, hsession, hfails, Bool.false_eq_true, if_false, Option.isSome_some,
        if_true] at hallowed ⊢
      have hlevel : level = 1 := by
        have hle : (Record.sessionCommit level false : Record σ).Allowed := by
          refine hallowed _ ?_
          split <;> exact List.mem_append_right _ (List.mem_singleton_self _)
        have hpos : level ≠ 0 := by
          rintro rfl
          rw [hentered.initial.1] at hsession
          cases hsession
        have hle : level ≤ 1 := hle
        omega
      subst hlevel
      have hnil : w.unit.transactionStack = [] := by
        have hstack := (hentered.held (by omega)).stack
        apply List.eq_nil_of_length_eq_zero
        simpa [hread] using hstack
      have hnone : session.savepoints = [] := by
        have hmap := hw.savepoints session hsession
        rw [hnil] at hmap
        exact List.map_eq_nil_iff.mp hmap
      rw [if_pos rfl]
      refine ⟨⟨rfl, ?_, ?_, ?_⟩, hu.record trivial, ⟨?_, rfl, by omega⟩⟩
      · intro session' h
        simp only [World.sessionCommit, World.setSession, World.setUnit, World.record, World.called,
          hsession, Option.map_some, Option.some.injEq] at h
        subst h
        exact hw.mode session hsession
      · intro session' h
        simp only [World.sessionCommit, World.setSession, World.setUnit, World.record, World.called,
          hsession, Option.map_some, Option.some.injEq] at h
        subst h
        exact hnil.symm
      · intro session' _ h
        exact absurd h hread
      · simp [World.sessionCommit, World.setSession, World.setUnit, World.record, World.called,
          hsession, hnone]

/-! ## Blocks -/

/-- The unit inside `level` blocks, with every block so far undone as it should be. -/
structure Sound (level : Nat) (w : World σ) : Prop where
  entered : Entered level w
  represented : Represented w
  failures : failures w = 0
  tracked : Tracked w
  undone : AllUndone w

/-- What a run inside `level` blocks does, as long as it keeps to what is allowed. -/
structure Restores (level : Nat) (w w' : World σ) : Prop where
  balanced : Balanced w w'
  sound : Sound level w → (∀ r ∈ w'.history, r.Allowed) → Sound level w' ∧ Framed level w w'

theorem Restores.trans {u v w : World σ} (huv : Restores level u v) (hvw : Restores level v w) :
    Restores level u w where
  balanced := huv.balanced.trans hvw.balanced
  sound hu hallowed := by
    obtain ⟨hv, hframed⟩ := huv.sound hu fun r hr => hallowed r (hvw.balanced.history.subset hr)
    obtain ⟨hw, hframed'⟩ := hvw.sound hv hallowed
    exact ⟨hw, hframed.trans hframed'⟩

theorem Balanced.failures_eq (h : Balanced w w') (hdepth : w'.unit.depth = w.unit.depth) :
    failures w' = failures w := by
  have hbalance := h.depth
  omega

theorem restores_mark (level : Nat) (w : World σ) : Restores level w (mark level w) where
  balanced := balanced_mark level w
  sound hw _ := by
    obtain ⟨hentered, hrep⟩ := entered_mark hw.entered hw.represented
    obtain ⟨htracked, hundone, hframed⟩ := tracked_mark level hw.tracked hw.undone
    have hdepth : (mark level w).unit.depth = w.unit.depth := by rw [(mark_spec level w).1]
    have hzero := ((balanced_mark level w).failures_eq hdepth).trans hw.failures
    exact ⟨⟨hentered, hrep, hzero, htracked, hundone⟩, hframed⟩

theorem restores_write (level : Nat) (repository : String) (change : σ → σ) (w : World σ) :
    Restores level w (write repository change w).2 where
  balanced := balanced_write repository change w
  sound hw hallowed := by
    obtain ⟨hentered, hrep⟩ :=
      entered_write repository change hw.entered hw.represented
    obtain ⟨htracked, hundone, hframed⟩ :=
      tracked_write level hw.tracked hw.undone hallowed
    have hdepth : (write repository change w).2.unit.depth = w.unit.depth := by
      unfold write
      dsimp only
      split
      · rfl
      · split <;> rfl
    have hzero := ((balanced_write repository change w).failures_eq hdepth).trans hw.failures
    exact ⟨⟨hentered, hrep, hzero, htracked, hundone⟩, hframed⟩

theorem restores_commit (level : Nat) (w : World σ) :
    Restores level w (commit reliable level w).2 where
  balanced := balanced_commit reliable level w
  sound hw hallowed := by
    obtain ⟨hentered, hrep⟩ := entered_commit reliable hw.entered hw.represented
    obtain ⟨htracked, hundone, hframed⟩ := tracked_commit hw.tracked hw.undone hw.entered hallowed
    have hdepth : (commit reliable level w).2.unit.depth = w.unit.depth := by
      unfold commit
      dsimp only
      split_ifs <;> rfl
    have hzero := ((balanced_commit reliable level w).failures_eq hdepth).trans hw.failures
    exact ⟨⟨hentered, hrep, hzero, htracked, hundone⟩, hframed⟩

/-- With a reliable session only `as_readonly` refuses a block. -/
theorem restores_refused {mode : Mode} (h : enter reliable mode w = (.raised, w')) :
    Restores level w w' := by
  have hsame : w' = w := by
    rcases enter_cases h with ⟨-, hsame⟩ | ⟨v, -, haenter⟩
    · exact hsame
    · unfold aenter at haenter
      dsimp only at haenter
      split_ifs at haenter with _ hfails
      · cases hfails
      · cases haenter
      · cases haenter
  subst hsame
  exact ⟨.refl w', fun hw _ => ⟨hw, .refl level w'⟩⟩

/-! ## Blocks -/

/-- The outermost block opens a session on what is committed. -/
theorem enter_outermost {mode : Mode} {entered : World σ} (hw : Entered 0 w)
    (h : enter reliable mode w = (.normal, entered)) :
    ∃ isReadonly : Bool, entered =
      { w with
        unit := { session := some ⟨isReadonly, w.database, []⟩, depth := 1, isReadonly }
        openSessions := 1 } := by
  obtain ⟨hunit, hopen⟩ := hw.initial
  rcases enter_cases h with ⟨hraised, -⟩ | ⟨v, hv, haenter⟩
  · cases hraised
  · cases hv with
    | readWrite =>
        refine ⟨false, ?_⟩
        simp only [aenter, World.openSession, hunit, hopen, World.setUnit] at haenter
        cases haenter
        rfl
    | readonly _ =>
        refine ⟨true, ?_⟩
        simp only [aenter, World.openSession, hunit, hopen, World.setUnit] at haenter
        cases haenter
        rfl

/-- A nested block opens a savepoint, or in read-only mode nothing. -/
theorem enter_nested {mode : Mode} {entered : World σ} (hw : Held level w) (hlevel : level ≠ 0)
    (h : enter reliable mode w = (.normal, entered)) :
    w.unit.isReadonly = true ∧
        entered = w.setUnit (fun unit => { unit with depth := unit.depth + 1 }) ∨
      w.unit.isReadonly = false ∧
        entered = w.called.beginNested.setUnit fun unit =>
          { unit with
            depth := unit.depth + 1
            transactionStack := w.savepointIds :: unit.transactionStack } := by
  obtain ⟨session, hsession⟩ := Option.isSome_iff_exists.mp hw.session
  have hdepth := hw.depth
  have haenter : aenter reliable w = (.normal, entered) := by
    rcases enter_cases h with ⟨hraised, -⟩ | ⟨v, hv, haenter⟩
    · cases hraised
    · cases hv with
      | readWrite => exact haenter
      | readonly hmode =>
          have hsame : w.setUnit (fun unit => { unit with isReadonly := true }) = w := by
            have hread : w.unit.isReadonly = true := hmode hw.session
            unfold World.setUnit
            rw [← hread]
          rwa [hsame] at haenter
  have hopened : w.openSession = w := by
    unfold World.openSession
    rw [hsession]
  unfold aenter at haenter
  rw [hopened] at haenter
  dsimp only at haenter
  split_ifs at haenter with hnested hfails
  · cases hfails
  · refine .inr ⟨Bool.eq_false_iff.mpr hnested.2, ?_⟩
    cases haenter
    rfl
  · refine .inl ⟨?_, ?_⟩
    · by_contra hread
      exact hnested ⟨by simp only [World.setUnit]; omega, hread⟩
    · cases haenter
      rfl

theorem tracked_enter {mode : Mode} {entered : World σ} (hw : Sound level w)
    (h : enter reliable mode w = (.normal, entered)) : Sound (level + 1) entered := by
  obtain ⟨hheld, hrep⟩ := enter_held hw.entered hw.represented h
  obtain ⟨-, -, hfailures⟩ := enter_normal_depth h
  refine ⟨entered_of_held (Nat.succ_ne_zero level) hheld, hrep, hfailures.trans hw.failures, ?_, ?_⟩
  · by_cases hlevel : level = 0
    · subst hlevel
      obtain ⟨isReadonly, rfl⟩ := enter_outermost hw.entered h
      refine ⟨hw.tracked.checkpoint, ?_, ?_, ?_⟩
      all_goals
        rintro _ ⟨⟩
        simp
    · have hin := hw.entered.held hlevel
      obtain ⟨session, hsession⟩ := Option.isSome_iff_exists.mp hin.session
      obtain ⟨hcheckpoint, hmode, hsavepoints, hcurrent⟩ := hw.tracked
      rcases enter_nested hin hlevel h with ⟨-, rfl⟩ | ⟨hread, rfl⟩
      · exact ⟨hcheckpoint, hmode, hsavepoints, hcurrent⟩
      · have hpushed : ∀ session', (w.called.beginNested.unit.session = some session') →
            session' = { session with
              savepoints := (w.savepointIds, session.current) :: session.savepoints } := by
          intro session' hs
          simpa [World.beginNested, World.setSession, World.setUnit, World.called, hsession,
            eq_comm] using hs
        refine ⟨hcheckpoint, ?_, ?_, ?_⟩
        · intro session' hs
          rw [hpushed session' hs]
          exact hmode session hsession
        · intro session' hs
          rw [hpushed session' hs]
          exact congrArg _ (hsavepoints session hsession)
        · intro session' _ hs
          exact absurd (hread.symm.trans hs) Bool.false_ne_true
  · intro r hr
    refine hw.undone r ?_
    by_cases hlevel : level = 0
    · subst hlevel
      obtain ⟨_, rfl⟩ := enter_outermost hw.entered h
      exact hr
    · rcases enter_nested (hw.entered.held hlevel) hlevel h with ⟨-, rfl⟩ | ⟨-, rfl⟩
      · exact hr
      · exact hr

theorem aexit_keeps (raised : Bool) (w : World σ) (hundone : AllUndone w) :
    (aexit reliable raised w).2.database = w.database ∧
      (aexit reliable raised w).2.checkpoint = w.checkpoint ∧
      AllUndone (aexit reliable raised w).2 := by
  have hexits := aexit_cases reliable raised w
  generalize aexit reliable raised w = result at hexits ⊢
  cases hexits with
  | indexError => exact ⟨rfl, rfl, hundone.record trivial⟩
  | @rollback id stack =>
      unfold World.savepointRollback
      split <;> exact ⟨rfl, rfl, hundone⟩
  | @commit id stack =>
      unfold World.savepointCommit
      dsimp only
      split <;> exact ⟨rfl, rfl, hundone.record trivial⟩
  | _ => exact ⟨rfl, rfl, hundone⟩

theorem aexit_savepoint (raised : Bool) {session : Session σ} {id : Nat} {saved : σ}
    {outer : List (Nat × σ)} {stack : List Nat} (hdepth : 1 < w.unit.depth)
    (hread : w.unit.isReadonly = false) (hsession : w.unit.session = some session)
    (hsaved : session.savepoints = (id, saved) :: outer)
    (hstack : w.unit.transactionStack = id :: stack) :
    (aexit reliable raised w).1 = .normal ∧
      (aexit reliable raised w).2.unit.session =
        some { session with
          current := if raised then saved else session.current
          savepoints := outer } ∧
      (aexit reliable raised w).2.unit.transactionStack = stack ∧
      (aexit reliable raised w).2.unit.isReadonly = false := by
  have hopen : (popped w stack).unit.session.map
      (fun session => World.openFrom id session.savepoints) = some ((id, saved) :: outer) := by
    simp [popped, countedOut, World.called, World.setUnit, hsession, World.openFrom, hsaved]
  have hexits := aexit_cases reliable raised w
  generalize aexit reliable raised w = result at hexits ⊢
  cases hexits with
  | readonly _ hmode =>
      rw [hread] at hmode
      cases hmode
  | indexError _ _ hnil =>
      rw [hnil] at hstack
      cases hstack
  | savepointFails _ _ _ hfails => cases hfails
  | rollback _ _ hids hraised =>
      rw [hstack] at hids
      cases hids
      simp only [World.savepointRollback, hopen, hraised, if_true]
      simp [World.setSession, World.setUnit, popped, countedOut, World.called, hsession, hread]
  | commit _ _ hids hraised =>
      rw [hstack] at hids
      cases hids
      simp only [World.savepointCommit, World.record, hopen, hraised, Bool.false_eq_true, if_false]
      simp [World.setSession, World.setUnit, popped, countedOut, World.called, hsession, hread]
  | rollbackFails hzero | rolledBack hzero | closed hzero | nothing hzero =>
      exact absurd (Nat.sub_pos_of_lt hdepth) hzero

theorem aexit_readonly (raised : Bool) (hdepth : 1 < w.unit.depth)
    (hread : w.unit.isReadonly = true) : aexit reliable raised w = (.normal, countedOut w) := by
  unfold aexit
  dsimp only
  have hpos : 0 < (countedOut w).unit.depth := Nat.sub_pos_of_lt hdepth
  have hmode : (countedOut w).unit.isReadonly = true := hread
  rw [if_pos hpos, if_pos hmode]

theorem exited_nested {mode : Mode} {entered v : World σ} (raised : Bool) (hw : Sound level w)
    (hlevel : level ≠ 0) (henter : enter reliable mode w = (.normal, entered))
    (hv : Sound (level + 1) v) (hframed : Framed (level + 1) entered v) :
    Tracked (aexit reliable raised v).2 ∧ Framed level w (aexit reliable raised v).2 ∧
      (aexit reliable raised v).1 = .normal ∧
      (raised = true → (aexit reliable raised v).2.view = w.view) := by
  have hin := hw.entered.held hlevel
  obtain ⟨session, hsession⟩ := Option.isSome_iff_exists.mp hin.session
  have hheld := hv.entered.held (Nat.succ_ne_zero level)
  obtain ⟨session', hsession'⟩ := Option.isSome_iff_exists.mp hheld.session
  have hdepth : 1 < v.unit.depth := by
    rw [hheld.depth]
    omega
  obtain ⟨hdatabase, hcheckpoint, -⟩ := aexit_keeps raised v hv.undone
  have hsame : v.database = entered.database := hframed.database (by omega)
  rcases enter_nested hin hlevel henter with ⟨hread, rfl⟩ | ⟨hread, rfl⟩
  · have hreadV : v.unit.isReadonly = true := hframed.mode.trans hread
    have hsavepoints := hframed.savepoints
    rw [aexit_readonly raised hdepth hreadV]
    refine ⟨⟨hv.tracked.checkpoint, hv.tracked.mode, hv.tracked.savepoints, hv.tracked.current⟩,
      ⟨hsavepoints, hframed.mode, fun _ => hsame⟩, rfl, fun _ => ?_⟩
    have hcurrent := hv.tracked.current session' hsession' hreadV
    have hbefore := hw.tracked.current session hsession hread
    unfold World.view World.visible countedOut World.setUnit
    dsimp only
    rw [hsession', hsession]
    dsimp only
    rw [hcurrent, hbefore, hsame]
    rfl
  · have hreadV : v.unit.isReadonly = false := hframed.mode.trans hread
    have hsaved : session'.savepoints =
        (w.savepointIds, session.current) :: session.savepoints := by
      have hsavepoints := hframed.savepoints
      rw [hsession'] at hsavepoints
      simpa [World.beginNested, World.setSession, World.setUnit, World.called, hsession]
        using hsavepoints
    have hstack : v.unit.transactionStack = w.savepointIds :: w.unit.transactionStack := by
      rw [← hv.tracked.savepoints session' hsession', hsaved,
        ← hw.tracked.savepoints session hsession]
      rfl
    obtain ⟨hnormal, hleft, hstackLeft, hreadLeft⟩ :=
      aexit_savepoint raised hdepth hreadV hsession' hsaved hstack
    refine ⟨⟨by rw [hdatabase, hcheckpoint, hv.tracked.checkpoint], ?_, ?_, ?_⟩,
      ⟨?_, hreadLeft.trans hread.symm, fun _ => hdatabase.trans hsame⟩, hnormal, fun hraised => ?_⟩
    · intro s hs
      rw [hleft] at hs
      cases hs
      rw [hreadLeft, ← hreadV]
      exact hv.tracked.mode session' hsession'
    · intro s hs
      rw [hleft] at hs
      cases hs
      rw [hstackLeft]
      exact hw.tracked.savepoints session hsession
    · intro s _ hs
      exact absurd (hreadLeft.symm.trans hs) Bool.false_ne_true
    · rw [hleft, hsession]
      rfl
    · unfold World.view World.visible
      rw [hleft, hsession, hdatabase, hsame, hraised]
      rfl

theorem sound_leave (raised : Bool) (before : View σ) (hw : Sound level w)
    (hview : level ≠ 0 → raised = true → w.view = before) :
    Sound level (leave level raised before w) ∧ Framed level w (leave level raised before w) := by
  obtain ⟨hentered, hrep⟩ := leave_entered raised before hw.entered
    hw.represented
  unfold leave at hentered hrep ⊢
  split
  · rename_i hlevel
    rw [if_pos hlevel] at hentered hrep
    refine ⟨⟨hentered, hrep, ?_, ?_, hw.undone.record hw.tracked.checkpoint⟩,
      ⟨rfl, rfl, fun _ => rfl⟩⟩
    · rw [failures_record, hw.failures]
      rfl
    · exact ⟨hw.tracked.checkpoint, hw.tracked.mode, hw.tracked.savepoints, hw.tracked.current⟩
  · rename_i hlevel
    rw [if_neg hlevel] at hentered hrep
    refine ⟨⟨hentered, hrep, ?_, ?_, hw.undone.record (hview hlevel)⟩, ⟨rfl, rfl, fun _ => rfl⟩⟩
    · rw [failures_record, hw.failures]
      rfl
    · exact ⟨hw.tracked.checkpoint, hw.tracked.mode, hw.tracked.savepoints, hw.tracked.current⟩

theorem restores_block {mode : Mode} {entered : World σ} {result : Outcome × World σ}
    (henter : enter reliable mode w = (.normal, entered))
    (hinner : Restores (level + 1) entered result.2) :
    Restores level w (exitBlock reliable level w.view result).2 where
  balanced := balanced_block henter hinner.balanced
  sound hw hallowed := by
    obtain ⟨-, hhistory, hfailures⟩ := aexit_depth reliable (result.1 = .raised) result.2
    unfold exitBlock at hallowed ⊢
    dsimp only at hallowed ⊢
    have hbalance := balanced_leave level
      ((if (aexit reliable (result.1 = .raised) result.2).1 = .raised then .raised
        else result.1) = Outcome.raised) w.view (aexit reliable (result.1 = .raised) result.2).2
    obtain ⟨hin, hframed⟩ := hinner.sound (tracked_enter hw henter) fun r hr =>
      hallowed r (hbalance.history.subset (hhistory.subset hr))
    obtain ⟨hout, hrep⟩ := aexit_entered reliable (result.1 = .raised)
      (hin.entered.held (Nat.succ_ne_zero level)) hin.represented
    obtain ⟨hdatabase, hcheckpoint, hundone⟩ := aexit_keeps (result.1 = .raised) result.2 hin.undone
    have hzero : failures (aexit reliable (result.1 = .raised) result.2).2 = 0 :=
      hfailures.trans hin.failures
    by_cases hlevel : level = 0
    · subst hlevel
      have hunit := hout.initial.1
      have htracked : Tracked (aexit reliable (result.1 = .raised) result.2).2 := by
        refine ⟨by rw [hdatabase, hcheckpoint, hin.tracked.checkpoint], ?_, ?_, ?_⟩
        all_goals
          intro session hsession
          rw [hunit] at hsession
          cases hsession
      obtain ⟨hleft, hframedLeft⟩ := sound_leave
        ((if (aexit reliable (result.1 = .raised) result.2).1 = .raised then .raised
          else result.1) = Outcome.raised) w.view ⟨hout, hrep, hzero, htracked, hundone⟩
        fun h => absurd rfl h
      refine ⟨hleft, Framed.trans ⟨?_, ?_, fun h => absurd h (by omega)⟩ hframedLeft⟩
      · rw [hunit, hw.entered.initial.1]
      · rw [hunit, hw.entered.initial.1]
    · obtain ⟨htracked, hframedOut, hnormal, hview⟩ :=
        exited_nested (result.1 = .raised) hw hlevel henter hin hframed
      rw [hnormal, if_neg (by decide)]
      obtain ⟨hleft, hframedLeft⟩ := sound_leave _ w.view
        ⟨hout, hrep, hzero, htracked, hundone⟩ fun _ => hview
      exact ⟨hleft, hframedOut.trans hframedLeft⟩

theorem restores_run (level : Nat) (body : Body σ) (w : World σ) :
    Restores level w (run reliable level body w).2 :=
  run_relates .trans restores_mark restores_write restores_commit restores_refused restores_block
    level body w

/-- As long as `commit()` is called in the outermost block only and nothing is
changed in read-only mode, a block left by an exception undoes its changes, and
the outermost block leaves in the database what its last `commit()` put there. -/
theorem undone_of_allowed (body : Body σ) (database : σ)
    (hallowed : ∀ r ∈ (run reliable 0 body (.start database)).2.history, r.Allowed) :
    ∀ r ∈ (run reliable 0 body (.start database)).2.history, r.Undone := by
  have hstart : Sound 0 (World.start database) := by
    refine ⟨⟨rfl, rfl⟩, ?_, rfl, ⟨rfl, ?_, ?_, ?_⟩, ?_⟩
    · rintro r ⟨⟩
    · rintro session ⟨⟩
    · rintro session ⟨⟩
    · rintro session ⟨⟩
    · rintro r ⟨⟩
  exact ((restores_run 0 body _).sound hstart hallowed).1.undone

/-- A nested block left by an exception that the outer block catches, a `commit()`,
and a change after it. -/
def guardedChanges : Body Nat :=
  .block .readWrite
    (.write "orders" (· + 1) <|
      .attempt (.block .readWrite (.write "orders" (· + 10) .raise) .done) <|
        .commit <| .write "orders" (· + 100) .done) .done

theorem guardedChanges_undone :
    (run reliable 0 guardedChanges (.start 0)).2.database = 1 ∧
      AllUndone (run reliable 0 guardedChanges (.start 0)).2 :=
  ⟨rfl, undone_of_allowed guardedChanges 0 (by decide)⟩

def nestedCommit : Body Nat :=
  .block .readWrite
    (.block .readWrite (.write "orders" (· + 1) <| .commit .done) .done) .done

/-- Both blocks are left by the exception of the closed savepoint, and their change
is in the database. -/
theorem nested_commit_durable :
    (run reliable 0 nestedCommit (.start 0)).1 = .raised ∧
      (run reliable 0 nestedCommit (.start 0)).2.database = 1 ∧
      ¬ ∀ r ∈ (run reliable 0 nestedCommit (.start 0)).2.history, r.Undone := by
  refine ⟨rfl, rfl, fun hundone => ?_⟩
  have hleft : .left true ⟨0, 0⟩ ⟨1, 1⟩ ∈ (run reliable 0 nestedCommit (.start 0)).2.history :=
    List.mem_of_getElem? (i := 7) rfl
  have hview : (⟨1, 1⟩ : View Nat) = ⟨0, 0⟩ := hundone _ hleft rfl
  cases hview

end TicketBooking.Database.UnitOfWork
