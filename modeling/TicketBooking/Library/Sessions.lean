import Mathlib.Logic.Function.Basic
import Mathlib.Data.Set.Insert
/-!
# Sessions over a shared store

A finite or infinite family of sessions runs against one shared state, one
statement at a time and in any order.  A statement sees the committed state
only, may take a row lock, may publish its transaction's writes with a commit,
or may give the transaction up.  Row locks are exclusive, a session that asks
for a taken lock cannot move, and both ways of ending a transaction free its
locks.

The rule at the end is the assertional method for such programs: one invariant
of the shared state, one assertion for each control point, and the proof that
no statement of another session disturbs an assertion.
-/

namespace TicketBooking.Library.Sessions

variable {ι S Row Pc Act : Type*}

/-- What one statement of a session does to the shared state. -/
inductive Effect (S Row : Type*)
  | stay
  | lock (row : Row)
  | emit (write : S → S)
  | commit (write : S → S)
  | rollback

namespace Effect

def apply : Effect S Row → S → S
  | .emit write, s => write s
  | .commit write, s => write s
  | _, s => s

def held : Effect S Row → Set Row → Set Row
  | .lock row, rows => insert row rows
  | .commit _, _ => ∅
  | .rollback, _ => ∅
  | _, rows => rows

/-- A statement runs only if the lock it asks for is free or already its own. -/
def Granted (i : ι) (holder : Row → Option ι) : Effect S Row → Prop
  | .lock row => holder row = none ∨ holder row = some i
  | _ => True

instance [DecidableEq ι] (i : ι) (holder : Row → Option ι) (eff : Effect S Row) :
    Decidable (eff.Granted i holder) := by
  cases eff <;> unfold Granted <;> infer_instance

def holderAfter [DecidableEq ι] [DecidableEq Row] (i : ι) (holder : Row → Option ι) :
    Effect S Row → Row → Option ι
  | .lock row => Function.update holder row (some i)
  | .commit _ => fun row => if holder row = some i then none else holder row
  | .rollback => fun row => if holder row = some i then none else holder row
  | _ => holder

/-- The effect of a statement that works on one component of a larger state. -/
def lift {T : Type*} (embed : (S → S) → T → T) : Effect S Row → Effect T Row
  | .stay => .stay
  | .lock row => .lock row
  | .emit write => .emit (embed write)
  | .commit write => .commit (embed write)
  | .rollback => .rollback

@[simp] theorem apply_stay (s : S) : (stay : Effect S Row).apply s = s := rfl
@[simp] theorem apply_lock (row : Row) (s : S) : (lock row : Effect S Row).apply s = s := rfl
@[simp] theorem apply_emit (write : S → S) (s : S) :
    (emit write : Effect S Row).apply s = write s := rfl
@[simp] theorem apply_commit (write : S → S) (s : S) :
    (commit write : Effect S Row).apply s = write s := rfl
@[simp] theorem apply_rollback (s : S) : (rollback : Effect S Row).apply s = s := rfl

@[simp] theorem held_stay (rows : Set Row) : (stay : Effect S Row).held rows = rows := rfl
@[simp] theorem held_lock (row : Row) (rows : Set Row) :
    (lock row : Effect S Row).held rows = insert row rows := rfl
@[simp] theorem held_emit (write : S → S) (rows : Set Row) :
    (emit write : Effect S Row).held rows = rows := rfl

@[simp] theorem held_lift {T : Type*} (embed : (S → S) → T → T) (eff : Effect S Row)
    (rows : Set Row) : (eff.lift embed).held rows = eff.held rows := by
  cases eff <;> rfl

theorem granted_lift {T : Type*} (embed : (S → S) → T → T) (eff : Effect S Row) (i : ι)
    (holder : Row → Option ι) :
    (eff.lift embed).Granted i holder ↔ eff.Granted i holder := by
  cases eff <;> rfl

theorem holderAfter_lift [DecidableEq ι] [DecidableEq Row] {T : Type*}
    (embed : (S → S) → T → T) (eff : Effect S Row) (i : ι) (holder : Row → Option ι) :
    (eff.lift embed).holderAfter i holder = eff.holderAfter i holder := by
  cases eff <;> rfl

theorem apply_lift {T : Type*} {embed : (S → S) → T → T} {get : T → S}
    (hembed : ∀ write t, get (embed write t) = write (get t)) (eff : Effect S Row) (t : T) :
    get ((eff.lift embed).apply t) = eff.apply (get t) := by
  cases eff with
  | emit write => exact hembed write t
  | commit write => exact hembed write t
  | _ => rfl

end Effect

/-- The statements of a session: from its control point and the committed
state, the statement the action selects does something and moves on. -/
abbrev Protocol (ι S Row Pc Act : Type*) :=
  ι → S → Pc → Act → Option (Effect S Row × Pc)

/-- The shared state, every session's control point, and the lock table. -/
structure World (ι S Row Pc : Type*) where
  shared : S
  pc : ι → Pc
  holder : Row → Option ι

namespace World

def start (s : S) (calls : ι → Pc) : World ι S Row Pc where
  shared := s
  pc := calls
  holder _ := none

def held (w : World ι S Row Pc) (i : ι) : Set Row :=
  {row | w.holder row = some i}

@[simp] theorem start_shared (s : S) (calls : ι → Pc) :
    (start s calls : World ι S Row Pc).shared = s := rfl
@[simp] theorem start_pc (s : S) (calls : ι → Pc) :
    (start s calls : World ι S Row Pc).pc = calls := rfl
@[simp] theorem start_held (s : S) (calls : ι → Pc) (i : ι) :
    (start s calls : World ι S Row Pc).held i = ∅ := by
  simp [held, start]

theorem mem_held {w : World ι S Row Pc} {i : ι} {row : Row} :
    row ∈ w.held i ↔ w.holder row = some i := Iff.rfl

theorem held_disjoint (w : World ι S Row Pc) {i j : ι} {row : Row} (hi : row ∈ w.held i)
    (hj : row ∈ w.held j) : i = j := by
  rw [mem_held] at hi hj
  rw [hi] at hj
  exact Option.some.inj hj

variable [DecidableEq ι] [DecidableEq Row]

def after (w : World ι S Row Pc) (i : ι) (eff : Effect S Row) (pc : Pc) :
    World ι S Row Pc where
  shared := eff.apply w.shared
  pc := Function.update w.pc i pc
  holder := eff.holderAfter i w.holder

/-- One statement of session `i`; `none` when it has to wait or the action is
not one its control point offers. -/
def step (P : Protocol ι S Row Pc Act) (w : World ι S Row Pc) (i : ι) (a : Act) :
    Option (World ι S Row Pc) :=
  match P i w.shared (w.pc i) a with
  | none => none
  | some (eff, pc) => if eff.Granted i w.holder then some (w.after i eff pc) else none

def steps (P : Protocol ι S Row Pc Act) (w : World ι S Row Pc) :
    List (ι × Act) → Option (World ι S Row Pc)
  | [] => some w
  | (i, a) :: rest => (w.step P i a).bind fun w' => steps P w' rest

def guardedSteps (P : Protocol ι S Row Pc Act) (ok : World ι S Row Pc → ι → Act → Prop)
    [∀ w i a, Decidable (ok w i a)] (w : World ι S Row Pc) :
    List (ι × Act) → Option (World ι S Row Pc)
  | [] => some w
  | (i, a) :: rest =>
      if ok w i a then (w.step P i a).bind fun w' => guardedSteps P ok w' rest else none

@[simp] theorem after_shared (w : World ι S Row Pc) (i : ι) (eff : Effect S Row) (pc : Pc) :
    (w.after i eff pc).shared = eff.apply w.shared := rfl
@[simp] theorem after_pc_self (w : World ι S Row Pc) (i : ι) (eff : Effect S Row) (pc : Pc) :
    (w.after i eff pc).pc i = pc := by
  simp [after]
theorem after_pc_other (w : World ι S Row Pc) {i j : ι} (hij : j ≠ i) (eff : Effect S Row)
    (pc : Pc) : (w.after i eff pc).pc j = w.pc j := by
  simp [after, hij]

def reset (w : World ι S Row Pc) (i : ι) (pc : Pc) : World ι S Row Pc :=
  { w with pc := Function.update w.pc i pc }

omit [DecidableEq Row] in
@[simp] theorem reset_pc_self (w : World ι S Row Pc) (i : ι) (pc : Pc) :
    (w.reset i pc).pc i = pc := by
  simp [reset]

omit [DecidableEq Row] in
theorem reset_pc_other (w : World ι S Row Pc) {i j : ι} (hij : j ≠ i) (pc : Pc) :
    (w.reset i pc).pc j = w.pc j := by
  simp [reset, hij]

theorem reset_after (w : World ι S Row Pc) {i j : ι} (hij : j ≠ i) {pc : Pc} (eff : Effect S Row)
    (pc' : Pc) : (w.after j eff pc').reset i pc = (w.reset i pc).after j eff pc' := by
  unfold reset after
  rw [Function.update_comm hij]

/-- What the session's new control point has, and the others had, all have. -/
theorem after_pc_forall {Q : ι → Pc → Prop} {w : World ι S Row Pc} {i : ι} {eff : Effect S Row}
    {pc : Pc} (hself : Q i pc) (hothers : ∀ j, j ≠ i → Q j (w.pc j)) (j : ι) :
    Q j ((w.after i eff pc).pc j) := by
  by_cases hj : j = i
  · subst hj
    rw [after_pc_self]
    exact hself
  · rw [after_pc_other w hj]
    exact hothers j hj

/-- A step is a statement the protocol offers and the lock table grants. -/
theorem step_eq_some {P : Protocol ι S Row Pc Act} {w w' : World ι S Row Pc} {i : ι} {a : Act} :
    w.step P i a = some w' ↔
      ∃ eff pc, P i w.shared (w.pc i) a = some (eff, pc) ∧ eff.Granted i w.holder ∧
        w' = w.after i eff pc := by
  unfold step
  split
  · rename_i hnone
    simp [hnone]
  · rename_i eff pc hsome
    constructor
    · intro h
      split at h
      · rename_i hgrant
        exact ⟨eff, pc, hsome, hgrant, by simpa using h.symm⟩
      · cases h
    · rintro ⟨eff', pc', h, hgrant, rfl⟩
      rw [hsome] at h
      cases h
      rw [if_pos hgrant]

theorem held_after_self (w : World ι S Row Pc) (i : ι) (eff : Effect S Row) (pc : Pc) :
    (w.after i eff pc).held i = eff.held (w.held i) := by
  ext row
  cases eff with
  | lock r =>
      rw [mem_held, Effect.held_lock, Set.mem_insert_iff, mem_held]
      by_cases hr : row = r
      · subst hr
        simp [after, Effect.holderAfter]
      · simp [after, Effect.holderAfter, hr]
  | stay => rfl
  | emit write => rfl
  | commit write => simp [mem_held, after, Effect.holderAfter, Effect.held]
  | rollback => simp [mem_held, after, Effect.holderAfter, Effect.held]

theorem held_after_other (w : World ι S Row Pc) {i j : ι} (hij : j ≠ i) (eff : Effect S Row)
    (pc : Pc) (hgrant : eff.Granted i w.holder) :
    (w.after i eff pc).held j = w.held j := by
  ext row
  have hkeep : (if w.holder row = some i then none else w.holder row) = some j ↔
      w.holder row = some j := by
    split_ifs with h
    · simp [h, hij.symm]
    · rfl
  cases eff with
  | lock r =>
      rw [mem_held, mem_held]
      by_cases hr : row = r
      · subst hr
        rcases hgrant with h | h <;> simp [after, Effect.holderAfter, h, hij.symm]
      · simp [after, Effect.holderAfter, hr]
  | stay => rfl
  | emit write => rfl
  | commit write => exact hkeep
  | rollback => exact hkeep

end World

/-- The statements of session `i` while no other moves take it from `pc` and the
shared state `s` to `pc'` and `s'`. -/
inductive Alone (P : Protocol ι S Row Pc Act) (i : ι) : S → Pc → S → Pc → Prop
  | refl {s : S} {pc : Pc} : Alone P i s pc s pc
  | step {s s' : S} {pc pc₁ pc' : Pc} {eff : Effect S Row} (a : Act) :
      P i s pc a = some (eff, pc₁) → Alone P i (eff.apply s) pc₁ s' pc' → Alone P i s pc s' pc'

namespace Alone

variable {P : Protocol ι S Row Pc Act} {i : ι}

theorem trans {s s' s'' : S} {pc pc' pc'' : Pc} (h : Alone P i s pc s' pc')
    (h' : Alone P i s' pc' s'' pc'') : Alone P i s pc s'' pc'' := by
  induction h with
  | refl => exact h'
  | step a hP _ ih => exact .step a hP (ih h')

end Alone

/-- At most `n` statements of a session that runs alone, all by the same action. -/
def solo (P : Protocol ι S Row Pc Act) (i : ι) (a : Act) : Nat → S → Pc → S × Pc
  | 0, s, pc => (s, pc)
  | n + 1, s, pc =>
      match P i s pc a with
      | none => (s, pc)
      | some (eff, pc') => solo P i a n (eff.apply s) pc'

section Solo

variable {P : Protocol ι S Row Pc Act} {i : ι} {a : Act}

theorem solo_step {s : S} {pc pc' : Pc} {eff : Effect S Row} (h : P i s pc a = some (eff, pc'))
    (n : Nat) : solo P i a (n + 1) s pc = solo P i a n (eff.apply s) pc' := by
  rw [solo, h]

theorem solo_of_none {s : S} {pc : Pc} (h : P i s pc a = none) (n : Nat) :
    solo P i a n s pc = (s, pc) := by
  cases n with
  | zero => rfl
  | succ n => rw [solo, h]

/-- A session whose every statement brings it nearer to its end gets there. -/
theorem solo_ends {cost : Pc → Nat} (hend : ∀ s pc, cost pc = 0 → P i s pc a = none)
    (hstep : ∀ s pc, cost pc ≠ 0 → ∃ eff pc', P i s pc a = some (eff, pc') ∧ cost pc' < cost pc)
    {n : Nat} (s : S) {pc : Pc} (hn : cost pc ≤ n) : cost (solo P i a n s pc).2 = 0 := by
  induction n generalizing s pc with
  | zero => exact Nat.le_zero.mp hn
  | succ n ih =>
      by_cases hzero : cost pc = 0
      · rw [solo, hend s pc hzero]
        exact hzero
      · obtain ⟨eff, pc', hP, hlt⟩ := hstep s pc hzero
        rw [solo_step hP]
        exact ih _ (by omega)

end Solo

variable [DecidableEq ι] [DecidableEq Row]

/-- The worlds reached from `w` by statements that all meet `ok`. -/
inductive Run (P : Protocol ι S Row Pc Act) (ok : World ι S Row Pc → ι → Act → Prop)
    (w : World ι S Row Pc) : World ι S Row Pc → Prop
  | refl : Run P ok w w
  | step {v v' : World ι S Row Pc} {i : ι} {a : Act} :
      Run P ok w v → ok v i a → v.step P i a = some v' → Run P ok w v'

def anyStep : World ι S Row Pc → ι → Act → Prop := fun _ _ _ => True

namespace Run

variable {P : Protocol ι S Row Pc Act} {ok : World ι S Row Pc → ι → Act → Prop}
  {u v w : World ι S Row Pc}

theorem trans (huv : Run P ok u v) (hvw : Run P ok v w) : Run P ok u w := by
  induction hvw with
  | refl => exact huv
  | step _ hok hs ih => exact .step ih hok hs

theorem of_steps {acts : List (ι × Act)} {w w' : World ι S Row Pc}
    (h : w.steps P acts = some w') : Run P anyStep w w' := by
  induction acts generalizing w with
  | nil =>
      cases h
      exact .refl
  | cons act rest ih =>
      obtain ⟨i, a⟩ := act
      obtain ⟨v, hv, hrest⟩ := Option.bind_eq_some_iff.mp h
      exact (Run.step .refl trivial hv).trans (ih hrest)

theorem of_guardedSteps [∀ w i a, Decidable (ok w i a)] {acts : List (ι × Act)}
    {w w' : World ι S Row Pc} (h : w.guardedSteps P ok acts = some w') : Run P ok w w' := by
  induction acts generalizing w with
  | nil =>
      cases h
      exact .refl
  | cons act rest ih =>
      obtain ⟨i, a⟩ := act
      unfold World.guardedSteps at h
      split_ifs at h with hok
      obtain ⟨v, hv, hrest⟩ := Option.bind_eq_some_iff.mp h
      exact (Run.step .refl hok hv).trans (ih hrest)

/-- A property of worlds every step keeps holds along every run. -/
theorem invariant {I : World ι S Row Pc → Prop}
    (hstep : ∀ v v' i a, I v → ok v i a → v.step P i a = some v' → I v')
    (h : Run P ok u v) (hu : I u) : I v := by
  induction h with
  | refl => exact hu
  | step _ hok hs ih => exact hstep _ _ _ _ ih hok hs

theorem mono {ok' : World ι S Row Pc → ι → Act → Prop} (hok : ∀ v i a, ok v i a → ok' v i a)
    (h : Run P ok u v) : Run P ok' u v := by
  induction h with
  | refl => exact .refl
  | step _ hguard hs ih => exact .step ih (hok _ _ _ hguard) hs

/-- An invariant may be assumed of the worlds a run passes through. -/
theorem with_invariant {I : World ι S Row Pc → Prop}
    (hstep : ∀ v v' i a, I v → ok v i a → v.step P i a = some v' → I v')
    (h : Run P ok u v) (hu : I u) : Run P (fun v i a => ok v i a ∧ I v) u v := by
  induction h with
  | refl => exact .refl
  | step hrun hok hs ih => exact .step ih ⟨hok, hrun.invariant hstep hu⟩ hs

/-- A reflexive and transitive relation every step stays in relates the ends
of every run. -/
theorem relates {I : World ι S Row Pc → Prop} {R : S → S → Prop} (hrefl : ∀ s, R s s)
    (htrans : ∀ s t r, R s t → R t r → R s r)
    (hinv : ∀ v v' i a, I v → ok v i a → v.step P i a = some v' → I v')
    (hstep : ∀ v v' i a, I v → ok v i a → v.step P i a = some v' → R v.shared v'.shared)
    (h : Run P ok u v) (hu : I u) : R u.shared v.shared := by
  induction h with
  | refl => exact hrefl _
  | step hrun hok hs ih =>
      exact htrans _ _ _ ih (hstep _ _ _ _ (hrun.invariant hinv hu) hok hs)

/-- If every step leaves a later version of each thing that is there, so does
every run. -/
theorem versions {T : Type*} {I : World ι S Row Pc → Prop} (rows : S → List T)
    {later : T → T → Prop} (hrefl : ∀ x, later x x)
    (htrans : ∀ x y z, later x y → later y z → later x z)
    (hinv : ∀ v v' i a, I v → ok v i a → v.step P i a = some v' → I v')
    (hstep : ∀ v v' i a, I v → ok v i a → v.step P i a = some v' →
      ∀ x ∈ rows v.shared, ∃ y ∈ rows v'.shared, later x y)
    (h : Run P ok u v) (hu : I u) : ∀ x ∈ rows u.shared, ∃ y ∈ rows v.shared, later x y := by
  refine relates (R := fun s t => ∀ x ∈ rows s, ∃ y ∈ rows t, later x y)
    (fun s x hx => ⟨x, hx, hrefl x⟩) (fun s t r hst htr x hx => ?_) hinv hstep h hu
  obtain ⟨y, hy, hxy⟩ := hst x hx
  obtain ⟨z, hz, hyz⟩ := htr y hy
  exact ⟨z, hz, htrans x y z hxy hyz⟩

/-- What a run brings about is brought about by one of its steps. -/
theorem origin {I : World ι S Row Pc → Prop} (h : Run P ok u w) (hu : ¬ I u) (hw : I w) :
    ∃ v v' i a, Run P ok u v ∧ ¬ I v ∧ ok v i a ∧ v.step P i a = some v' ∧ I v' ∧
      Run P ok v' w := by
  induction h with
  | refl => exact absurd hw hu
  | @step v v' i a hrun hok hs ih =>
      by_cases hv : I v
      · obtain ⟨t, t', j, b, htrun, ht, htok, hts, ht', hrest⟩ := ih hv
        exact ⟨t, t', j, b, htrun, ht, htok, hts, ht', hrest.step hok hs⟩
      · exact ⟨v, v', i, a, hrun, hv, hok, hs, hw, .refl⟩

/-- Until session `i` moves it does not matter where it stands. -/
theorem reset {moved : Set ι} {i : ι} (hi : i ∉ moved) (pc : Pc)
    (h : Run P (fun _ j _ => j ∈ moved) u w) :
    Run P (fun _ j _ => j ∈ moved) (u.reset i pc) (w.reset i pc) := by
  induction h with
  | refl => exact .refl
  | @step v v' j a _ hmoved hs ih =>
      have hj : j ≠ i := fun heq => hi (heq ▸ hmoved)
      obtain ⟨eff, pc', hP, hgrant, rfl⟩ := World.step_eq_some.mp hs
      refine ih.step (a := a) hmoved (World.step_eq_some.mpr ⟨eff, pc', ?_, hgrant, ?_⟩)
      · rw [World.reset_pc_other v hj]
        exact hP
      · exact World.reset_after v hj eff pc'

/-- Two protocols that agree on the states one of them reaches have the same runs. -/
theorem agree {Act' : Type*} {Q : Protocol ι S Row Pc Act'} {I : S → Prop} (act : Act' → Act)
    (hact : Function.Surjective act) (hinv : ∀ v, Run P anyStep u v → I v.shared)
    (hagree : ∀ i s pc a, I s → Q i s pc a = P i s pc (act a)) :
    Run Q anyStep u v ↔ Run P anyStep u v := by
  have hstep : ∀ {w i a}, Run P anyStep u w → w.step Q i a = w.step P i (act a) := by
    intro w i a hw
    unfold World.step
    rw [hagree i w.shared (w.pc i) a (hinv w hw)]
  constructor
  · intro h
    induction h with
    | refl => exact .refl
    | step _ _ hs ih => exact .step ih trivial (hstep ih ▸ hs)
  · intro h
    induction h with
    | refl => exact .refl
    | @step v v' i a hw _ hs ih =>
        obtain ⟨a', rfl⟩ := hact a
        exact .step ih trivial ((hstep hw).trans hs)

end Run

/-- What session `i` does is what it would do without the others, if its own steps
keep two worlds alike and the steps of the others do not touch what is alike. -/
theorem World.guardedSteps_project {P : Protocol ι S Row Pc Act}
    {ok : World ι S Row Pc → ι → Act → Prop} [∀ w i a, Decidable (ok w i a)] {i : ι}
    {Alike : World ι S Row Pc → World ι S Row Pc → Prop}
    (hown : ∀ u v a u', Alike u v → ok u i a → u.step P i a = some u' →
      ∃ v', v.step P i a = some v' ∧ Alike u' v')
    (hother : ∀ u v j a u', j ≠ i → Alike u v → ok u j a → u.step P j a = some u' → Alike u' v)
    {acts : List (ι × Act)} {u v u' : World ι S Row Pc} (h : u.guardedSteps P ok acts = some u')
    (huv : Alike u v) :
    ∃ v', v.steps P (acts.filter fun act => act.1 = i) = some v' ∧ Alike u' v' := by
  induction acts generalizing u v with
  | nil =>
      cases h
      exact ⟨v, rfl, huv⟩
  | cons act rest ih =>
      obtain ⟨j, a⟩ := act
      unfold World.guardedSteps at h
      split_ifs at h with hok
      obtain ⟨u₁, hstep, hrest⟩ := Option.bind_eq_some_iff.mp h
      by_cases hj : j = i
      · subst hj
        obtain ⟨v₁, hv, halike⟩ := hown u v a u₁ huv hok hstep
        obtain ⟨v', hv', halike'⟩ := ih hrest halike
        refine ⟨v', ?_, halike'⟩
        rw [List.filter_cons_of_pos (by simp), World.steps, hv]
        exact hv'
      · rw [List.filter_cons_of_neg (by simpa using hj)]
        exact ih hrest (hother u v j a u₁ hj huv hok hstep)

namespace Alone

variable {P : Protocol ι S Row Pc Act} {i : ι}

/-- With no lock taken by another session, a session alone is never made to wait. -/
theorem run {s s' : S} {pc pc' : Pc} (h : Alone P i s pc s' pc') {w : World ι S Row Pc}
    (hfree : ∀ row, w.holder row = none ∨ w.holder row = some i) (hs : w.shared = s)
    (hpc : w.pc i = pc) :
    ∃ w', Run P anyStep w w' ∧ w'.shared = s' ∧ w'.pc i = pc' ∧ ∀ j, j ≠ i → w'.pc j = w.pc j := by
  induction h generalizing w with
  | refl => exact ⟨w, .refl, hs, hpc, fun _ _ => rfl⟩
  | @step s s' pc pc₁ pc' eff a hP _ ih =>
      have hgrant : eff.Granted i w.holder := by
        cases eff with
        | lock row => exact hfree row
        | _ => trivial
      have hfree' : ∀ row, (w.after i eff pc₁).holder row = none ∨
          (w.after i eff pc₁).holder row = some i := by
        intro row
        cases eff with
        | lock row' =>
            by_cases hrow : row = row'
            · simp [World.after, Effect.holderAfter, hrow]
            · simpa [World.after, Effect.holderAfter, hrow] using hfree row
        | commit write => rcases hfree row with h | h <;> simp [World.after, Effect.holderAfter, h]
        | rollback => rcases hfree row with h | h <;> simp [World.after, Effect.holderAfter, h]
        | _ => exact hfree row
      subst hs hpc
      obtain ⟨w', hrun, hs', hpc', hothers⟩ := ih hfree' rfl (World.after_pc_self w i eff pc₁)
      have hstep : w.step P i a = some (w.after i eff pc₁) :=
        World.step_eq_some.mpr ⟨eff, pc₁, hP, hgrant, rfl⟩
      refine ⟨w', (Run.step .refl trivial hstep).trans hrun, hs', hpc', fun j hj => ?_⟩
      rw [hothers j hj, World.after_pc_other w hj]

end Alone

/-- A proof outline: an invariant of the shared state, an assertion for each
control point of a session (with the rows it has locked), and a symmetric
condition on the control points of two different sessions. -/
structure Outline (ι S Row Pc : Type*) where
  inv : S → Prop
  at_ : ι → S → Set Row → Pc → Prop
  apart : Pc → Pc → Prop

namespace Outline

structure Valid (O : Outline ι S Row Pc) (w : World ι S Row Pc) : Prop where
  inv : O.inv w.shared
  at_ : ∀ i, O.at_ i w.shared (w.held i) (w.pc i)
  apart : ∀ i j, i ≠ j → O.apart (w.pc i) (w.pc j)

/-- Local correctness and freedom from interference. -/
structure Sound (O : Outline ι S Row Pc) (P : Protocol ι S Row Pc Act)
    (ok : World ι S Row Pc → ι → Act → Prop) : Prop where
  own : ∀ w i a eff pc, O.Valid w → ok w i a → P i w.shared (w.pc i) a = some (eff, pc) →
    eff.Granted i w.holder →
    O.inv (eff.apply w.shared) ∧ O.at_ i (eff.apply w.shared) (eff.held (w.held i)) pc
  frame : ∀ w i j a eff pc, O.Valid w → ok w i a → P i w.shared (w.pc i) a = some (eff, pc) →
    eff.Granted i w.holder → j ≠ i →
    O.at_ j (eff.apply w.shared) (w.held j) (w.pc j) ∧
      O.apart pc (w.pc j) ∧ O.apart (w.pc j) pc

variable {O : Outline ι S Row Pc} {P : Protocol ι S Row Pc Act}
  {ok : World ι S Row Pc → ι → Act → Prop}

theorem Sound.step (hO : O.Sound P ok) {w w' : World ι S Row Pc} {i : ι} {a : Act}
    (hw : O.Valid w) (hok : ok w i a) (hs : w.step P i a = some w') : O.Valid w' := by
  obtain ⟨eff, pc, hP, hgrant, rfl⟩ := World.step_eq_some.mp hs
  obtain ⟨hinv, hat⟩ := hO.own w i a eff pc hw hok hP hgrant
  refine ⟨hinv, fun j => ?_, fun j k hjk => ?_⟩
  · by_cases hj : j = i
    · subst hj
      rw [World.after_pc_self, World.held_after_self]
      exact hat
    · rw [World.after_pc_other w hj, World.held_after_other w hj eff pc hgrant]
      exact (hO.frame w i j a eff pc hw hok hP hgrant hj).1
  · by_cases hj : j = i
    · subst hj
      have hk : k ≠ j := hjk.symm
      rw [World.after_pc_self, World.after_pc_other w hk]
      exact (hO.frame w j k a eff pc hw hok hP hgrant hk).2.1
    · by_cases hk : k = i
      · subst hk
        rw [World.after_pc_self, World.after_pc_other w hj]
        exact (hO.frame w k j a eff pc hw hok hP hgrant hj).2.2
      · rw [World.after_pc_other w hj, World.after_pc_other w hk]
        exact hw.apart j k hjk

/-- A sound outline that holds at the start holds along every run. -/
theorem Sound.run (hO : O.Sound P ok) {w w' : World ι S Row Pc} (h : Run P ok w w')
    (hw : O.Valid w) : O.Valid w' :=
  h.invariant (fun _ _ _ _ hv hok hs => hO.step hv hok hs) hw

end Outline

end TicketBooking.Library.Sessions
