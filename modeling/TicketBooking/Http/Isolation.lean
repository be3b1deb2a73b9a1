import TicketBooking.Http.Idempotency
/-!
# Different requests with one key

FastAPI gives a wrapped function its request by name, so the wrapper stores no
response and none is replayed.  What different requests with one key share is the
lock: a request that asks for it while another holds it calls its handler without
it, and only once.  In a run where that never happens every request does what it
would do if no other one had been made.
-/

namespace TicketBooking.Http.Isolation

open TicketBooking.Http.Idempotency
open TicketBooking.Library.Sessions

variable {ι R C : Type}

/-- The calls FastAPI makes of route functions with these parameters. -/
def routed (parameters : ι → List String) (encoding : ι → Encoding R C) (i : ι) : Encoding R C :=
  { encoding i with arguments := .routed (parameters i) }

/-- No request asks for the lock while another holds it. -/
def UncontendedAt (s : Slot ι C) : Pc R C → Act R → Prop
  | .wantsLock, .run => s.owner = none
  | _, _ => True

instance [DecidableEq ι] (s : Slot ι C) : (pc : Pc R C) → (a : Act R) →
    Decidable (UncontendedAt s pc a)
  | .wantsLock, .run => inferInstanceAs (Decidable (s.owner = none))
  | .wantsLock, .commit | .wantsLock, .returns _ | .wantsLock, .raises _
  | .wantsLock, .lockExpires | .arrived, _ | .locked, _ | .running _, _ | .storing _ _, _
  | .releasing _, _ | .direct _, _ | .finished _, _ => inferInstanceAs (Decidable True)

def Uncontended (w : World ι (Slot ι C) Empty (Pc R C)) (i : ι) (a : Act R) : Prop :=
  UncontendedAt w.shared (w.pc i) a

instance [DecidableEq ι] (w : World ι (Slot ι C) Empty (Pc R C)) (i : ι) (a : Act R) :
    Decidable (Uncontended w i a) :=
  inferInstanceAs (Decidable (UncontendedAt w.shared (w.pc i) a))

/-! ## Nothing is stored -/

/-- A request that may come to hold the lock fails to store its response, and none
has been answered with a stored one. -/
def Unstored (encoding : Encoding R C) : Pc R C → Prop
  | .arrived => True
  | .storing _ _ => False
  | .releasing (.done (.replayed _)) => False
  | .direct _ => True
  | .finished (.replayed _) => False
  | .finished _ => True
  | _ => encoding.arguments.clash

theorem unstored_afterRaise {encoding : Encoding R C} (h : encoding.arguments.clash)
    (kind : Raised) : Unstored encoding (.releasing (afterRaise kind) : Pc R C) := by
  cases kind <;> exact h

theorem unstored_step [DecidableEq ι] {encoding : ι → Encoding R C} {i : ι} {s : Slot ι C}
    {pc pc' : Pc R C} {a : Act R} {eff : Effect (Slot ι C) Empty}
    (hclash : (encoding i).arguments.extractRequest → (encoding i).arguments.clash)
    (hs : s.entry = none) (hpc : Unstored (encoding i) pc)
    (h : WrapperStep encoding i s pc a eff pc') :
    (eff.apply s).entry = none ∧ Unstored (encoding i) pc' := by
  cases h with
  | bypass hrequest => exact ⟨hs, trivial⟩
  | hit hrequest hentry => simp [hs] at hentry
  | miss hrequest hentry => exact ⟨hs, hclash hrequest⟩
  | busy => exact ⟨hs, trivial⟩
  | hitLocked hentry => simp [hs] at hentry
  | returns =>
      rw [afterReturn, Encoding.storing_of_clash hpc]
      exact ⟨hs, hpc⟩
  | raises => exact ⟨hs, unstored_afterRaise hpc _⟩
  | store => exact hpc.elim
  | release =>
      rename_i result
      cases result with
      | replayed payload => exact hpc.elim
      | _ => exact ⟨hs, trivial⟩
  | releaseRerun => exact ⟨hs, trivial⟩
  | rereturns => exact ⟨hs, trivial⟩
  | reraises => exact ⟨hs, trivial⟩
  | _ => exact ⟨hs, hpc⟩

/-! ## One request and the others -/

def Inside : Pc R C → Prop
  | .locked => True
  | .running _ => True
  | .storing _ _ => True
  | .releasing _ => True
  | _ => False

/-- Two slots that request `i` cannot tell apart; in the second it is alone. -/
structure SlotAlike [DecidableEq ι] (i : ι) (s t : Slot ι C) : Prop where
  left : s.entry = none
  right : t.entry = none
  begun : s.begun.count i = t.begun.count i
  committed : s.committed.count i = t.committed.count i

theorem SlotAlike.own [DecidableEq ι] {encoding : ι → Encoding R C} {i : ι} {s t : Slot ι C}
    {pc pc' : Pc R C} {a : Act R} {eff : Effect (Slot ι C) Empty} (halike : SlotAlike i s t)
    (hpc : Unstored (encoding i) pc) (h : WrapperStep encoding i s pc a eff pc') :
    SlotAlike i (eff.apply s) (eff.apply t) := by
  obtain ⟨hleft, hright, hbegun, hcommitted⟩ := halike
  have hbegin : (s.begin i).begun.count i = (t.begin i).begun.count i := by
    simp [Slot.begin, hbegun]
  have hcommit : (s.commit i).committed.count i = (t.commit i).committed.count i := by
    simp [Slot.commit, hcommitted]
  cases h with
  | store => exact hpc.elim
  | bypass => exact ⟨hleft, hright, hbegin, hcommitted⟩
  | busy => exact ⟨hleft, hright, hbegin, hcommitted⟩
  | «begin» => exact ⟨hleft, hright, hbegin, hcommitted⟩
  | releaseRerun => exact ⟨hleft, hright, hbegin, hcommitted⟩
  | commit => exact ⟨hleft, hright, hbegun, hcommit⟩
  | recommit => exact ⟨hleft, hright, hbegun, hcommit⟩
  | _ => exact ⟨hleft, hright, hbegun, hcommitted⟩

theorem SlotAlike.other [DecidableEq ι] {encoding : ι → Encoding R C} {i j : ι} {s t : Slot ι C}
    {pc pc' : Pc R C} {a : Act R} {eff : Effect (Slot ι C) Empty} (hij : j ≠ i)
    (halike : SlotAlike i s t) (hpc : Unstored (encoding j) pc)
    (h : WrapperStep encoding j s pc a eff pc') : SlotAlike i (eff.apply s) t := by
  obtain ⟨hleft, hright, hbegun, hcommitted⟩ := halike
  have hbegin : (s.begin j).begun.count i = t.begun.count i := by
    simp [Slot.begin, hbegun, hij]
  have hcommit : (s.commit j).committed.count i = t.committed.count i := by
    simp [Slot.commit, hcommitted, hij]
  cases h with
  | store => exact hpc.elim
  | bypass => exact ⟨hleft, hright, hbegin, hcommitted⟩
  | busy => exact ⟨hleft, hright, hbegin, hcommitted⟩
  | «begin» => exact ⟨hleft, hright, hbegin, hcommitted⟩
  | releaseRerun => exact ⟨hleft, hright, hbegin, hcommitted⟩
  | commit => exact ⟨hleft, hright, hbegun, hcommit⟩
  | recommit => exact ⟨hleft, hright, hbegun, hcommit⟩
  | _ => exact ⟨hleft, hright, hbegun, hcommitted⟩

/-- The lock is held by `i` or by nobody, and by `i` only inside. -/
def OwnLock (i : ι) (t : Slot ι C) (pc : Pc R C) : Prop :=
  ∀ j, t.owner = some j → j = i ∧ Inside pc

theorem OwnLock.release [DecidableEq ι] {i : ι} {t : Slot ι C} {pc : Pc R C}
    (h : OwnLock i t pc) : (t.release i).owner = none := by
  unfold Slot.release
  split_ifs with howner
  · rfl
  · cases hfree : t.owner with
    | none => rfl
    | some j =>
        rw [(h j hfree).1] at hfree
        exact absurd hfree howner

theorem OwnLock.own [DecidableEq ι] {encoding : ι → Encoding R C} {i : ι} {s t : Slot ι C}
    {pc pc' : Pc R C} {a : Act R} {eff : Effect (Slot ι C) Empty} (hlock : OwnLock i t pc)
    (h : WrapperStep encoding i s pc a eff pc') : OwnLock i (eff.apply t) pc' := by
  have hreleased : ∀ pc : Pc R C, OwnLock i (t.release i) pc := by
    intro pc j hj
    rw [hlock.release] at hj
    cases hj
  have hinside : Inside pc' → OwnLock i t pc' := fun hpc' j hj => ⟨(hlock j hj).1, hpc'⟩
  have houtside : ¬ Inside pc → OwnLock i t pc' := fun hpc j hj => absurd (hlock j hj).2 hpc
  cases h with
  | bypass => exact houtside id
  | hit => exact houtside id
  | miss => exact houtside id
  | acquire =>
      intro j hj
      exact ⟨(Option.some.inj hj).symm, trivial⟩
  | busy => exact houtside id
  | returns =>
      refine hinside ?_
      unfold afterReturn
      split <;> trivial
  | release => exact hreleased _
  | releaseRerun => exact hreleased (.direct false)
  | recommit => exact houtside id
  | rereturns => exact houtside id
  | reraises => exact houtside id
  | expireLocked => exact hreleased _
  | expireRunning => exact hreleased _
  | expireStoring => exact hreleased _
  | expireReleasing => exact hreleased _
  | _ => exact hinside trivial

/-- A statement sees the entry, and the lock where it asks for it. -/
theorem idempotentStep_congr [DecidableEq ι] (encoding : ι → Encoding R C) (i : ι)
    {s t : Slot ι C} (pc : Pc R C) (a : Act R) (hentry : s.entry = t.entry)
    (howner : pc = .wantsLock → a = .run → s.owner = t.owner) :
    idempotentStep encoding i s pc a = idempotentStep encoding i t pc a := by
  cases pc with
  | arrived => cases a <;> simp only [idempotentStep, hentry]
  | wantsLock =>
      cases a with
      | run => simp only [idempotentStep, howner rfl rfl]
      | _ => rfl
  | locked => cases a <;> simp only [idempotentStep, hentry]
  | running committed => cases committed <;> cases a <;> rfl
  | storing payload returned => cases a <;> rfl
  | releasing next => cases next <;> cases a <;> rfl
  | direct committed => cases committed <;> cases a <;> rfl
  | finished result => cases a <;> rfl

section Runs

variable [DecidableEq ι] {encoding : ι → Encoding R C}

structure Alike (encoding : ι → Encoding R C) (i : ι)
    (u v : World ι (Slot ι C) Empty (Pc R C)) : Prop where
  pc : v.pc i = u.pc i
  slot : SlotAlike i u.shared v.shared
  unstored : ∀ j, Unstored (encoding j) (u.pc j)
  lock : OwnLock i v.shared (v.pc i)

theorem Alike.unstored_after {i j : ι} {u v : World ι (Slot ι C) Empty (Pc R C)} {pc : Pc R C}
    (h : Alike encoding i u v) (eff : Effect (Slot ι C) Empty) (hpc : Unstored (encoding j) pc)
    (k : ι) : Unstored (encoding k) ((u.after j eff pc).pc k) :=
  World.after_pc_forall (Q := fun k pc => Unstored (encoding k) pc) hpc (fun k _ => h.unstored k) k

theorem Alike.own {i : ι} {u v u' : World ι (Slot ι C) Empty (Pc R C)} {a : Act R}
    (hclash : ∀ j, (encoding j).arguments.extractRequest → (encoding j).arguments.clash)
    (h : Alike encoding i u v) (hok : Uncontended u i a)
    (hs : u.step (idempotentStep encoding) i a = some u') :
    ∃ v', v.step (idempotentStep encoding) i a = some v' ∧ Alike encoding i u' v' := by
  obtain ⟨eff, pc, hP, hgrant, rfl⟩ := World.step_eq_some.mp hs
  have hstep := idempotentStep_cases hP
  have hunstored := unstored_step (hclash i) h.slot.left (h.unstored i) hstep
  have hsame : idempotentStep encoding i v.shared (v.pc i) a = some (eff, pc) := by
    rw [h.pc, ← hP]
    refine idempotentStep_congr encoding i _ _ (h.slot.right.trans h.slot.left.symm) ?_
    intro hpc ha
    have hfree : u.shared.owner = none := by
      rw [Uncontended, hpc, ha] at hok
      exact hok
    rw [hfree]
    cases howner : v.shared.owner with
    | none => rfl
    | some j =>
        have hinside := (h.lock j howner).2
        rw [h.pc, hpc] at hinside
        exact hinside.elim
  have hgranted : eff.Granted i v.holder := by
    cases eff with
    | lock row => exact row.elim
    | _ => trivial
  refine ⟨_, World.step_eq_some.mpr ⟨eff, pc, hsame, hgranted, rfl⟩, ?_, ?_, ?_, ?_⟩
  · rw [World.after_pc_self, World.after_pc_self]
  · exact h.slot.own (h.unstored i) hstep
  · exact h.unstored_after eff hunstored.2
  · rw [World.after_pc_self]
    have hlock := h.lock
    rw [h.pc] at hlock
    exact hlock.own hstep

theorem Alike.other {i j : ι} {u v u' : World ι (Slot ι C) Empty (Pc R C)} {a : Act R}
    (hclash : ∀ j, (encoding j).arguments.extractRequest → (encoding j).arguments.clash)
    (hij : j ≠ i) (h : Alike encoding i u v)
    (hs : u.step (idempotentStep encoding) j a = some u') : Alike encoding i u' v := by
  obtain ⟨eff, pc, hP, hgrant, rfl⟩ := World.step_eq_some.mp hs
  have hstep := idempotentStep_cases hP
  have hunstored := unstored_step (hclash j) h.slot.left (h.unstored j) hstep
  refine ⟨?_, h.slot.other hij (h.unstored j) hstep, h.unstored_after eff hunstored.2, h.lock⟩
  rw [World.after_pc_other u hij.symm]
  exact h.pc

/-- Request `i` stands where the same statements bring it if no other request is
made: the same calls of its handler, the same commits and the same answer, which
is no stored one. -/
def Isolated (encoding : ι → Encoding R C) (start : World ι (Slot ι C) Empty (Pc R C))
    (acts : List (ι × Act R)) (w : World ι (Slot ι C) Empty (Pc R C)) (i : ι) : Prop :=
  ∃ alone, start.steps (idempotentStep encoding) (acts.filter fun act => act.1 = i) = some alone ∧
    alone.pc i = w.pc i ∧
    alone.shared.begun.count i = w.shared.begun.count i ∧
    alone.shared.committed.count i = w.shared.committed.count i ∧
    ∀ payload, w.pc i ≠ .finished (.replayed payload)

/-- However many requests come to the routes with one key, whatever they are and in
any interleaving, each is served as if it were the only one. -/
theorem isolated_of_run {parameters : ι → List String} {encoding : ι → Encoding R C}
    {acts : List (ι × Act R)} {w : World ι (Slot ι C) Empty (Pc R C)}
    (h : (arrivals ι R C).guardedSteps (idempotentStep (routed parameters encoding)) Uncontended
      acts = some w) (i : ι) :
    Isolated (routed parameters encoding) (arrivals ι R C) acts w i := by
  have hclash : ∀ j, (routed parameters encoding j).arguments.extractRequest →
      (routed parameters encoding j).arguments.clash := fun j => Arguments.routed_clash
  have hstart : Alike (routed parameters encoding) i (arrivals ι R C) (arrivals ι R C) :=
    ⟨rfl, ⟨rfl, rfl, rfl, rfl⟩, fun _ => trivial, fun _ hj => by cases hj⟩
  obtain ⟨alone, halone, halike⟩ := World.guardedSteps_project
    (fun u v a u' huv hok hs => Alike.own hclash huv hok hs)
    (fun u v j a u' hij huv _ hs => Alike.other hclash hij huv hs) h hstart
  refine ⟨alone, halone, halike.pc, halike.slot.begun.symm, halike.slot.committed.symm, ?_⟩
  intro payload hreplayed
  have hunstored := halike.unstored i
  rw [hreplayed] at hunstored
  exact hunstored

end Runs

/-! ## A payment and an order with one key -/

def orderParameters (create : Bool) : List String :=
  if create then ["request", "body", "service", "user_id"] else ["request", "order_id", "service"]

def plain (_ : Bool) : Encoding Nat Nat where
  arguments := ⟨[], []⟩
  statusCode returned := some returned
  content returned := some returned

/-- The payment, which is confirmed and found confirmed, and then the order, which is
placed twice. -/
def oneByOne : List (Bool × Act Nat) :=
  [(false, .run), (false, .run), (false, .run), (false, .commit), (false, .returns 204),
    (false, .run), (false, .returns 204), (true, .run), (true, .run), (true, .run),
    (true, .commit), (true, .returns 201), (true, .run), (true, .commit), (true, .returns 201)]

theorem isolated_of_run_oneByOne :
    ∃ w, (arrivals Bool Nat Nat).guardedSteps (idempotentStep (routed orderParameters plain))
        Uncontended oneByOne = some w ∧
      w.shared.committed = [false, true, true] ∧
      Isolated (routed orderParameters plain) (arrivals Bool Nat Nat) oneByOne w true := by
  have hrun : ((arrivals Bool Nat Nat).guardedSteps
      (idempotentStep (routed orderParameters plain)) Uncontended oneByOne).map
        (fun w => w.shared.committed) = some [false, true, true] := by
    decide
  obtain ⟨w, hw, hcommitted⟩ := Option.map_eq_some_iff.mp hrun
  exact ⟨w, hw, hcommitted, isolated_of_run hw true⟩

end TicketBooking.Http.Isolation
