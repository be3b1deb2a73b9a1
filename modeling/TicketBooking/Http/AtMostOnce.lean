import Mathlib.Data.List.Nodup
import TicketBooking.Http.Idempotency
/-!
# Requests that share a key

When every call gives its request by position and names no response, the requests
with one key come one at a time, the lock outlives every run, no run ends in an
exception that makes the wrapper call the handler again, and every committed run
returns a response that can be stored, the handler runs at most once per request
and commits at most once in all.  A call FastAPI makes gives its request by name,
so there this asks that no run under the lock returns.
-/

namespace TicketBooking.Http.AtMostOnce

open TicketBooking.Http.Idempotency
open TicketBooking.Library.Sessions

variable {ι R C : Type} {encoding : ι → Encoding R C}

/-- The wrapper finds the status of the response, which may be compared. -/
def Resolves (encoding : Encoding R C) (returned : R) (ok : Nat → Prop) : Prop :=
  ¬ encoding.arguments.clash ∧ ∃ statusCode ∈ encoding.statusCode returned, ok statusCode

def Storable (encoding : Encoding R C) (returned : R) : Prop :=
  Resolves encoding returned fun statusCode =>
    shouldCache statusCode ∧ (encoding.content returned).isSome

/-- A response whose status is no success. -/
def Skipped (encoding : Encoding R C) (returned : R) : Prop :=
  Resolves encoding returned fun statusCode => ¬ shouldCache statusCode

instance (encoding : Encoding R C) (returned : R) : Decidable (Storable encoding returned) := by
  unfold Storable Resolves
  infer_instance

instance (encoding : Encoding R C) (returned : R) : Decidable (Skipped encoding returned) := by
  unfold Skipped Resolves
  infer_instance

theorem Storable.storing {encoding : Encoding R C} {returned : R}
    (h : Storable encoding returned) : ∃ payload, encoding.storing returned = .stored payload := by
  obtain ⟨hclash, statusCode, hstatus, hcache, hcontent⟩ := h
  obtain ⟨content, hcontent⟩ := Option.isSome_iff_exists.mp hcontent
  exact ⟨⟨statusCode, content⟩, Encoding.storing_eq_stored.mpr ⟨hclash, hstatus, hcache, hcontent⟩⟩

theorem Skipped.storing {encoding : Encoding R C} {returned : R} (h : Skipped encoding returned) :
    encoding.storing returned = .skipped := by
  obtain ⟨hclash, statusCode, hstatus, hcache⟩ := h
  rw [Encoding.storing, if_neg hclash, Option.mem_def.mp hstatus]
  exact if_neg hcache

/-- The request is given to the wrapper, the lock is free when it is asked for and
is not lost before the response is stored; a run under the lock raises nothing that
calls the handler again, and a committed run returns a response that is stored. -/
def OrderlyAt (encoding : Encoding R C) (s : Slot ι C) : Pc R C → Act R → Prop
  | .arrived, .run => encoding.arguments.extractRequest
  | .wantsLock, .run => s.owner = none
  | .locked, .lockExpires => False
  | .running _, .lockExpires => False
  | .storing _ _, .lockExpires => False
  | .running committed, .returns returned =>
      Storable encoding returned ∨ committed = false ∧ Skipped encoding returned
  | .running committed, .raises kind => committed = false ∧ kind ≠ .exception
  | _, _ => True

instance [DecidableEq ι] (encoding : Encoding R C) (s : Slot ι C) (pc : Pc R C) (a : Act R) :
    Decidable (OrderlyAt encoding s pc a) := by
  unfold OrderlyAt
  split <;> infer_instance

def Orderly (encoding : ι → Encoding R C) (w : World ι (Slot ι C) Empty (Pc R C)) (i : ι)
    (a : Act R) : Prop :=
  OrderlyAt (encoding i) w.shared (w.pc i) a

instance [DecidableEq ι] (w : World ι (Slot ι C) Empty (Pc R C)) (i : ι) (a : Act R) :
    Decidable (Orderly encoding w i a) :=
  inferInstanceAs (Decidable (OrderlyAt (encoding i) w.shared (w.pc i) a))

/-- Whatever has been committed has been stored. -/
def Settled (s : Slot ι C) : Prop := s.committed = [] ∨ s.entry.isSome

structure Inv (s : Slot ι C) : Prop where
  begun : s.begun.Nodup
  committed : s.committed.length ≤ 1
  settled : s.owner = none → Settled s

def At (i : ι) (s : Slot ι C) : Pc R C → Prop
  | .arrived => i ∉ s.begun
  | .wantsLock => i ∉ s.begun
  | .locked => s.owner = some i ∧ i ∉ s.begun ∧ Settled s
  | .running false => s.owner = some i ∧ s.committed = []
  | .running true => s.owner = some i
  | .storing _ _ => s.owner = some i
  | .releasing (.done _) => s.owner = some i → Settled s
  | .releasing .rerun => False
  | .direct _ => False
  | .finished _ => True

/-- What a statement of `i` leaves alone: the runs of the others, who of them
holds the lock, and everything while another holds it. -/
def Keeps (i : ι) (s s' : Slot ι C) : Prop :=
  ∀ j, j ≠ i → (j ∈ s'.begun → j ∈ s.begun) ∧ (s'.owner = some j ↔ s.owner = some j) ∧
    (s.owner = some j → s'.entry = s.entry ∧ s'.committed = s.committed)

theorem Keeps.refl (i : ι) (s : Slot ι C) : Keeps i s s :=
  fun _ _ => ⟨id, Iff.rfl, fun _ => ⟨rfl, rfl⟩⟩

theorem Keeps.acquire {i : ι} {s : Slot ι C} (h : s.owner = none) : Keeps i s (s.acquire i) := by
  intro j hj
  refine ⟨id, ?_, fun _ => ⟨rfl, rfl⟩⟩
  simp [Slot.acquire, h, hj.symm]

theorem Keeps.begin (i : ι) (s : Slot ι C) : Keeps i s (s.begin i) := by
  intro j hj
  refine ⟨fun hmem => ?_, Iff.rfl, fun _ => ⟨rfl, rfl⟩⟩
  rcases List.mem_append.mp hmem with h | h
  · exact h
  · exact absurd (List.mem_singleton.mp h) hj

theorem Keeps.release [DecidableEq ι] (i : ι) (s : Slot ι C) : Keeps i s (s.release i) := by
  intro j hj
  refine ⟨id, ?_, fun _ => ⟨rfl, rfl⟩⟩
  unfold Slot.release
  by_cases h : s.owner = some i
  · simp [h, hj.symm]
  · simp [h]

/-- The holder of the lock may change the entry and the commits. -/
theorem Keeps.holder {i : ι} {s s' : Slot ι C} (h : s.owner = some i) (hbegun : s'.begun = s.begun)
    (howner : s'.owner = s.owner) : Keeps i s s' := by
  intro j hj
  refine ⟨fun hmem => hbegun ▸ hmem, by rw [howner], fun hj' => ?_⟩
  rw [h] at hj'
  exact absurd (Option.some.inj hj').symm hj

theorem At.stable {i j : ι} {s s' : Slot ι C} {pc : Pc R C} (hat : At j s pc) (h : Keeps i s s')
    (hji : j ≠ i) : At j s' pc := by
  obtain ⟨hbegun, howner, hsame⟩ := h j hji
  have hsettled : s.owner = some j → Settled s → Settled s' := by
    intro hj hs
    unfold Settled
    rw [(hsame hj).1, (hsame hj).2]
    exact hs
  cases pc with
  | arrived => exact fun hmem => hat (hbegun hmem)
  | wantsLock => exact fun hmem => hat (hbegun hmem)
  | locked =>
      obtain ⟨hj, hnew, hs⟩ := hat
      exact ⟨howner.mpr hj, fun hmem => hnew (hbegun hmem), hsettled hj hs⟩
  | running committed =>
      cases committed with
      | false => exact ⟨howner.mpr hat.1, (hsame hat.1).2.trans hat.2⟩
      | true => exact howner.mpr hat
  | storing payload returned => exact howner.mpr hat
  | releasing next =>
      cases next with
      | done result => exact fun hj => hsettled (howner.mp hj) (hat (howner.mp hj))
      | rerun => exact hat
  | direct committed => exact hat
  | finished result => trivial

theorem Inv.release [DecidableEq ι] {i : ι} {s : Slot ι C} (hs : Inv s)
    (h : s.owner = some i → Settled s) : Inv (s.release i) := by
  refine ⟨hs.begun, hs.committed, fun hnone => ?_⟩
  by_cases howner : s.owner = some i
  · exact h howner
  · unfold Slot.release at hnone
    rw [if_neg howner] at hnone
    exact hs.settled hnone

theorem Inv.begin {i : ι} {s : Slot ι C} (hs : Inv s) (hnew : i ∉ s.begun) : Inv (s.begin i) := by
  refine ⟨?_, hs.committed, hs.settled⟩
  unfold Slot.begin
  rw [List.nodup_append]
  refine ⟨hs.begun, List.nodup_singleton i, fun a ha b hb => ?_⟩
  rw [List.mem_singleton.mp hb]
  rintro rfl
  exact hnew ha

theorem At.afterReturn {encoding : Encoding R C} {i : ι} {s : Slot ι C} {committed : Bool}
    {returned : R} (hat : At i s (.running committed : Pc R C))
    (hok : Storable encoding returned ∨ committed = false ∧ Skipped encoding returned) :
    At i s (afterReturn encoding returned) := by
  unfold Idempotency.afterReturn
  rcases hok with hstored | ⟨rfl, hskipped⟩
  · obtain ⟨payload, hpayload⟩ := hstored.storing
    rw [hpayload]
    cases committed with
    | false => exact hat.1
    | true => exact hat
  · rw [hskipped.storing]
    exact fun _ => .inl hat.2

theorem At.afterRaise {i : ι} {s : Slot ι C} {kind : Raised}
    (hat : At i s (.running false : Pc R C)) (hkind : kind ≠ .exception) :
    At i s (.releasing (afterRaise kind) : Pc R C) := by
  cases kind with
  | cacheUnavailable => exact fun _ => .inl hat.2
  | exception => exact absurd rfl hkind
  | baseException => exact fun _ => .inl hat.2

theorem wrapperStep_correct [DecidableEq ι] {i : ι} {s : Slot ι C} {pc pc' : Pc R C} {a : Act R}
    {eff : Effect (Slot ι C) Empty} (hs : Inv s) (hat : At i s pc)
    (hok : OrderlyAt (encoding i) s pc a) (h : WrapperStep encoding i s pc a eff pc') :
    Inv (eff.apply s) ∧ At i (eff.apply s) pc' ∧ Keeps i s (eff.apply s) := by
  cases h with
  | bypass hrequest => exact absurd hok hrequest
  | hit hrequest hentry => exact ⟨hs, trivial, .refl i s⟩
  | miss hrequest hentry => exact ⟨hs, hat, .refl i s⟩
  | acquire howner =>
      refine ⟨⟨hs.begun, hs.committed, fun hnone => ?_⟩, ⟨rfl, hat, hs.settled howner⟩,
        .acquire howner⟩
      cases hnone
  | busy howner =>
      rw [OrderlyAt, howner] at hok
      cases hok
  | hitLocked hentry =>
      refine ⟨hs, fun _ => .inr ?_, .refl i s⟩
      rw [Effect.apply_stay, hentry]
      rfl
  | begin hentry =>
      obtain ⟨howner, hnew, hsettled⟩ := hat
      refine ⟨hs.begin hnew, ⟨howner, hsettled.resolve_right ?_⟩, .begin i s⟩
      rw [hentry]
      simp
  | commit =>
      obtain ⟨howner, hnone⟩ := hat
      refine ⟨⟨hs.begun, ?_, fun hfree => ?_⟩, howner, .holder howner rfl rfl⟩
      · simp [Slot.commit, hnone]
      · exact absurd (howner.symm.trans hfree) (by simp)
  | returns => exact ⟨hs, hat.afterReturn hok, .refl i s⟩
  | raises =>
      obtain ⟨rfl, hkind⟩ := hok
      exact ⟨hs, hat.afterRaise hkind, .refl i s⟩
  | store =>
      refine ⟨⟨hs.begun, hs.committed, fun _ => .inr rfl⟩, fun _ => .inr rfl, ?_⟩
      exact .holder hat rfl rfl
  | release => exact ⟨hs.release hat, trivial, .release i s⟩
  | expireReleasing =>
      rename_i next
      cases next with
      | rerun => exact hat.elim
      | done result =>
          refine ⟨hs.release hat, fun howner => ?_, .release i s⟩
          have hfree : (s.release i).owner ≠ some i := by
            unfold Slot.release
            split_ifs with h
            · simp
            · exact h
          exact absurd howner hfree
  | releaseRerun => exact hat.elim
  | recommit => exact hat.elim
  | rereturns => exact hat.elim
  | reraises => exact hat.elim
  | expireLocked => exact hok.elim
  | expireRunning => exact hok.elim
  | expireStoring => exact hok.elim

def outline (ι R C : Type) : Outline ι (Slot ι C) Empty (Pc R C) where
  inv := Inv
  at_ i s _ pc := At i s pc
  apart _ _ := True

theorem outline_sound [DecidableEq ι] :
    (outline ι R C).Sound (idempotentStep encoding) (Orderly encoding) where
  own w i a eff pc hw hok hstep _ := by
    have hcorrect := wrapperStep_correct hw.inv (hw.at_ i) hok (idempotentStep_cases hstep)
    exact ⟨hcorrect.1, hcorrect.2.1⟩
  frame w i j a eff pc hw hok hstep _ hji := by
    have hcorrect := wrapperStep_correct hw.inv (hw.at_ i) hok (idempotentStep_cases hstep)
    exact ⟨At.stable (hw.at_ j) hcorrect.2.2 hji, trivial, trivial⟩

/-- One request runs the handler once, and all of them commit it once. -/
theorem handler_at_most_once [DecidableEq ι] {w : World ι (Slot ι C) Empty (Pc R C)}
    (h : Run (idempotentStep encoding) (Orderly encoding) (arrivals ι R C) w) :
    (∀ i, w.shared.begun.count i ≤ 1) ∧ w.shared.committed.length ≤ 1 := by
  have hstart : (outline ι R C).Valid (arrivals ι R C) := by
    refine ⟨⟨List.nodup_nil, Nat.zero_le _, fun _ => .inl rfl⟩, fun i => ?_, fun _ _ _ => trivial⟩
    exact List.not_mem_nil
  have hinv : Inv w.shared := (outline_sound.run h hstart).inv
  exact ⟨fun i => List.nodup_iff_count_le_one.mp hinv.begun i, hinv.committed⟩

def plain (arguments : Arguments) (_ : Bool) : Encoding Nat Nat where
  arguments := arguments
  statusCode returned := some returned
  content returned := some returned

def byPosition : Arguments := ⟨[.request, .other], []⟩

def retried : List (Bool × Act Nat) :=
  [(false, .run), (false, .run), (false, .run), (false, .commit), (false, .returns 201),
    (false, .run), (false, .run), (true, .run)]

theorem handler_at_most_once_retried :
    ∃ w, Run (idempotentStep (plain byPosition)) (Orderly (plain byPosition))
        (arrivals Bool Nat Nat) w ∧
      w.shared.committed = [false] ∧ w.shared.begun.count true ≤ 1 := by
  have hrun : ((arrivals Bool Nat Nat).guardedSteps (idempotentStep (plain byPosition))
      (Orderly (plain byPosition)) retried).map (fun w => w.shared.committed) = some [false] := by
    decide
  obtain ⟨w, hw, hcommitted⟩ := Option.map_eq_some_iff.mp hrun
  have hr : Run (idempotentStep (plain byPosition)) (Orderly (plain byPosition))
      (arrivals Bool Nat Nat) w := Run.of_guardedSteps hw
  exact ⟨w, hr, hcommitted, (handler_at_most_once hr).1 true⟩

/-- The call FastAPI makes of `create` in the order routes. -/
def createCall : Arguments := .routed ["request", "body", "service", "user_id"]

/-- One `POST /orders` and no other request: the order is committed and returned, the
wrapper fails on its own call for the status code, and the handler commits another. -/
theorem handler_runs_twice :
    ∃ w, Run (idempotentStep (plain createCall)) anyStep (arrivals Bool Nat Nat) w ∧
      ¬ ((∀ i, w.shared.begun.count i ≤ 1) ∧ w.shared.committed.length ≤ 1) := by
  let acts : List (Bool × Act Nat) :=
    [(false, .run), (false, .run), (false, .run), (false, .commit), (false, .returns 201),
      (false, .run), (false, .commit), (false, .returns 201)]
  have hrun : ((arrivals Bool Nat Nat).steps (idempotentStep (plain createCall)) acts).map
      (fun w => w.shared.committed) = some [false, false] := by
    decide
  obtain ⟨w, hw, hcommitted⟩ := Option.map_eq_some_iff.mp hrun
  refine ⟨w, Run.of_steps hw, fun hall => ?_⟩
  rw [hcommitted] at hall
  exact absurd hall.2 (by decide)

end TicketBooking.Http.AtMostOnce
