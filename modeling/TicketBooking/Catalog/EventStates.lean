import Mathlib.Logic.Relation
import TicketBooking.Catalog.Drafts
/-!
# The states of an event

What any interleaving of the services does to an event that is there: its state
moves along the edges below, each move is caused by a call that may cause it,
and its content is frozen from the moment it leaves DRAFT.
-/

namespace TicketBooking.Catalog.EventStates

open Relation
open TicketBooking.Catalog.Drafts (stage keyed_stage)
open TicketBooking.Catalog.Editing TicketBooking.Catalog.Keys TicketBooking.Catalog.System
open TicketBooking.Catalog.Transactions
open TicketBooking.Database.Shared TicketBooking.Database.Tables
open TicketBooking.Library.Sessions

/-! ## The allowed moves -/

inductive Edge : EventState → EventState → Prop
  | publish : Edge .draft .onModeration
  | approve : Edge .onModeration .approved
  | reject : Edge .onModeration .rejected
  | cancelDraft : Edge .draft .cancelled
  | cancelPublished : Edge .onModeration .cancelled

/-- APPROVED, REJECTED and CANCELLED are left by no edge. -/
def Final (state : EventState) : Prop :=
  state = .approved ∨ state = .rejected ∨ state = .cancelled

theorem Final.eq_of_reach {state state' : EventState} (h : Final state)
    (hpath : ReflTransGen Edge state state') : state' = state := by
  rcases hpath.cases_head with heq | ⟨next, hedge, -⟩
  · exact heq.symm
  · cases hedge <;> simp [Final] at h

theorem not_draft_of_reach {state state' : EventState} (h : state ≠ .draft)
    (hpath : ReflTransGen Edge state state') : state' ≠ .draft := by
  rcases hpath.cases_tail with heq | ⟨last, -, hedge⟩
  · exact heq ▸ h
  · cases hedge <;> decide

/-- What a call may make of an event. -/
inductive Caused : Call → Event → Event → Prop
  | update {data : EventUpdateSchema} {event new : Event} (hstate : event.state = .draft)
      (hnew : data.apply event = some new) :
      Caused (.updateEvent data event.userId event.id) event new
  | publish {event : Event} (hstate : event.state = .draft) :
      Caused (.publish event.userId event.id) event { event with state := .onModeration }
  | cancel {event : Event} (hstate : event.state = .draft ∨ event.state = .onModeration) :
      Caused (.cancel event.id event.userId) event { event with state := .cancelled }
  | moderate {event : Event} {result : Bool} (hstate : event.state = .onModeration) :
      Caused (.moderate event.id result) event
        { event with state := if result then .approved else .rejected }

/-- Later versions of an event: same id and owner, a state reached along the
edges, and the content it had if it had left DRAFT. -/
structure Succeeds (event event' : Event) : Prop where
  id : event'.id = event.id
  owner : event'.userId = event.userId
  path : ReflTransGen Edge event.state event'.state
  frozen : event.state ≠ .draft → event' = { event with state := event'.state }

theorem Succeeds.refl (event : Event) : Succeeds event event := ⟨rfl, rfl, .refl, fun _ => rfl⟩

theorem Succeeds.trans {event event' event'' : Event} (h : Succeeds event event')
    (h' : Succeeds event' event'') : Succeeds event event'' := by
  refine ⟨h'.id.trans h.id, h'.owner.trans h.owner, h.path.trans h'.path, fun hstate => ?_⟩
  have hnext := h'.frozen (not_draft_of_reach hstate h.path)
  rw [h.frozen hstate] at hnext
  exact hnext

theorem Succeeds.eq_of_final {event event' : Event} (h : Succeeds event event')
    (hfinal : Final event.state) : event' = event := by
  have hstate : event'.state = event.state := hfinal.eq_of_reach h.path
  have hleft : event.state ≠ .draft := by
    rcases hfinal with h | h | h <;> simp [h]
  rw [h.frozen hleft, hstate]

theorem Caused.succeeds {call : Call} {event event' : Event} (h : Caused call event event') :
    Succeeds event event' := by
  cases h with
  | update hstate hnew =>
      obtain ⟨hid, howner, hkept⟩ := EventUpdateSchema.apply_keeps hnew
      refine ⟨hid, howner, hkept ▸ .refl, fun hleft => absurd hstate hleft⟩
  | publish hstate => exact ⟨rfl, rfl, .single (hstate ▸ .publish), fun _ => rfl⟩
  | cancel hstate =>
      refine ⟨rfl, rfl, .single ?_, fun _ => rfl⟩
      rcases hstate with h | h
      · exact h ▸ .cancelDraft
      · exact h ▸ .cancelPublished
  | moderate hstate =>
      refine ⟨rfl, rfl, .single ?_, fun _ => rfl⟩
      rw [hstate]
      show Edge .onModeration (if _ then .approved else .rejected)
      split_ifs
      · exact .approve
      · exact .reject

/-! ## What a session has matched -/

def transitionOf : Call → Option Transition
  | .publish userId eventId => some (publish userId eventId)
  | .cancel eventId userId => some (cancel eventId userId)
  | .moderate eventId result => some (moderate eventId result)
  | _ => none

structure Matched (s : Store) (rows : Set Row) (call : Call) (data : EventUpdateSchema)
    (event : Event) : Prop where
  call : call = .updateEvent data event.userId event.id
  stored : event ∈ s.db.events
  draft : event.state = .draft
  locked : Row.event event.id ∈ rows

def At (s : Store) (rows : Set Row) (call : Call) : Pc → Prop
  | .createEvent (.start data userId) => call = .createEvent data userId
  | .createEvent (.checked data userId) => call = .createEvent data userId
  | .createEvent (.inserted event) =>
      event.state = .draft ∧ ∃ data, call = .createEvent data event.userId
  | .updateEvent (.start data userId eventId) => call = .updateEvent data userId eventId
  | .updateEvent (.matched data event) => Matched s rows call data event
  | .updateEvent (.updated new) =>
      ∃ data event, Matched s rows call data event ∧ data.apply event = some new
  | .transition (.start t) => transitionOf call = some t
  | .transition (.missed t) => transitionOf call = some t
  | .transition (.updated t) =>
      transitionOf call = some t ∧ Row.event t.eventId ∈ rows ∧
        ∃ event ∈ s.db.events, t.names event ∧ event.state ∈ t.sources
  | _ => True

/-- The transition of a call, from the state of the event it names. -/
theorem caused_of_transition {call : Call} {t : Transition} {event : Event}
    (hcall : transitionOf call = some t) (hnames : t.names event)
    (hsource : event.state ∈ t.sources) :
    Caused call event { event with state := t.target } := by
  obtain ⟨hnamed, howned⟩ := Transition.names_iff.mp hnames
  cases call <;> simp only [transitionOf, reduceCtorEq, Option.some.injEq] at hcall <;> subst hcall
  case publish userId eventId =>
      obtain rfl : event.id = eventId := hnamed
      obtain rfl : event.userId = userId := howned userId rfl
      exact .publish (List.mem_singleton.mp hsource)
  case cancel eventId userId =>
      obtain rfl : event.id = eventId := hnamed
      obtain rfl : event.userId = userId := howned userId rfl
      refine .cancel ?_
      simpa [cancel] using hsource
  case moderate eventId result =>
      obtain rfl : event.id = eventId := hnamed
      exact .moderate (List.mem_singleton.mp hsource)

/-! ## What a statement does to the events -/

/-- Every event is there as it was or as the call may have left it, and a new
one is a draft of the caller's. -/
structure Moves (call : Call) (s s' : Store) : Prop where
  kept : ∀ event ∈ s.db.events, ∃ event' ∈ s'.db.events,
    event'.id = event.id ∧ (event' = event ∨ Caused call event event')
  new : ∀ event' ∈ s'.db.events, (∃ event ∈ s.db.events, event.id = event'.id) ∨
    event'.state = .draft ∧ ∃ data, call = .createEvent data event'.userId

theorem Moves.of_events {call : Call} {s s' : Store} (h : s'.db.events = s.db.events) :
    Moves call s s' := by
  refine ⟨fun event hevent => ⟨event, h ▸ hevent, rfl, .inl rfl⟩, fun event hevent => .inl ?_⟩
  exact ⟨event, h ▸ hevent, rfl⟩

theorem Moves.of_update {call : Call} {s s' : Store} (hkeyed : Keyed s) {old : Event}
    (hold : old ∈ s.db.events) {f : Event → Event} (hid : ∀ event, event.id = old.id →
      (f event).id = old.id) (hcaused : Caused call old (f old))
    (hevents : s'.db.events = s.db.events.map fun event =>
      if event.id = old.id then f event else event) : Moves call s s' := by
  have hkept : ∀ event, (if event.id = old.id then f event else event).id = event.id := by
    intro event
    split_ifs with heq
    · exact (hid event heq).trans heq.symm
    · rfl
  refine ⟨fun event hevent => ⟨_, hevents ▸ List.mem_map_of_mem hevent, hkept event, ?_⟩,
    fun event hevent => .inl ?_⟩
  · split_ifs with heq
    · obtain rfl : event = old := hkeyed.event_ext hevent hold heq
      exact .inr hcaused
    · exact .inl rfl
  · obtain ⟨before, hbefore, rfl⟩ := List.mem_map.mp (hevents ▸ hevent)
    exact ⟨before, hbefore, (hkept before).symm⟩

theorem Moves.writes {s : Store} {rows : Set Row} {call : Call} {pc : Pc} {a : Act}
    {eff : Effect Store Row} (hkeyed : Keyed s) (hat : At s rows call pc)
    (h : Writes s pc a eff) : Moves call s (eff.apply s) := by
  cases h with
  | nothing hkept => exact .of_events hkept.events
  | insertEvent =>
      obtain ⟨hstate, data, hcall⟩ := hat
      refine ⟨fun event hevent => ⟨event, List.mem_append_left _ hevent, rfl, .inl rfl⟩,
        fun event hevent => ?_⟩
      rcases List.mem_append.mp hevent with hevent | hevent
      · exact .inl ⟨event, hevent, rfl⟩
      · rw [List.mem_singleton.mp hevent]
        exact .inr ⟨hstate, data, hcall⟩
  | insertEventCategory => exact .of_events rfl
  | @replaceEvent new =>
      obtain ⟨data, old, hmatched, happly⟩ := hat
      obtain ⟨hid, -, -⟩ := EventUpdateSchema.apply_keeps happly
      have hcaused : Caused call old new := by
        rw [hmatched.call]
        exact .update hmatched.draft happly
      exact .of_update hkeyed hmatched.stored (fun _ _ => hid) hcaused (hid ▸ rfl)
  | @setState t =>
      obtain ⟨hcall, -, found, hfound, hnames, hsource⟩ := hat
      have hid : found.id = t.eventId := (Transition.names_iff.mp hnames).1
      exact .of_update (f := fun event => { event with state := t.target }) hkeyed hfound
        (fun _ heq => heq) (caused_of_transition hcall hnames hsource) (hid ▸ rfl)
  | insertTicketCategory => exact .of_events rfl
  | putTicketCategory => exact .of_events rfl

/-! ## The assertions -/

def lockedEvent : Pc → Option Nat
  | .updateEvent (.updated event) => some event.id
  | .transition (.updated t) => some t.eventId
  | _ => none

theorem lockedEvent_held {s : Store} {rows : Set Row} {call : Call} {pc : Pc} {id : Nat}
    (h : At s rows call pc) (hid : lockedEvent pc = some id) : Row.event id ∈ rows := by
  unfold lockedEvent at hid
  split at hid
  · cases hid
    obtain ⟨data, event, hmatched, happly⟩ := h
    rw [(EventUpdateSchema.apply_keeps happly).1]
    exact hmatched.locked
  · cases hid
    exact h.2.1
  · cases hid

/-- A row another session has locked is not written. -/
theorem mem_of_locked {s : Store} {pc : Pc} {a : Act} {eff : Effect Store Row} {event : Event}
    (hevent : event ∈ s.db.events) (hfree : lockedEvent pc ≠ some event.id)
    (h : Writes s pc a eff) : event ∈ (eff.apply s).db.events := by
  cases h with
  | nothing hkept => exact hkept.events ▸ hevent
  | insertEvent => exact List.mem_append_left _ hevent
  | insertEventCategory => exact hevent
  | replaceEvent =>
      refine List.mem_map.mpr ⟨event, hevent, if_neg fun heq => hfree ?_⟩
      exact congrArg some heq.symm
  | setState =>
      refine List.mem_map.mpr ⟨event, hevent, if_neg fun heq => hfree ?_⟩
      exact congrArg some heq.symm
  | insertTicketCategory => exact hevent
  | putTicketCategory => exact hevent

theorem At.of_locked {s s' : Store} {rows : Set Row} {call : Call} {pc : Pc}
    (h : At s rows call pc)
    (hkept : ∀ event ∈ s.db.events, Row.event event.id ∈ rows → event ∈ s'.db.events) :
    At s' rows call pc := by
  unfold At at h ⊢
  split at h
  case h_5 data event => exact ⟨h.call, hkept event h.stored h.locked, h.draft, h.locked⟩
  case h_6 new =>
    obtain ⟨data, event, hm, happly⟩ := h
    exact ⟨data, event, ⟨hm.call, hkept event hm.stored hm.locked, hm.draft, hm.locked⟩, happly⟩
  case h_9 t =>
    obtain ⟨hcall, hlocked, event, hevent, hnames, hsource⟩ := h
    have hid : event.id = t.eventId := (Transition.names_iff.mp hnames).1
    exact ⟨hcall, hlocked, event, hkept event hevent (hid ▸ hlocked), hnames, hsource⟩
  all_goals exact h

theorem SystemStep.at {s : Store} {rows : Set Row} {call : Call} {pc pc' : Pc} {a : Act}
    {eff : Effect Store Row} (hat : At s rows call pc) (h : SystemStep s pc a eff pc') :
    At (eff.apply s) (eff.held rows) call pc' := by
  cases h with
  | order h => trivial
  | createEvent h =>
      cases h with
      | found => exact hat
      | insert hnew =>
          obtain ⟨-, -, hstate⟩ := newEvent_eq_some hnew
          obtain ⟨description, -, rfl⟩ := Option.map_eq_some_iff.mp hnew
          exact ⟨hstate, _, hat⟩
      | _ => trivial
  | createCategory h => trivial
  | updateEvent h =>
      cases h with
      | find hfind =>
          obtain ⟨hevent, hid, howner, hstate⟩ := findDraft_eq_some hfind
          subst hid howner
          exact ⟨hat, hevent, hstate, Set.mem_insert _ _⟩
      | update happly => exact ⟨_, _, hat, happly⟩
      | _ => trivial
  | transition h =>
      cases h with
      | @update t now event hsource =>
          obtain ⟨hevent, hnames, hstate⟩ := Transition.source_eq_some hsource
          exact ⟨hat, Set.mem_insert _ _, event, hevent, hnames, hstate⟩
      | miss => exact hat
      | _ => trivial
  | createTicketCategory h => trivial
  | modifyTicketCategory h => trivial

theorem At.call {ι : Type} (s : Store) (calls : ι → Call) (i : ι) :
    At s ∅ (calls i) (calls i).pc := by
  cases hcall : calls i <;> simp [Call.pc, At, transitionOf]

/-! ## Calls that return True -/

def returnsTrue : Pc → Bool
  | .updateEvent (.finished (.ok true)) => true
  | .transition (.finished (.ok true)) => true
  | _ => false

/-- The caller's event is in the state the call asks for; an update has left it
a draft, with the fields of the patch. -/
def Fulfilled (s s' : Store) : Call → Prop
  | .updateEvent data userId eventId =>
      ∃ event ∈ s.db.events, ∃ new ∈ s'.db.events, event.id = eventId ∧ event.userId = userId ∧
        event.state = .draft ∧ new.state = .draft ∧ data.apply event = some new
  | .publish userId eventId => ∃ event ∈ s'.db.events,
      event.id = eventId ∧ event.userId = userId ∧ event.state = .onModeration
  | .cancel eventId userId => ∃ event ∈ s'.db.events,
      event.id = eventId ∧ event.userId = userId ∧ event.state = .cancelled
  | .moderate eventId result => ∃ event ∈ s'.db.events,
      event.id = eventId ∧ event.state = if result then .approved else .rejected
  | _ => True

theorem fulfilled_of_transition {s s' : Store} {call : Call} {t : Transition} {event : Event}
    (hcall : transitionOf call = some t) (hevent : event ∈ s'.db.events) (hnames : t.names event)
    (hstate : event.state = t.target) : Fulfilled s s' call := by
  obtain ⟨hnamed, howned⟩ := Transition.names_iff.mp hnames
  cases call <;> simp only [transitionOf, reduceCtorEq, Option.some.injEq] at hcall <;> subst hcall
  case publish userId eventId => exact ⟨event, hevent, hnamed, howned userId rfl, hstate⟩
  case cancel eventId userId => exact ⟨event, hevent, hnamed, howned userId rfl, hstate⟩
  case moderate eventId result => exact ⟨event, hevent, hnamed, hstate⟩

/-- A transition returns True when it commits, or when it found the event in the
target state. -/
theorem transitionStep_true {s : Store} {pc : TransitionPc} {a : EditAct} {eff : Effect Store Row}
    (h : transitionStep s pc a = some (eff, .finished (.ok true))) :
    (∃ t, pc = .updated t ∧ eff = .commit fun s => s.withDb (setState t.eventId t.target)) ∨
      ∃ t event, pc = .missed t ∧ eff = .rollback ∧ s.db.events.find? t.names = some event ∧
        event.state = t.target := by
  fun_cases transitionStep s pc a
  all_goals simp only [transitionStep] at h
  case case4 t now event hfind hstate =>
      rw [hfind] at h
      simp only [hstate, if_true] at h
      cases h
      exact .inr ⟨t, event, rfl, rfl, hfind, hstate⟩
  case case6 t now =>
      cases h
      exact .inl ⟨t, rfl, rfl⟩
  all_goals try simp only [*, if_false] at h
  all_goals cases h

theorem updateStep_true {s : Store} {pc : UpdatePc} {a : EditAct} {eff : Effect Store Row}
    (h : updateStep s pc a = some (eff, .finished (.ok true))) :
    ∃ event, pc = .updated event ∧ eff = .commit fun s => s.withDb (replaceEvent event) := by
  fun_cases updateStep s pc a
  all_goals simp only [updateStep] at h
  case case9 event now =>
      cases h
      exact ⟨event, rfl, rfl⟩
  all_goals try simp only [*] at h
  all_goals cases h

theorem fulfilled_of_true {ι : Type} {i : ι} {s : Store} {rows : Set Row} {call : Call}
    {pc pc' : Pc} {a : Act} {eff : Effect Store Row} (hat : At s rows call pc)
    (h : systemStep i s pc a = some (eff, pc')) (htrue : returnsTrue pc') :
    Fulfilled s (eff.apply s) call := by
  unfold returnsTrue at htrue
  split at htrue
  · cases pc <;> cases a <;> simp only [systemStep, Option.map_eq_some_iff, reduceCtorEq] at h
    all_goals
      obtain ⟨⟨eff', pc''⟩, h, heq⟩ := h
      cases heq
    obtain ⟨new, rfl, rfl⟩ := updateStep_true h
    obtain ⟨data, event, hmatched, happly⟩ := hat
    obtain ⟨hid, -, hstate⟩ := EventUpdateSchema.apply_keeps happly
    rw [hmatched.call]
    refine ⟨event, hmatched.stored, new, List.mem_map.mpr ⟨event, hmatched.stored, ?_⟩, rfl, rfl,
      hmatched.draft, hstate.trans hmatched.draft, happly⟩
    exact if_pos hid.symm
  · cases pc <;> cases a <;> simp only [systemStep, Option.map_eq_some_iff, reduceCtorEq] at h
    all_goals
      obtain ⟨⟨eff', pc''⟩, h, heq⟩ := h
      cases heq
    rcases transitionStep_true h with ⟨t, rfl, rfl⟩ | ⟨t, event, rfl, rfl, hfind, hstate⟩
    · obtain ⟨hcall, -, event, hevent, hnames, -⟩ := hat
      have hid : event.id = t.eventId := (Transition.names_iff.mp hnames).1
      have hnew : { event with state := t.target } ∈ (setState t.eventId t.target s.db).events :=
        List.mem_map.mpr ⟨event, hevent, if_pos hid⟩
      exact fulfilled_of_transition hcall hnew hnames rfl
    · exact fulfilled_of_transition hat (List.mem_of_find?_eq_some hfind)
        (List.find?_some hfind :) hstate
  · cases htrue

/-! ## Whole runs -/

section Run

variable {ι : Type}

def outline (calls : ι → Call) : Outline ι Store Row Pc where
  inv _ := True
  at_ i s rows pc := At s rows (calls i) pc
  apart _ _ := True

def Ordered (w : World ι Store Row Pc) (_ : ι) (_ : Act) : Prop := Keys.outline.Valid w

theorem outline_sound (calls : ι → Call) : (outline calls).Sound systemStep Ordered where
  own _ i _ _ _ hw _ hP _ := ⟨trivial, SystemStep.at (hw.at_ i) (systemStep_cases hP)⟩
  frame w i j a eff pc hw _ hP _ hj := by
    refine ⟨At.of_locked (hw.at_ j) fun event hevent hlocked => ?_, trivial, trivial⟩
    refine mem_of_locked hevent (fun hid => hj ?_) (systemStep_cases hP).writes
    exact w.held_disjoint hlocked (lockedEvent_held (hw.at_ i) hid)

variable [DecidableEq ι]

theorem run_valid {s : Store} (hkeyed : Keyed s) (calls : ι → Call) {w : World ι Store Row Pc}
    (h : Run systemStep anyStep (atCalls s calls) w) :
    Keys.outline.Valid w ∧ (outline calls).Valid w := by
  have hstart : Keys.outline.Valid (atCalls s calls) := Keys.outline_start hkeyed calls
  have hopen : (outline calls).Valid (atCalls s calls) := by
    refine ⟨trivial, fun i => ?_, fun _ _ _ => trivial⟩
    rw [atCalls, World.start_held]
    exact At.call s calls i
  refine ⟨Keys.outline_sound.run h hstart, ?_⟩
  exact (outline_sound calls).run
    ((h.with_invariant (fun _ _ _ _ hv hok hs => Keys.outline_sound.step hv hok hs) hstart).mono
      fun _ _ _ hok => hok.2) hopen

theorem step_moves {calls : ι → Call} {w w' : World ι Store Row Pc}
    (hkeys : Keys.outline.Valid w) (hopen : (outline calls).Valid w) {i : ι} {a : Act}
    (hs : w.step systemStep i a = some w') :
    Moves (calls i) w.shared w'.shared ∧
      (returnsTrue (w'.pc i) → Fulfilled w.shared w'.shared (calls i)) := by
  obtain ⟨eff, pc, hP, -, rfl⟩ := World.step_eq_some.mp hs
  refine ⟨Moves.writes hkeys.inv (hopen.at_ i) (systemStep_cases hP).writes, fun htrue => ?_⟩
  rw [World.after_pc_self] at htrue
  exact fulfilled_of_true (hopen.at_ i) hP htrue

theorem run_succeeds {calls : ι → Call} {w w' : World ι Store Row Pc}
    (hw : Keys.outline.Valid w ∧ (outline calls).Valid w) (h : Run systemStep anyStep w w') :
    ∀ event ∈ w.shared.db.events, ∃ event' ∈ w'.shared.db.events, Succeeds event event' := by
  refine h.versions (I := fun v => Keys.outline.Valid v ∧ (outline calls).Valid v)
    (fun s => s.db.events) Succeeds.refl (fun _ _ _ => Succeeds.trans)
    (fun v v' i a hv hok hs => ?_)
    (fun v v' i a hv _ hs event hevent => ?_) hw
  · exact ⟨Keys.outline_sound.step hv.1 hok hs, (outline_sound calls).step hv.2 hv.1 hs⟩
  · obtain ⟨event', hevent', -, hmove⟩ := (step_moves hv.1 hv.2 hs).1.kept event hevent
    refine ⟨event', hevent', ?_⟩
    rcases hmove with rfl | hcaused
    · exact .refl _
    · exact hcaused.succeeds

/-- In every interleaving: a later version of an event is reached along the edges
with its content frozen once it has left DRAFT; an event in a final state is not
changed at all; each statement changes an event only as its caller's call may;
and a call that returns True leaves its event as it asks. -/
theorem event_states {s : Store} (hkeyed : Keyed s) (calls : ι → Call)
    {w w' : World ι Store Row Pc} (h : Run systemStep anyStep (atCalls s calls) w)
    (h' : Run systemStep anyStep w w') :
    (∀ event ∈ w.shared.db.events, ∃ event' ∈ w'.shared.db.events, Succeeds event event') ∧
      (∀ event ∈ w.shared.db.events, Final event.state → event ∈ w'.shared.db.events) ∧
      ∀ i a v, w'.step systemStep i a = some v →
        Moves (calls i) w'.shared v.shared ∧
          (returnsTrue (v.pc i) → Fulfilled w'.shared v.shared (calls i)) := by
  have hw := run_valid hkeyed calls h
  have hw' := run_valid hkeyed calls (h.trans h')
  refine ⟨run_succeeds hw h', fun event hevent hfinal => ?_, fun i a v hs =>
    step_moves hw'.1 hw'.2 hs⟩
  obtain ⟨event', hevent', hnext⟩ := run_succeeds hw h' event hevent
  exact hnext.eq_of_final hfinal ▸ hevent'

end Run

/-! ## An event that is approved -/

def publishAndApprove : Bool → Call
  | false => .publish 1 1
  | true => .moderate 1 true

def published : Event := ⟨1, "concert", "live", 1, 1, .onModeration, .online, none, 100⟩

/-- What is approved is what was published. -/
theorem event_states_stage :
    ∃ w w', Run systemStep anyStep (atCalls stage publishAndApprove) w ∧
      Run systemStep anyStep w w' ∧ published ∈ w.shared.db.events ∧
      (w'.shared.db.events.map fun event => event.state) = [.approved] ∧
      ∃ event ∈ w'.shared.db.events, Succeeds published event := by
  have hrun : ((atCalls stage publishAndApprove).steps systemStep
      (List.replicate 2 (false, .edit (.run 0)))).bind
      (fun w => (w.steps systemStep (List.replicate 2 (true, .edit (.run 0)))).map
        fun w' => (decide (published ∈ w.shared.db.events),
          w'.shared.db.events.map fun event => event.state)) = some (true, [.approved]) := by
    decide
  obtain ⟨w, hw, hrest⟩ := Option.bind_eq_some_iff.mp hrun
  obtain ⟨w', hw', heq⟩ := Option.map_eq_some_iff.mp hrest
  simp only [Prod.mk.injEq, decide_eq_true_eq] at heq
  have h := Run.of_steps hw
  have h' := Run.of_steps hw'
  exact ⟨w, w', h, h', heq.1, heq.2,
    (event_states keyed_stage publishAndApprove h h').1 published heq.1⟩

end TicketBooking.Catalog.EventStates
