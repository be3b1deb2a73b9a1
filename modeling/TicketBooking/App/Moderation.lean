import TicketBooking.App.Listings
import TicketBooking.App.PrimaryKeys
import TicketBooking.Catalog.EventStates
/-!
# What the public sees

The order, event, ticket category and user services together with the two listings of
events that are for others than their owner: whatever the public is shown was in the
moderation queue, as it is shown, when a moderator approved it, and it is shown until it
starts.
-/

namespace TicketBooking.App.Moderation

open TicketBooking.App.Listings
open TicketBooking.App.PrimaryKeys
open TicketBooking.App.Violations
open TicketBooking.Catalog.EventStates (Caused Final Moves Succeeds lockedEvent lockedEvent_held
  mem_of_locked)
open TicketBooking.Catalog.System (Kept SystemStep)
open TicketBooking.Database.Shared TicketBooking.Database.Tables
open TicketBooking.Library.Sessions
open TicketBooking.Users.Authentication (ServicePc)
open TicketBooking.Users.Ownership (EventResponse eventResponse)

/-! ## The events -/

section Steps

variable {s : Store} {rows : Set Row} {pc pc' : ServicePc} {a : ServiceAct}
  {eff : Effect Store Row} {call : Call}

/-- A statement that leaves the catalog alone, or one of its own. -/
inductive Touches (s : Store) : ServicePc → Effect Store Row → ServicePc → Prop
  | order {pc pc' : Order.Transactions.Pc} {eff : Effect Store Row} (h : Kept s (eff.apply s)) :
      Touches s (.catalog (.order pc)) eff (.catalog (.order pc'))
  | users {pc pc' : Users.Transactions.UserPc} {eff : Effect Store Row}
      (h : Kept s (eff.apply s)) : Touches s (.users pc) eff (.users pc')
  | catalog {pc pc' : Catalog.System.Pc} {a : Catalog.System.Act} {eff : Effect Store Row}
      (h : SystemStep s pc a eff pc') : Touches s (.catalog pc) eff (.catalog pc')

theorem service_touches (h : ServiceStep s pc a eff pc') : Touches s pc eff pc' := by
  cases h with
  | createOrder h =>
      refine .order ?_
      cases Order.Transactions.createStep_cases h <;> exact ⟨rfl, rfl, rfl, le_rfl, le_rfl, le_rfl⟩
  | confirm h =>
      refine .order ?_
      cases Order.Transactions.confirmStep_cases h <;> exact ⟨rfl, rfl, rfl, le_rfl, le_rfl, le_rfl⟩
  | expire h =>
      refine .order ?_
      cases Order.Transactions.expireStep_cases h <;> exact ⟨rfl, rfl, rfl, le_rfl, le_rfl, le_rfl⟩
  | migrate h =>
      refine .order ?_
      cases Order.Transactions.migrateStep_cases h <;> exact ⟨rfl, rfl, rfl, le_rfl, le_rfl, le_rfl⟩
  | fire => exact .order ⟨rfl, rfl, rfl, le_rfl, le_rfl, le_rfl⟩
  | requery => exact .order (by rw [apply_afterSelect]; exact .refl s)
  | createEvent h => exact .catalog (.createEvent (Catalog.Transactions.createStep_cases h))
  | createCategory h => exact .catalog (.createCategory (Catalog.Transactions.categoryStep_cases h))
  | updateEvent h => exact .catalog (.updateEvent (Catalog.Transactions.updateStep_cases h))
  | transition h => exact .catalog (.transition (Catalog.Transactions.transitionStep_cases h))
  | createTicketCategory h =>
      exact .catalog (.createTicketCategory (Catalog.Transactions.ticketCategoryStep_cases h))
  | modifyTicketCategory h =>
      exact .catalog (.modifyTicketCategory (Catalog.Transactions.modifyStep_cases h))
  | createUser h =>
      refine .users ?_
      cases Users.Transactions.createStep_cases h <;> exact ⟨rfl, rfl, rfl, le_rfl, le_rfl, le_rfl⟩
  | change h =>
      refine .users ?_
      cases Users.Transactions.changeStep_cases h <;> exact ⟨rfl, rfl, rfl, le_rfl, le_rfl, le_rfl⟩

def At (s : Store) (rows : Set Row) : Call → ServicePc → Prop
  | .catalog call, .catalog pc => Catalog.EventStates.At s rows call pc
  | .order _, .catalog (.order _) => True
  | .users _, .users _ => True
  | _, _ => False

theorem At.touches (hat : At s rows call pc) (h : Touches s pc eff pc') :
    At (eff.apply s) (eff.held rows) call pc' := by
  cases h with
  | order => cases call <;> trivial
  | users => cases call <;> trivial
  | catalog h =>
      cases call with
      | catalog call => exact Catalog.EventStates.SystemStep.at hat h
      | order call =>
          cases h with
          | order => trivial
          | _ => exact hat
      | users call => exact hat

theorem events_of_touches (hkeyed : Catalog.Keys.Keyed s) (hat : At s rows call pc)
    (h : Touches s pc eff pc') : (eff.apply s).db.events = s.db.events ∨
      ∃ c, call = .catalog c ∧ Moves c s (eff.apply s) := by
  cases h with
  | order h => exact .inl h.events
  | users h => exact .inl h.events
  | catalog h =>
      cases call with
      | catalog call => exact .inr ⟨call, rfl, .writes hkeyed hat h.writes⟩
      | order call =>
          cases h with
          | order h => exact .inl (Catalog.System.orderStep_kept h).events
          | _ => exact hat.elim
      | users call => exact hat.elim

theorem At.of_locked {s' : Store} (hat : At s rows call pc)
    (hkept : ∀ event ∈ s.db.events, Row.event event.id ∈ rows → event ∈ s'.db.events) :
    At s' rows call pc := by
  unfold At at hat ⊢
  split at hat
  · exact Catalog.EventStates.At.of_locked hat hkept
  · trivial
  · trivial
  · exact hat

/-- An event another session has locked stays as it is. -/
theorem mem_of_touches {event : Event} (hevent : event ∈ s.db.events)
    (hat : At s rows call pc) (hfree : Row.event event.id ∉ rows) (h : Touches s pc eff pc') :
    event ∈ (eff.apply s).db.events := by
  cases h with
  | order h => exact h.events ▸ hevent
  | users h => exact h.events ▸ hevent
  | catalog h =>
      refine mem_of_locked hevent (fun hid => hfree ?_) h.writes
      cases call with
      | catalog call => exact lockedEvent_held hat hid
      | order call =>
          cases h with
          | order => cases hid
          | _ => exact hat.elim
      | users call => exact hat.elim

end Steps

/-! ## The events of a run -/

section Runs

variable {ι : Type} {s : Store} {calls : ι → Call} {w w' : World ι Store Row ServicePc}

def outline (calls : ι → Call) : Outline ι Store Row ServicePc where
  inv _ := True
  at_ i s rows pc := At s rows (calls i) pc
  apart _ _ := True

theorem outline_sound (calls : ι → Call)
    (ok : World ι Store Row ServicePc → ι → ServiceAct → Prop) :
    (outline calls).Sound serviceStep ok where
  own _ i _ _ _ hw _ hP _ := ⟨trivial, (hw.at_ i).touches (service_touches (serviceStep_cases hP))⟩
  frame w i j a eff pc hw _ hP _ hj := by
    refine ⟨(hw.at_ j).of_locked fun event hevent hlocked => ?_, trivial, trivial⟩
    refine mem_of_touches hevent (hw.at_ i) (fun hown => hj ?_)
      (service_touches (serviceStep_cases hP))
    exact w.held_disjoint hlocked hown

theorem at_call (s : Store) (call : Call) : At s ∅ call call.pc := by
  cases call with
  | order call => cases call <;> trivial
  | catalog call => exact Catalog.EventStates.At.call s (fun _ : Unit => call) ()
  | users call => trivial

variable [DecidableEq ι]

theorem valid_of_run (hrun : Run serviceStep anyStep (atCalls s calls) w) :
    (outline calls).Valid w := by
  refine (outline_sound calls anyStep).run hrun ⟨trivial, fun i => ?_, fun _ _ _ => trivial⟩
  rw [show (atCalls s calls).held i = ∅ from World.start_held s _ i]
  exact at_call s (calls i)

theorem keyed_events (h : Keyed s) : Catalog.Keys.Keyed s :=
  ⟨(h.ids .event).nodup, List.forall_mem_map.mp (h.ids .event).below,
    (h.ids .ticketCategory).nodup, List.forall_mem_map.mp (h.ids .ticketCategory).below⟩

theorem step_events (hkeyed : Keyed s) (hrun : Run serviceStep anyStep (atCalls s calls) w)
    {i : ι} {a : ServiceAct} (hs : w.step serviceStep i a = some w') :
    w'.shared.db.events = w.shared.db.events ∨
      ∃ c, calls i = .catalog c ∧ Moves c w.shared w'.shared := by
  obtain ⟨eff, pc, hP, -, rfl⟩ := World.step_eq_some.mp hs
  exact events_of_touches (keyed_events (keyed_of_run hkeyed hrun)) ((valid_of_run hrun).at_ i)
    (service_touches (serviceStep_cases hP))

/-- Each event has a later version wherever a run leads. -/
theorem run_events (hkeyed : Keyed s) (hrun : Run serviceStep anyStep (atCalls s calls) w)
    (hlater : Run serviceStep anyStep w w') :
    ∀ event ∈ w.shared.db.events, ∃ event' ∈ w'.shared.db.events, Succeeds event event' := by
  refine hlater.versions (I := fun v => Run serviceStep anyStep (atCalls s calls) v)
    (fun s => s.db.events) Succeeds.refl (fun _ _ _ => Succeeds.trans)
    (fun v v' i a hv hok hs => hv.step hok hs) (fun v v' i a hv _ hs event hevent => ?_) hrun
  rcases step_events hkeyed hv hs with hsame | ⟨c, -, hmoves⟩
  · exact ⟨event, hsame ▸ hevent, .refl event⟩
  · obtain ⟨event', hevent', -, hmove⟩ := hmoves.kept event hevent
    rcases hmove with rfl | hcaused
    · exact ⟨event', hevent', .refl event'⟩
    · exact ⟨event', hevent', hcaused.succeeds⟩

theorem approved_kept (hkeyed : Keyed s) (hrun : Run serviceStep anyStep (atCalls s calls) w)
    (hlater : Run serviceStep anyStep w w') {event : Event} (hevent : event ∈ w.shared.db.events)
    (hstate : event.state = .approved) : event ∈ w'.shared.db.events := by
  obtain ⟨event', hevent', hnext⟩ := run_events hkeyed hrun hlater event hevent
  exact hnext.eq_of_final (.inl hstate) ▸ hevent'

def Approved (id : Nat) (s : Store) : Prop :=
  ∃ event ∈ s.db.events, event.id = id ∧ event.state = .approved

/-- Only a moderator approves, and what was in the queue. -/
theorem approved_of_caused {c : Catalog.System.Call} {event event' : Event}
    (h : Caused c event event') (hstate : event'.state = .approved) :
    c = .moderate event.id true ∧ event.state = .onModeration ∧
      event' = { event with state := .approved } := by
  cases h with
  | update hdraft hnew =>
      rw [(Catalog.Editing.EventUpdateSchema.apply_keeps hnew).2.2, hdraft] at hstate
      cases hstate
  | publish => cases hstate
  | cancel => cases hstate
  | @moderate _ result hqueued =>
      cases result with
      | true => exact ⟨rfl, hqueued, rfl⟩
      | false => cases hstate

theorem queued_of_step (hkeyed : Keyed s) (hrun : Run serviceStep anyStep (atCalls s calls) w)
    {i : ι} {a : ServiceAct} (hs : w.step serviceStep i a = some w') {event : Event}
    (hevent : event ∈ w'.shared.db.events) (hstate : event.state = .approved)
    (hnew : ¬ Approved event.id w.shared) :
    calls i = .catalog (.moderate event.id true) ∧
      ∃ queued ∈ w.shared.db.events, queued.state = .onModeration ∧
        event = { queued with state := .approved } := by
  rcases step_events hkeyed hrun hs with hsame | ⟨c, hcall, hmoves⟩
  · exact absurd ⟨event, hsame ▸ hevent, rfl, hstate⟩ hnew
  · rcases hmoves.new event hevent with ⟨old, hold, hid⟩ | ⟨hdraft, -⟩
    · obtain ⟨event', hevent', hid', hmove⟩ := hmoves.kept old hold
      have hkeys := keyed_events (keyed_of_run hkeyed (hrun.step trivial hs))
      obtain rfl : event' = event := hkeys.event_ext hevent' hevent (hid'.trans hid)
      rcases hmove with rfl | hcaused
      · exact absurd ⟨event', hold, rfl, hstate⟩ hnew
      · obtain ⟨rfl, hqueued, heq⟩ := approved_of_caused hcaused hstate
        exact ⟨hid ▸ hcall, old, hold, hqueued, heq⟩
    · cases hdraft.symm.trans hstate

end Runs

/-! ## What is shown -/

section Shown

variable {r : Snapshot} {response : EventResponse}

def Public (r : Snapshot) (response : EventResponse) : Prop :=
  ∃ p, Shows r (.publicEvents p) (.event response)

def Queued (r : Snapshot) (response : EventResponse) : Prop :=
  ∃ p, Shows r (.eventsForModeration p) (.event response)

theorem public_iff : Public r response ↔ ∃ event ∈ r.db.events,
    event.status r.now = .upcoming ∧ eventResponse r.now event (r.views event.id) = response := by
  constructor
  · rintro ⟨p, hshows⟩
    exact upcoming_of_shows hshows
  · rintro ⟨event, hevent, hstatus, rfl⟩
    exact ⟨{}, shows_public hevent hstatus rfl rfl⟩

theorem queued_of_mem {event : Event} (hevent : event ∈ r.db.events)
    (hstate : event.state = .onModeration) : Queued r (eventResponse r.now event 0) :=
  ⟨{}, shows_moderation hevent hstate rfl rfl⟩

theorem status_upcoming {event : Event} {now : Int} :
    event.status now = .upcoming ↔ event.state = .approved ∧ now ≤ event.startedAt := by
  unfold Event.status
  cases event.state <;> simp

end Shown

/-- In every interleaving of the services' calls, an event the public is shown was approved from the
start, or a moderator approved it when the queue showed it as it is; and until it starts the
public is shown it as it is. -/
theorem public_events_vetted {ι : Type} [DecidableEq ι] {s : Store} {calls : ι → Call}
    {w w' : World ι Store Row ServicePc} (hkeyed : Keyed s)
    (hrun : Run serviceStep anyStep (atCalls s calls) w) (hlater : Run serviceStep anyStep w w')
    {r r' : Snapshot} (hr : r.db = w.shared.db) (hr' : r'.db = w'.shared.db)
    {response : EventResponse} (hpublic : Public r response) :
    (Approved response.id s ∨
      ∃ v v' i a, Run serviceStep anyStep (atCalls s calls) v ∧
        v.step serviceStep i a = some v' ∧ Run serviceStep anyStep v' w ∧
        calls i = .catalog (.moderate response.id true) ∧
        ∀ q : Snapshot, q.db = v.shared.db →
          Queued q { response with status := .onModeration, views := 0 }) ∧
      (r'.now ≤ response.startedAt →
        Public r' { response with views := r'.views response.id }) := by
  obtain ⟨event, hevent, hstatus, rfl⟩ := public_iff.mp hpublic
  obtain ⟨hstate, -⟩ := status_upcoming.mp hstatus
  rw [hr] at hevent
  have happroved : Approved event.id w.shared := ⟨event, hevent, rfl, hstate⟩
  refine ⟨Classical.or_iff_not_imp_left.mpr fun hnew => ?_, fun hnow => ?_⟩
  · obtain ⟨v, v', i, a, hv, hbefore, -, hs, ⟨event', hevent', hid, hstate'⟩, hrest⟩ :=
      hrun.origin (I := fun v => Approved event.id v.shared) hnew happroved
    have hv' : Run serviceStep anyStep (atCalls s calls) v' := hv.step trivial hs
    obtain rfl : event' = event := (keyed_events (keyed_of_run hkeyed hrun)).event_ext
      (approved_kept hkeyed hv' hrest hevent' hstate') hevent hid
    obtain ⟨hcall, queued, hqueued, hwaiting, rfl⟩ :=
      queued_of_step hkeyed hv hs hevent' hstate' hbefore
    refine ⟨v, v', i, a, hv, hs, hrest, hcall, fun q hq => ?_⟩
    have hshown := queued_of_mem (r := q) (hq ▸ hqueued) hwaiting
    unfold eventResponse at hshown ⊢
    rw [show queued.status q.now = .onModeration by unfold Event.status; rw [hwaiting]] at hshown
    exact hshown
  · have hevent' := approved_kept hkeyed hrun hlater hevent hstate
    have hstatus' := status_upcoming.mpr ⟨hstate, hnow⟩
    refine public_iff.mpr ⟨event, hr' ▸ hevent', hstatus', ?_⟩
    unfold eventResponse
    rw [hstatus, hstatus']

def submitted : Store where
  db := { events := [Catalog.EventStates.published] }
  seq := { events := 2 }

def approval : Unit → Call := fun _ => .catalog (.moderate 1 true)

theorem keyed_submitted : Keyed submitted where
  ids model := by
    cases model with
    | event => exact ⟨List.nodup_singleton _, List.forall_mem_singleton.mpr (by decide)⟩
    | _ => exact ⟨List.nodup_nil, fun _ h => by cases h⟩
  emails := List.nodup_nil
  categoryNames := List.nodup_nil

def concert : EventResponse := ⟨1, "concert", 1, 1, .upcoming, .online, 100, none, 7⟩

theorem public_events_vetted_concert :
    ∃ w v r, Run serviceStep anyStep (atCalls submitted approval) w ∧
      Run serviceStep anyStep (atCalls submitted approval) v ∧ r.db = w.shared.db ∧
      Public r concert ∧ ∀ q : Snapshot, q.db = v.shared.db →
        Queued q { concert with status := .onModeration, views := 0 } := by
  have hsteps : ∃ w, (atCalls submitted approval).steps serviceStep
      (List.replicate 2 ((), .catalog (.edit (.run 0)))) = some w ∧
        w.shared.db = { events := [{ Catalog.EventStates.published with state := .approved }] } :=
    ⟨_, rfl, rfl⟩
  obtain ⟨w, hw, hdb⟩ := hsteps
  have hrun := Run.of_steps hw
  have hids : ∀ model, ∀ row ∈ Database.Models.records w.shared.db model,
      Views.Logs.FitsColumn (Database.Statements.idOf row) := by
    rw [hdb]
    intro model
    cases model with
    | event => exact List.forall_mem_singleton.mpr (by decide)
    | _ => exact List.forall_mem_nil _
  let r : Snapshot := ⟨0, w.shared.db, id, fun _ => 7,
    (keyed_of_run keyed_submitted hrun).primaryKeys, hids, fun rows => .refl rows⟩
  have hevents : w.shared.db.events =
      [{ Catalog.EventStates.published with state := .approved }] := congrArg Db.events hdb
  have hpublic : Public r concert :=
    public_iff.mpr ⟨_, hevents ▸ List.mem_singleton_self _, rfl, rfl⟩
  rcases (public_events_vetted keyed_submitted hrun .refl rfl (rfl : r.db = _) hpublic).1 with
    ⟨event, hevent, -, hstate⟩ | ⟨v, v', i, a, hv, -, -, -, hqueued⟩
  · cases List.mem_singleton.mp hevent
    cases hstate
  · exact ⟨w, v, r, hrun, hv, rfl, hpublic, hqueued⟩

end TicketBooking.App.Moderation
