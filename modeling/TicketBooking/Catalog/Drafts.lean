import Mathlib.Data.Fintype.Basic
import TicketBooking.Catalog.Keys
/-!
# Ticket categories of drafts

The ticket categories of an event are edited while the event is a draft.  The
service reads the event's status in one statement and writes the category in a
later one, and takes no lock on the event, so a transition of the event can
commit in between.
-/

namespace TicketBooking.Catalog.Drafts

open TicketBooking.Catalog.Editing TicketBooking.Catalog.Keys TicketBooking.Catalog.System
open TicketBooking.Catalog.Transactions
open TicketBooking.Database.Shared TicketBooking.Database.Tables
open TicketBooking.Library.Sessions
open TicketBooking.Order.Booking (one two ten)

def Draft (db : Db) (eventId : Nat) : Prop :=
  ∀ event ∈ db.events, event.id = eventId → event.state = .draft

def LeftDraft (db : Db) (eventId : Nat) : Prop :=
  ∃ event ∈ db.events, event.id = eventId ∧ event.state ≠ .draft

instance (db : Db) (eventId : Nat) : Decidable (LeftDraft db eventId) :=
  inferInstanceAs (Decidable (∃ event ∈ db.events, event.id = eventId ∧ event.state ≠ .draft))

theorem Draft.not_left {db : Db} {eventId : Nat} (h : Draft db eventId) :
    ¬ LeftDraft db eventId := by
  rintro ⟨event, hevent, hid, hstate⟩
  exact hstate (h event hevent hid)

def categoriesOf (db : Db) (eventId : Nat) : List TicketCategory :=
  db.ticketCategories.filter fun category => category.eventId = eventId

/-! ## What a session has read -/

def editing : Pc → Option Nat
  | .createTicketCategory (.checked data) => some data.eventId.val
  | .createTicketCategory (.inserting category) => some category.eventId
  | .createTicketCategory (.keyed category) => some category.eventId
  | .createTicketCategory (.inserted category) => some category.eventId
  | .modifyTicketCategory (.checked _ _ category) => some category.eventId
  | .modifyTicketCategory (.locking category _ _) => some category.eventId
  | .modifyTicketCategory (.modified category _) => some category.eventId
  | _ => none

def holding : Pc → Option (Nat × Nat)
  | .modifyTicketCategory (.categoryRead _ objId _ category) => some (objId, category.eventId)
  | .modifyTicketCategory (.checked objId _ category) => some (objId, category.eventId)
  | .modifyTicketCategory (.locking category _ _) => some (category.id, category.eventId)
  | .modifyTicketCategory (.modified category _) => some (category.id, category.eventId)
  | _ => none

def changing : Pc → Option Nat
  | .updateEvent (.matched _ event) => some event.id
  | .updateEvent (.updated event) => some event.id
  | .transition (.updated t) => some t.eventId
  | _ => none

def version : Pc → Option Event
  | .createEvent (.inserted event) => some event
  | .updateEvent (.matched _ event) => some event
  | .updateEvent (.updated event) => some event
  | _ => none

structure At (s : Store) (rows : Set Row) (pc : Pc) : Prop where
  editing : ∀ eventId, editing pc = some eventId → Draft s.db eventId
  holding : ∀ id eventId, holding pc = some (id, eventId) → id < s.seq.ticketCategories ∧
    ∀ category ∈ s.db.ticketCategories, category.id = id → category.eventId = eventId
  changing : ∀ id, changing pc = some id → Row.event id ∈ rows
  version : ∀ event, version pc = some event → event.state = .draft
  matched : ∀ event id, Drafts.version pc = some event → Drafts.changing pc = some id →
    Draft s.db id

/-- A category to be modified was committed before a new one draws its id. -/
def Apart (pc pc' : Pc) : Prop :=
  (∀ id eventId, holding pc = some (id, eventId) → drawnTicketCategory pc' ≠ some id) ∧
    ∀ id eventId, holding pc' = some (id, eventId) → drawnTicketCategory pc ≠ some id

theorem Apart.symm {pc pc' : Pc} (h : Apart pc pc') : Apart pc' pc := ⟨h.2, h.1⟩

/-- A session that has no event to change keeps what it edits and holds. -/
theorem At.unchanging {s : Store} {rows : Set Row} {pc : Pc}
    (hediting : ∀ eventId, Drafts.editing pc = some eventId → Draft s.db eventId)
    (hholding : ∀ id eventId, Drafts.holding pc = some (id, eventId) →
      id < s.seq.ticketCategories ∧
        ∀ category ∈ s.db.ticketCategories, category.id = id → category.eventId = eventId)
    (hchanging : Drafts.changing pc = none) (hversion : Drafts.version pc = none) :
    At s rows pc := by
  refine ⟨hediting, hholding, ?_, ?_, ?_⟩
  · simp [hchanging]
  · simp [hversion]
  · simp [hversion]

theorem At.idle {s : Store} {rows : Set Row} {pc : Pc} (hediting : Drafts.editing pc = none)
    (hholding : Drafts.holding pc = none) (hchanging : Drafts.changing pc = none)
    (hversion : Drafts.version pc = none) : At s rows pc :=
  .unchanging (by simp [hediting]) (by simp [hholding]) hchanging hversion

def committing : Pc → Act → Option Transition
  | .transition (.updated t), .edit (.run _) => some t
  | _, _ => none

/-- No event changes its state by a commit while a session has found it a draft
and is editing one of its categories. -/
def Undisturbed {ι : Type} (w : World ι Store Row Pc) (i : ι) (a : Act) : Prop :=
  ∀ t ∈ committing (w.pc i) a, ∀ j, editing (w.pc j) ≠ some t.eventId

instance {ι : Type} [Fintype ι] (w : World ι Store Row Pc) (i : ι) (a : Act) :
    Decidable (Undisturbed w i a) :=
  inferInstanceAs (Decidable (∀ t ∈ committing (w.pc i) a, ∀ j, editing (w.pc j) ≠ some t.eventId))

/-! ## Reading a draft -/

theorem Keyed.draft {s : Store} (h : Keyed s) {event : Event} (hevent : event ∈ s.db.events)
    (hstate : event.state = .draft) : Draft s.db event.id := by
  intro other hother hid
  rw [h.event_ext hother hevent hid]
  exact hstate

theorem guardEvent_draft {s : Store} (h : Keyed s) {userId eventId : Nat} {now : Int}
    (hguard : guardEvent s userId eventId now = none) : Draft s.db eventId := by
  unfold guardEvent at hguard
  cases hfind : findEvent s.db eventId with
  | none => simp [hfind] at hguard
  | some event =>
      simp only [hfind] at hguard
      split_ifs at hguard with howner hstatus
      obtain ⟨hevent, rfl⟩ := findEvent_eq_some hfind
      exact Keyed.draft h hevent ((event.status_eq_draft now).mp (not_not.mp hstatus))

/-! ## The assertions of the other sessions -/

theorem mem_putTicketCategory {id : Nat} {new : Option TicketCategory} {db : Db}
    {category : TicketCategory} (h : category ∈ (putTicketCategory id new db).ticketCategories) :
    category ∈ db.ticketCategories ∨
      new = some category ∧ ∃ old ∈ db.ticketCategories, old.id = id := by
  obtain ⟨old, hold, hput⟩ := List.mem_filterMap.mp h
  split_ifs at hput with hid
  · exact .inr ⟨hput, old, hold, hid⟩
  · cases hput
    exact .inl hold

/-- A row that is published keeps its event's state, or the event is a draft. -/
theorem Draft.of_events {db db' : Db} {eventId : Nat} (h : Draft db eventId)
    (hevents : ∀ event ∈ db'.events, event.id = eventId →
      event ∈ db.events ∨ event.state = .draft) : Draft db' eventId := by
  intro event hevent hid
  rcases hevents event hevent hid with hold | hstate
  · exact h event hold hid
  · exact hstate

theorem draft_replaceEvent {db : Db} {event : Event} {eventId : Nat} (h : Draft db eventId)
    (hstate : event.state = .draft) : Draft (replaceEvent event db) eventId := by
  refine h.of_events fun new hnew _ => ?_
  obtain ⟨old, hold, rfl⟩ := List.mem_map.mp hnew
  split_ifs with hid
  · exact .inr hstate
  · exact .inl hold

theorem draft_setState {db : Db} {id eventId : Nat} {state : EventState} (h : Draft db eventId)
    (hne : eventId ≠ id) : Draft (setState id state db) eventId := by
  refine h.of_events fun new hnew hid => ?_
  obtain ⟨old, hold, rfl⟩ := List.mem_map.mp hnew
  split_ifs at hid ⊢ with heq
  · exact absurd (hid.symm.trans heq) hne
  · exact .inl hold

theorem draft_insertEvent {db : Db} {event : Event} {eventId : Nat} (h : Draft db eventId)
    (hstate : event.state = .draft) : Draft (insertEvent event db) eventId := by
  refine h.of_events fun new hnew _ => ?_
  rcases List.mem_append.mp hnew with hold | hnew
  · exact .inl hold
  · exact .inr (List.mem_singleton.mp hnew ▸ hstate)

/-- What `At` says of a session's own statements stays, when the drafts it has
read and the categories it holds stay. -/
theorem At.of_drafts {s s' : Store} {rows : Set Row} {pc : Pc} (h : At s rows pc)
    (hediting : ∀ eventId, Drafts.editing pc = some eventId → Draft s.db eventId →
      Draft s'.db eventId)
    (hmatched : ∀ id, Drafts.changing pc = some id → Draft s.db id → Draft s'.db id)
    (hseq : s.seq.ticketCategories ≤ s'.seq.ticketCategories)
    (hholding : ∀ id eventId, Drafts.holding pc = some (id, eventId) →
      ∀ category ∈ s'.db.ticketCategories, category.id = id →
        category.eventId = eventId) : At s' rows pc := by
  refine ⟨fun eventId hid => hediting eventId hid (h.editing eventId hid),
    fun id eventId hid => ?_, h.changing, h.version, fun event id hversion hid =>
      hmatched id hid (h.matched event id hversion hid)⟩
  exact ⟨lt_of_lt_of_le (h.holding id eventId hid).1 hseq, hholding id eventId hid⟩

theorem At.writes {ι : Type} {w : World ι Store Row Pc} {i j : ι} {a : Act} {eff : Effect Store Row}
    (hji : j ≠ i) (hi : At w.shared (w.held i) (w.pc i)) (hj : At w.shared (w.held j) (w.pc j))
    (hkeys : Keys.At w.shared (w.pc i)) (hapart : Apart (w.pc i) (w.pc j))
    (hok : Undisturbed w i a) (hwrites : Writes w.shared (w.pc i) a eff) :
    At (eff.apply w.shared) (w.held j) (w.pc j) := by
  have hheld : ∀ id eventId, Drafts.holding (w.pc j) = some (id, eventId) →
      ∀ category ∈ w.shared.db.ticketCategories, category.id = id → category.eventId = eventId :=
    fun id eventId hid => (hj.holding id eventId hid).2
  generalize hpc : w.pc i = pc at hi hkeys hapart hwrites
  cases hwrites with
  | nothing hkept =>
      refine hj.of_drafts (fun eventId _ h => ?_) (fun id _ h => ?_) hkept.ticketCategorySeq ?_
      · exact h.of_events fun event hevent _ => .inl (hkept.events ▸ hevent)
      · exact h.of_events fun event hevent _ => .inl (hkept.events ▸ hevent)
      · rw [hkept.ticketCategories]
        exact hheld
  | insertEvent =>
      have hstate := hi.version _ rfl
      exact hj.of_drafts (fun _ _ h => draft_insertEvent h hstate)
        (fun _ _ h => draft_insertEvent h hstate) le_rfl hheld
  | insertEventCategory => exact hj.of_drafts (fun _ _ h => h) (fun _ _ h => h) le_rfl hheld
  | replaceEvent =>
      have hstate := hi.version _ rfl
      exact hj.of_drafts (fun _ _ h => draft_replaceEvent h hstate)
        (fun _ _ h => draft_replaceEvent h hstate) le_rfl hheld
  | @setState t =>
      have hopen := hok t (by rw [hpc]; rfl)
      refine hj.of_drafts (fun eventId hid h => ?_) (fun id hid h => ?_) le_rfl hheld
      · refine draft_setState h ?_
        rintro rfl
        exact hopen j hid
      · -- both sessions would hold the lock on the row of the event
        refine draft_setState h ?_
        rintro rfl
        exact hji (w.held_disjoint (hj.changing _ hid) (hi.changing _ rfl))
  | @insertTicketCategory new =>
      refine hj.of_drafts (fun _ _ h => h) (fun _ _ h => h) le_rfl
        fun id eventId hid category hcategory heq => ?_
      rcases List.mem_append.mp hcategory with hcategory | hcategory
      · exact hheld id eventId hid category hcategory heq
      · rw [List.mem_singleton.mp hcategory] at heq
        exact absurd (congrArg some heq) (hapart.2 id eventId hid)
  | @putTicketCategory matched new =>
      refine hj.of_drafts (fun _ _ h => h) (fun _ _ h => h) le_rfl
        fun id eventId hid category hcategory heq => ?_
      rcases mem_putTicketCategory hcategory with hcategory | ⟨rfl, old, hold, holdid⟩
      · exact hheld id eventId hid category hcategory heq
      · -- the new version has the id and the event of the row it replaces
        obtain ⟨hsameId, hsameEvent⟩ := hkeys.rewritten matched category rfl
        have hread : old.eventId = matched.eventId := (hi.holding _ _ rfl).2 old hold holdid
        have hkept : old.eventId = eventId :=
          hheld id eventId hid old hold (holdid.trans (hsameId.symm.trans heq))
        rw [hsameEvent, ← hread, hkept]

/-! ## The assertions of the session itself -/

section Step

variable {s : Store} {rows : Set Row} {a : EditAct} {eff : Effect Store Row}

theorem createStep_at {pc pc' : CreatePc} (h : CreateStep s pc a eff pc') :
    At (eff.apply s) (eff.held rows) (.createEvent pc') := by
  cases h with
  | insert hnew =>
      refine ⟨by simp [editing], by simp [holding], by simp [changing], fun event hevent => ?_,
        by simp [changing]⟩
      cases hevent
      exact (newEvent_eq_some hnew).2.2
  | _ => exact .idle rfl rfl rfl rfl

theorem updateStep_at {pc pc' : UpdatePc} (h : UpdateStep s pc a eff pc') (hkeyed : Keyed s)
    (hat : At s rows (.updateEvent pc)) : At (eff.apply s) (eff.held rows) (.updateEvent pc') := by
  cases h with
  | find hfind =>
      obtain ⟨hevent, hid, -, hstate⟩ := findDraft_eq_some hfind
      refine ⟨by simp [editing], by simp [holding], fun id hid' => ?_, fun event' hversion => ?_,
        fun event' id _ hid' => ?_⟩
      · cases hid'
        rw [hid]
        exact Set.mem_insert _ _
      · cases hversion
        exact hstate
      · cases hid'
        exact Keyed.draft hkeyed hevent hstate
  | update happly =>
      obtain ⟨hid, -, hstate⟩ := EventUpdateSchema.apply_keeps happly
      refine ⟨by simp [editing], by simp [holding], fun id hid' => ?_, fun event' hversion => ?_,
        fun event' id _ hid' => ?_⟩
      · cases hid'
        rw [hid]
        exact hat.changing _ rfl
      · cases hversion
        exact hstate.trans (hat.version _ rfl)
      · cases hid'
        rw [hid]
        exact hat.matched _ _ rfl rfl
  | _ => exact .idle rfl rfl rfl rfl

theorem transitionStep_at {pc pc' : TransitionPc} (h : TransitionStep s pc a eff pc') :
    At (eff.apply s) (eff.held rows) (.transition pc') := by
  cases h with
  | update =>
      refine ⟨by simp [editing], by simp [holding], fun id hid => ?_, by simp [version],
        by simp [version]⟩
      cases hid
      exact Set.mem_insert _ _
  | _ => exact .idle rfl rfl rfl rfl

theorem ticketCategoryStep_at {pc pc' : TicketCategoryPc} (h : TicketCategoryStep s pc a eff pc')
    (hkeyed : Keyed s) (hat : At s rows (.createTicketCategory pc)) :
    At (eff.apply s) (eff.held rows) (.createTicketCategory pc') := by
  cases h with
  | check hguard =>
      refine .unchanging (fun eventId hid => ?_) (by simp [holding]) rfl rfl
      cases hid
      exact guardEvent_draft hkeyed hguard
  | draw => exact .unchanging hat.editing (by simp [holding]) rfl rfl
  | lockName => exact .unchanging hat.editing (by simp [holding]) rfl rfl
  | insert => exact .unchanging hat.editing (by simp [holding]) rfl rfl
  | _ => exact .idle rfl rfl rfl rfl

theorem modifyStep_at {pc pc' : ModifyPc} (h : ModifyStep s pc a eff pc') (hkeyed : Keyed s)
    (hat : At s rows (.modifyTicketCategory pc)) :
    At (eff.apply s) (eff.held rows) (.modifyTicketCategory pc') := by
  cases h with
  | @read userId objId change now category hfind =>
      obtain ⟨hcategory, hid⟩ := findTicketCategory_eq_some hfind
      refine .unchanging (by simp [editing]) (fun id eventId hheld => ?_) rfl rfl
      cases hheld
      refine ⟨hid ▸ hkeyed.ticketCategorySeq category hcategory, fun other hother hother' => ?_⟩
      rw [hkeyed.ticketCategory_ext hother hcategory (hother'.trans hid.symm)]
  | check hguard =>
      refine .unchanging (fun eventId hid => ?_) hat.holding rfl rfl
      cases hid
      exact guardEvent_draft hkeyed hguard
  | @lockRow objId change now read category hfind =>
      obtain ⟨hcategory, hid⟩ := findTicketCategory_eq_some hfind
      have hevent : category.eventId = read.eventId :=
        (hat.holding _ _ rfl).2 category hcategory hid
      refine .unchanging (fun eventId hediting => ?_) (fun id eventId hheld => ?_) rfl rfl
      · cases hediting
        exact hevent ▸ hat.editing _ rfl
      · cases hheld
        rw [hid, hevent]
        exact hat.holding _ _ rfl
  | lockName => exact .unchanging hat.editing hat.holding rfl rfl
  | modify => exact .unchanging hat.editing hat.holding rfl rfl
  | _ => exact .idle rfl rfl rfl rfl

end Step

theorem SystemStep.at {s : Store} {rows : Set Row} {pc pc' : Pc} {a : Act} {eff : Effect Store Row}
    (hkeyed : Keyed s) (hat : At s rows pc) (h : SystemStep s pc a eff pc') :
    At (eff.apply s) (eff.held rows) pc' := by
  cases h with
  | order h => exact .idle rfl rfl rfl rfl
  | createEvent h => exact createStep_at h
  | createCategory h => exact .idle rfl rfl rfl rfl
  | updateEvent h => exact updateStep_at h hkeyed hat
  | transition h => exact transitionStep_at h
  | createTicketCategory h => exact ticketCategoryStep_at h hkeyed hat
  | modifyTicketCategory h => exact modifyStep_at h hkeyed hat

theorem SystemStep.apart {s : Store} {rows : Set Row} {pc pc' other : Pc} {a : Act}
    {eff : Effect Store Row} (hother : At s rows other) (hkeys : Keys.At s other)
    (hapart : Apart pc other) (h : SystemStep s pc a eff pc') : Apart pc' other := by
  have hidle : ∀ pc', holding pc' = none → drawnTicketCategory pc' = none → Apart pc' other := by
    intro pc' hholding hdrawn
    constructor
    · simp [hholding]
    · simp [hdrawn]
  cases h with
  | order h => exact hidle _ rfl rfl
  | createEvent h => exact hidle _ rfl rfl
  | createCategory h => exact hidle _ rfl rfl
  | updateEvent h => exact hidle _ rfl rfl
  | transition h => exact hidle _ rfl rfl
  | createTicketCategory h =>
      cases h with
      | draw =>
          refine ⟨by simp [holding], fun id eventId hid hdrawn => ?_⟩
          cases hdrawn
          exact lt_irrefl _ (hother.holding _ _ hid).1
      | lockName => exact ⟨by simp [holding], hapart.2⟩
      | insert => exact ⟨by simp [holding], hapart.2⟩
      | _ => exact hidle _ rfl rfl
  | modifyTicketCategory h =>
      cases h with
      | read hfind =>
          obtain ⟨hcategory, hid⟩ := findTicketCategory_eq_some hfind
          refine ⟨fun id eventId hheld hdrawn => ?_, by simp [drawnTicketCategory]⟩
          cases hheld
          exact (hkeys.ticketCategory _ hdrawn).2 _ hcategory hid
      | lockRow hfind =>
          obtain ⟨hcategory, hid⟩ := findTicketCategory_eq_some hfind
          refine ⟨fun id eventId hheld => ?_, by simp [drawnTicketCategory]⟩
          cases hheld
          rw [hid]
          exact hapart.1 _ _ rfl
      | check => exact ⟨hapart.1, by simp [drawnTicketCategory]⟩
      | lockName => exact ⟨hapart.1, by simp [drawnTicketCategory]⟩
      | modify => exact ⟨hapart.1, by simp [drawnTicketCategory]⟩
      | _ => exact hidle _ rfl rfl

/-! ## The categories of an event that has left DRAFT -/

/-- Events that have left DRAFT stay so, with the ticket categories they have. -/
def Settled (s s' : Store) : Prop :=
  ∀ eventId, LeftDraft s.db eventId →
    LeftDraft s'.db eventId ∧ categoriesOf s'.db eventId = categoriesOf s.db eventId

theorem Settled.refl (s : Store) : Settled s s := fun _ h => ⟨h, rfl⟩

theorem Settled.trans {s s' s'' : Store} (h : Settled s s') (h' : Settled s' s'') :
    Settled s s'' := by
  intro eventId hleft
  obtain ⟨hleft', heq⟩ := h eventId hleft
  obtain ⟨hleft'', heq'⟩ := h' eventId hleft'
  exact ⟨hleft'', heq'.trans heq⟩

theorem Settled.of_events {s s' : Store}
    (hcategories : s'.db.ticketCategories = s.db.ticketCategories)
    (hevents : ∀ event ∈ s.db.events, event.state ≠ .draft →
      ∃ event' ∈ s'.db.events, event'.id = event.id ∧ event'.state ≠ .draft) : Settled s s' := by
  rintro eventId ⟨event, hevent, hid, hstate⟩
  obtain ⟨event', hevent', hid', hstate'⟩ := hevents event hevent hstate
  refine ⟨⟨event', hevent', hid'.trans hid, hstate'⟩, ?_⟩
  unfold categoriesOf
  rw [hcategories]

theorem Settled.of_categories {s s' : Store} (hevents : s'.db.events = s.db.events)
    (hcategories : ∀ eventId, LeftDraft s.db eventId →
      categoriesOf s'.db eventId = categoriesOf s.db eventId) : Settled s s' := by
  intro eventId hleft
  refine ⟨?_, hcategories eventId hleft⟩
  unfold LeftDraft
  rw [hevents]
  exact hleft

theorem categoriesOf_insert {db : Db} {category : TicketCategory} {eventId : Nat}
    (hne : category.eventId ≠ eventId) :
    categoriesOf (insertTicketCategory category db) eventId = categoriesOf db eventId := by
  simp [categoriesOf, insertTicketCategory, hne]

theorem categoriesOf_put {db : Db} {id eventId : Nat} {new : Option TicketCategory}
    (hold : ∀ category ∈ db.ticketCategories, category.id = id → category.eventId ≠ eventId)
    (hnew : ∀ category ∈ new, category.eventId ≠ eventId) :
    categoriesOf (putTicketCategory id new db) eventId = categoriesOf db eventId := by
  unfold categoriesOf putTicketCategory
  rw [List.filter_filterMap, ← List.filterMap_eq_filter]
  refine List.filterMap_congr fun category hcategory => ?_
  by_cases hid : category.id = id
  · have hother := hold category hcategory hid
    cases new with
    | none => simp [hid, hother, Option.guard]
    | some category' => simp [hid, hother, hnew category' rfl, Option.guard]
  · simp [hid, Option.guard, Option.filter]

theorem SystemStep.settled {s : Store} {rows : Set Row} {pc pc' : Pc} {a : Act}
    {eff : Effect Store Row} (hat : At s rows pc) (hkeys : Keys.At s pc)
    (h : SystemStep s pc a eff pc') : Settled s (eff.apply s) := by
  cases h.writes with
  | nothing hkept =>
      refine .of_events hkept.ticketCategories fun event hevent hstate => ?_
      exact ⟨event, hkept.events ▸ hevent, rfl, hstate⟩
  | insertEvent =>
      exact .of_events rfl fun event hevent hstate =>
        ⟨event, List.mem_append_left _ hevent, rfl, hstate⟩
  | insertEventCategory =>
      exact .of_events rfl fun event hevent hstate => ⟨event, hevent, rfl, hstate⟩
  | @replaceEvent new =>
      -- the event replaced is still the draft it was when its row was locked
      refine .of_events rfl fun event hevent hstate => ?_
      have hne : event.id ≠ new.id := fun hid =>
        hstate (hat.matched new new.id rfl rfl event hevent hid)
      exact ⟨event, List.mem_map.mpr ⟨event, hevent, if_neg hne⟩, rfl, hstate⟩
  | @setState t =>
      refine .of_events rfl fun event hevent hstate => ?_
      refine ⟨_, List.mem_map_of_mem hevent, ?_, ?_⟩ <;> split_ifs with hid
      · rfl
      · rfl
      · exact t.leaves_draft
      · exact hstate
  | @insertTicketCategory category =>
      refine .of_categories rfl fun eventId hleft => categoriesOf_insert ?_
      rintro rfl
      exact (hat.editing _ rfl).not_left hleft
  | @putTicketCategory category new =>
      have hdraft := hat.editing category.eventId rfl
      refine .of_categories rfl fun eventId hleft => categoriesOf_put ?_ ?_
      · rintro old hold hid rfl
        exact hdraft.not_left ((hat.holding _ _ rfl).2 old hold hid ▸ hleft)
      · rintro new hnew rfl
        cases hnew
        exact hdraft.not_left ((hkeys.rewritten category new rfl).2 ▸ hleft)

section Run

variable {ι : Type}

def outline : Outline ι Store Row Pc where
  inv _ := True
  at_ _ := At
  apart := Apart

/-- The guard, in worlds whose keys are in order. -/
def UndisturbedKeyed (w : World ι Store Row Pc) (i : ι) (a : Act) : Prop :=
  Undisturbed w i a ∧ Keys.outline.Valid w

theorem outline_sound : (outline : Outline ι Store Row Pc).Sound systemStep UndisturbedKeyed where
  own _ i _ _ _ hw hok hP _ :=
    ⟨trivial, SystemStep.at hok.2.inv (hw.at_ i) (systemStep_cases hP)⟩
  frame w i j a eff pc hw hok hP _ hj := by
    have hstep := systemStep_cases hP
    have hapart : Apart pc (w.pc j) :=
      SystemStep.apart (hw.at_ j) (hok.2.at_ j) (hw.apart i j hj.symm) hstep
    exact ⟨At.writes hj (hw.at_ i) (hw.at_ j) (hok.2.at_ i) (hw.apart i j hj.symm) hok.1
      hstep.writes, hapart, hapart.symm⟩

theorem outline_start (s : Store) (calls : ι → Call) :
    (outline : Outline ι Store Row Pc).Valid (atCalls s calls) := by
  refine ⟨trivial, fun i => ?_, fun i j _ => ?_⟩
  · show At s _ (calls i).pc
    cases calls i <;> exact .idle rfl rfl rfl rfl
  · show Apart (calls i).pc (calls j).pc
    constructor
    · cases calls i <;> simp [Call.pc, holding]
    · cases calls j <;> simp [Call.pc, holding]

variable [DecidableEq ι]

theorem run_keyed {w w' : World ι Store Row Pc} (h : Run systemStep Undisturbed w w')
    (hw : Keys.outline.Valid w) : Run systemStep UndisturbedKeyed w w' :=
  h.with_invariant (fun _ _ _ _ hv _ hs => Keys.outline_sound.step hv trivial hs) hw

theorem run_settled {w w' : World ι Store Row Pc} (h : Run systemStep Undisturbed w w')
    (hkeys : Keys.outline.Valid w) (hw : outline.Valid w) : Settled w.shared w'.shared := by
  refine (run_keyed h hkeys).relates Settled.refl (fun _ _ _ => Settled.trans)
    (fun _ _ _ _ hv hok hs => outline_sound.step hv hok hs) (fun v v' i a hv hok hs => ?_) hw
  obtain ⟨eff, pc, hP, -, rfl⟩ := World.step_eq_some.mp hs
  exact SystemStep.settled (hv.at_ i) (hok.2.at_ i) (systemStep_cases hP)

theorem run_valid {s : Store} (hkeyed : Keyed s) (calls : ι → Call) {w : World ι Store Row Pc}
    (h : Run systemStep Undisturbed (atCalls s calls) w) :
    Keys.outline.Valid w ∧ outline.Valid w := by
  have hstart : Keys.outline.Valid (atCalls s calls) := Keys.outline_start hkeyed calls
  exact ⟨Keys.outline_sound.run (h.mono fun _ _ _ _ => trivial) hstart,
    outline_sound.run (run_keyed h hstart) (outline_start s calls)⟩

/-- While no event changes its state under an open edit of its categories, an
event that has left DRAFT keeps the ticket categories it has. -/
theorem categories_settled {s : Store} (hkeyed : Keyed s) (calls : ι → Call)
    {w w' : World ι Store Row Pc} (h : Run systemStep Undisturbed (atCalls s calls) w)
    (h' : Run systemStep Undisturbed w w') {eventId : Nat}
    (hleft : LeftDraft w.shared.db eventId) :
    categoriesOf w'.shared.db eventId = categoriesOf w.shared.db eventId := by
  obtain ⟨hkeys, hvalid⟩ := run_valid hkeyed calls h
  exact (run_settled h' hkeys hvalid eventId hleft).2

end Run

/-! ## A draft that is published -/

def stage : Store where
  db := {
    users := [⟨1, "host@example.com", .verifiedUser, true⟩]
    eventCategories := [⟨1, "music", none⟩]
    events := [⟨1, "concert", "live", 1, 1, .draft, .online, none, 100⟩] }
  seq := { eventCategories := 2, events := 2 }

theorem keyed_stage : Keyed stage := by
  constructor <;> decide

def publishAndAdd : Bool → Call
  | false => .publish 1 1
  | true => .createTicketCategory 1 ⟨one, "parterre", ten, two⟩

def publishes : List (Bool × Act) := List.replicate 2 (false, .edit (.run 0))

/-- One after the other, the category is refused. -/
theorem categories_settled_stage :
    ∃ w w', Run systemStep Undisturbed (atCalls stage publishAndAdd) w ∧
      Run systemStep Undisturbed w w' ∧ LeftDraft w.shared.db 1 ∧
      categoriesOf w'.shared.db 1 = categoriesOf w.shared.db 1 := by
  have hrun : ((atCalls stage publishAndAdd).guardedSteps systemStep Undisturbed publishes).bind
      (fun w => (w.guardedSteps systemStep Undisturbed [(true, .edit (.run 0))]).map
        fun _ => decide (LeftDraft w.shared.db 1)) = some true := by
    decide
  obtain ⟨w, hw, hrest⟩ := Option.bind_eq_some_iff.mp hrun
  obtain ⟨w', hw', hleft⟩ := Option.map_eq_some_iff.mp hrest
  have h := Run.of_guardedSteps hw
  have h' := Run.of_guardedSteps hw'
  have hleft := of_decide_eq_true hleft
  exact ⟨w, w', h, h', hleft, categories_settled keyed_stage publishAndAdd h h' hleft⟩

/-- The category is checked before the event is published and inserted after. -/
theorem category_after_publish :
    ∃ w w', Run systemStep anyStep (atCalls stage publishAndAdd) w ∧
      Run systemStep anyStep w w' ∧ LeftDraft w.shared.db 1 ∧
      categoriesOf w'.shared.db 1 ≠ categoriesOf w.shared.db 1 := by
  have hrun : ((atCalls stage publishAndAdd).steps systemStep
      ((true, .edit (.run 0)) :: publishes)).bind
      (fun w => (w.steps systemStep (List.replicate 4 (true, .edit (.run 0)))).map
        fun w' => (decide (LeftDraft w.shared.db 1),
          decide (categoriesOf w'.shared.db 1 ≠ categoriesOf w.shared.db 1))) =
        some (true, true) := by
    decide
  obtain ⟨w, hw, hrest⟩ := Option.bind_eq_some_iff.mp hrun
  obtain ⟨w', hw', heq⟩ := Option.map_eq_some_iff.mp hrest
  simp only [Prod.mk.injEq, decide_eq_true_eq] at heq
  exact ⟨w, w', Run.of_steps hw, Run.of_steps hw', heq⟩

end TicketBooking.Catalog.Drafts
