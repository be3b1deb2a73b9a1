import TicketBooking.Catalog.System
/-!
# Primary keys

The ids of events and of ticket categories stay unique in every interleaving:
each insert draws its id from the sequence of its table.
-/

namespace TicketBooking.Catalog.Keys

open TicketBooking.Catalog.Editing TicketBooking.Catalog.System TicketBooking.Catalog.Transactions
open TicketBooking.Database.Shared TicketBooking.Database.Tables
open TicketBooking.Library.Sessions

structure Keyed (s : Store) : Prop where
  events : (s.db.events.map fun event => event.id).Nodup
  eventSeq : ∀ event ∈ s.db.events, event.id < s.seq.events
  ticketCategories : (s.db.ticketCategories.map fun category => category.id).Nodup
  ticketCategorySeq : ∀ category ∈ s.db.ticketCategories, category.id < s.seq.ticketCategories

theorem Keyed.event_ext {s : Store} (h : Keyed s) {event event' : Event}
    (hevent : event ∈ s.db.events) (hevent' : event' ∈ s.db.events) (hid : event.id = event'.id) :
    event = event' :=
  List.inj_on_of_nodup_map h.events hevent hevent' hid

theorem Keyed.ticketCategory_ext {s : Store} (h : Keyed s) {category category' : TicketCategory}
    (hcategory : category ∈ s.db.ticketCategories) (hcategory' : category' ∈ s.db.ticketCategories)
    (hid : category.id = category'.id) : category = category' :=
  List.inj_on_of_nodup_map h.ticketCategories hcategory hcategory' hid

def drawnEvent : Pc → Option Nat
  | .createEvent (.inserted event) => some event.id
  | _ => none

def drawnTicketCategory : Pc → Option Nat
  | .createTicketCategory (.inserting category) => some category.id
  | .createTicketCategory (.keyed category) => some category.id
  | .createTicketCategory (.inserted category) => some category.id
  | _ => none

def rewritten : Pc → Option (TicketCategory × TicketCategory)
  | .modifyTicketCategory (.modified category (some new)) => some (category, new)
  | _ => none

structure At (s : Store) (pc : Pc) : Prop where
  event : ∀ id, drawnEvent pc = some id →
    id < s.seq.events ∧ ∀ event ∈ s.db.events, event.id ≠ id
  ticketCategory : ∀ id, drawnTicketCategory pc = some id →
    id < s.seq.ticketCategories ∧ ∀ category ∈ s.db.ticketCategories, category.id ≠ id
  rewritten : ∀ category new, rewritten pc = some (category, new) →
    new.id = category.id ∧ new.eventId = category.eventId

def Apart (pc pc' : Pc) : Prop :=
  (∀ id, drawnEvent pc = some id → drawnEvent pc' ≠ some id) ∧
    ∀ id, drawnTicketCategory pc = some id → drawnTicketCategory pc' ≠ some id

theorem Apart.symm {pc pc' : Pc} (h : Apart pc pc') : Apart pc' pc :=
  ⟨fun id hid hid' => h.1 id hid' hid, fun id hid hid' => h.2 id hid' hid⟩

theorem At.idle {s : Store} {pc : Pc} (hevent : drawnEvent pc = none)
    (hcategory : drawnTicketCategory pc = none) (hrewritten : Keys.rewritten pc = none) :
    At s pc := by
  refine ⟨?_, ?_, ?_⟩
  · simp [hevent]
  · simp [hcategory]
  · simp [hrewritten]

/-! ## The committed rows -/

theorem map_id_replaceEvent (event : Event) (db : Db) :
    (replaceEvent event db).events.map (fun event => event.id) =
      db.events.map fun event => event.id := by
  simp only [replaceEvent, List.map_map]
  refine List.map_congr_left fun old _ => ?_
  simp only [Function.comp_apply]
  split_ifs with hid
  · exact hid.symm
  · rfl

theorem map_id_setState (id : Nat) (state : EventState) (db : Db) :
    (setState id state db).events.map (fun event => event.id) =
      db.events.map fun event => event.id := by
  simp only [setState, List.map_map]
  refine List.map_congr_left fun old _ => ?_
  simp only [Function.comp_apply]
  split_ifs <;> rfl

theorem map_id_putTicketCategory {id : Nat} {new : Option TicketCategory}
    (hnew : ∀ category ∈ new, category.id = id) (db : Db) :
    ((putTicketCategory id new db).ticketCategories.map fun category => category.id).Sublist
      (db.ticketCategories.map fun category => category.id) := by
  simp only [putTicketCategory]
  induction db.ticketCategories with
  | nil => exact .slnil
  | cons category categories ih =>
      rw [List.filterMap_cons]
      split_ifs with hid
      · cases hput : new with
        | none => exact (hput ▸ ih).cons _
        | some category' =>
            have hput' : category'.id = category.id := by
              rw [hid]
              exact hnew category' hput
            simp only [List.map_cons, hput']
            exact (hput ▸ ih).cons_cons _
      · exact ih.cons_cons _

theorem Keyed.of_ids {s s' : Store} (h : Keyed s)
    (hevents : (s'.db.events.map fun event => event.id) = s.db.events.map fun event => event.id)
    (heventSeq : s.seq.events ≤ s'.seq.events)
    (hcategories : (s'.db.ticketCategories.map fun category => category.id).Sublist
      (s.db.ticketCategories.map fun category => category.id))
    (hcategorySeq : s.seq.ticketCategories ≤ s'.seq.ticketCategories) : Keyed s' := by
  refine ⟨hevents ▸ h.events, fun event hevent => ?_, h.ticketCategories.sublist hcategories,
    fun category hcategory => ?_⟩
  · obtain ⟨old, hold, hid⟩ := List.mem_map.mp (hevents ▸ List.mem_map_of_mem hevent)
    rw [← hid]
    exact lt_of_lt_of_le (h.eventSeq old hold) heventSeq
  · obtain ⟨old, hold, hid⟩ := List.mem_map.mp (hcategories.subset (List.mem_map_of_mem hcategory))
    rw [← hid]
    exact lt_of_lt_of_le (h.ticketCategorySeq old hold) hcategorySeq

theorem Keyed.writes {s : Store} {pc : Pc} {a : Act} {eff : Effect Store Row} (h : Keyed s)
    (hat : At s pc) (hwrites : Writes s pc a eff) : Keyed (eff.apply s) := by
  cases hwrites with
  | nothing hkept =>
      refine h.of_ids ?_ hkept.eventSeq ?_ hkept.ticketCategorySeq
      · rw [hkept.events]
      · rw [hkept.ticketCategories]
  | @insertEvent new =>
      obtain ⟨hlt, hfresh⟩ := hat.event new.id rfl
      refine ⟨nodup_append_fresh h.events hfresh, fun event hevent => ?_, h.ticketCategories,
        h.ticketCategorySeq⟩
      rcases List.mem_append.mp hevent with hevent | hevent
      · exact h.eventSeq event hevent
      · rw [List.mem_singleton.mp hevent]
        exact hlt
  | insertEventCategory => exact h.of_ids rfl le_rfl (.refl _) le_rfl
  | replaceEvent => exact h.of_ids (map_id_replaceEvent _ _) le_rfl (.refl _) le_rfl
  | setState => exact h.of_ids (map_id_setState _ _ _) le_rfl (.refl _) le_rfl
  | @insertTicketCategory new =>
      obtain ⟨hlt, hfresh⟩ := hat.ticketCategory new.id rfl
      refine ⟨h.events, h.eventSeq, nodup_append_fresh h.ticketCategories hfresh,
        fun category hcategory => ?_⟩
      rcases List.mem_append.mp hcategory with hcategory | hcategory
      · exact h.ticketCategorySeq category hcategory
      · rw [List.mem_singleton.mp hcategory]
        exact hlt
  | @putTicketCategory category new =>
      refine h.of_ids rfl le_rfl (map_id_putTicketCategory (fun category' hnew => ?_) _) le_rfl
      cases hnew
      exact (hat.rewritten category category' rfl).1

/-! ## The drawn ids -/

theorem At.of_ids {s s' : Store} {pc : Pc} (h : At s pc)
    (hevents : ∀ event ∈ s'.db.events, drawnEvent pc = some event.id →
      ∃ old ∈ s.db.events, old.id = event.id)
    (heventSeq : s.seq.events ≤ s'.seq.events)
    (hcategories : ∀ category ∈ s'.db.ticketCategories, drawnTicketCategory pc = some category.id →
      ∃ old ∈ s.db.ticketCategories, old.id = category.id)
    (hcategorySeq : s.seq.ticketCategories ≤ s'.seq.ticketCategories) : At s' pc := by
  refine ⟨fun id hid => ?_, fun id hid => ?_, h.rewritten⟩
  · obtain ⟨hlt, hfresh⟩ := h.event id hid
    refine ⟨lt_of_lt_of_le hlt heventSeq, fun event hevent heq => ?_⟩
    obtain ⟨old, hold, heq'⟩ := hevents event hevent (heq ▸ hid)
    exact hfresh old hold (heq'.trans heq)
  · obtain ⟨hlt, hfresh⟩ := h.ticketCategory id hid
    refine ⟨lt_of_lt_of_le hlt hcategorySeq, fun category hcategory heq => ?_⟩
    obtain ⟨old, hold, heq'⟩ := hcategories category hcategory (heq ▸ hid)
    exact hfresh old hold (heq'.trans heq)

/-- The ids a statement publishes were committed before or drawn by its session. -/
theorem At.writes {s : Store} {pc pc' : Pc} {a : Act} {eff : Effect Store Row} (h : At s pc')
    (hat : At s pc) (hapart : Apart pc pc') (hwrites : Writes s pc a eff) :
    At (eff.apply s) pc' := by
  cases hwrites with
  | nothing hkept =>
      refine h.of_ids (fun event hevent _ => ?_) hkept.eventSeq (fun category hcategory _ => ?_)
        hkept.ticketCategorySeq
      · exact ⟨event, hkept.events ▸ hevent, rfl⟩
      · exact ⟨category, hkept.ticketCategories ▸ hcategory, rfl⟩
  | insertEvent =>
      refine h.of_ids (fun event hevent hdrawn => ?_) le_rfl (fun category hcategory _ =>
        ⟨category, hcategory, rfl⟩) le_rfl
      rcases List.mem_append.mp hevent with hevent | hevent
      · exact ⟨event, hevent, rfl⟩
      · rw [List.mem_singleton.mp hevent] at hdrawn
        exact absurd hdrawn (hapart.1 _ rfl)
  | insertEventCategory =>
      exact h.of_ids (fun event hevent _ => ⟨event, hevent, rfl⟩) le_rfl
        (fun category hcategory _ => ⟨category, hcategory, rfl⟩) le_rfl
  | replaceEvent =>
      refine h.of_ids (fun event hevent _ => ?_) le_rfl (fun category hcategory _ =>
        ⟨category, hcategory, rfl⟩) le_rfl
      exact List.mem_map.mp (map_id_replaceEvent _ s.db ▸ List.mem_map_of_mem hevent)
  | setState =>
      refine h.of_ids (fun event hevent _ => ?_) le_rfl (fun category hcategory _ =>
        ⟨category, hcategory, rfl⟩) le_rfl
      exact List.mem_map.mp (map_id_setState _ _ s.db ▸ List.mem_map_of_mem hevent)
  | insertTicketCategory =>
      refine h.of_ids (fun event hevent _ => ⟨event, hevent, rfl⟩) le_rfl
        (fun category hcategory hdrawn => ?_) le_rfl
      rcases List.mem_append.mp hcategory with hcategory | hcategory
      · exact ⟨category, hcategory, rfl⟩
      · rw [List.mem_singleton.mp hcategory] at hdrawn
        exact absurd hdrawn (hapart.2 _ rfl)
  | @putTicketCategory matched new =>
      refine h.of_ids (fun event hevent _ => ⟨event, hevent, rfl⟩) le_rfl
        (fun category hcategory _ => ?_) le_rfl
      refine List.mem_map.mp ((map_id_putTicketCategory (fun category' hnew => ?_) s.db).subset
        (List.mem_map_of_mem hcategory))
      cases hnew
      exact (hat.rewritten matched category' rfl).1

theorem SystemStep.at {s : Store} {pc pc' : Pc} {a : Act} {eff : Effect Store Row}
    (hkeyed : Keyed s) (hat : At s pc) (h : SystemStep s pc a eff pc') : At (eff.apply s) pc' := by
  cases h with
  | order h => exact .idle rfl rfl rfl
  | createEvent h =>
      cases h with
      | insert hnew =>
          refine ⟨fun id hid => ?_, by simp [drawnTicketCategory], by simp [rewritten]⟩
          cases hid
          rw [(newEvent_eq_some hnew).1]
          exact ⟨Nat.lt_succ_self _, fun event hevent => (hkeyed.eventSeq event hevent).ne⟩
      | _ => exact .idle rfl rfl rfl
  | createCategory h => exact .idle rfl rfl rfl
  | updateEvent h => exact .idle rfl rfl rfl
  | transition h => exact .idle rfl rfl rfl
  | createTicketCategory h =>
      cases h with
      | draw =>
          refine ⟨by simp [drawnEvent], fun id hid => ?_, by simp [rewritten]⟩
          cases hid
          exact ⟨Nat.lt_succ_self _, fun category hcategory =>
            (hkeyed.ticketCategorySeq category hcategory).ne⟩
      | lockName => exact ⟨by simp [drawnEvent], hat.ticketCategory, by simp [rewritten]⟩
      | insert => exact ⟨by simp [drawnEvent], hat.ticketCategory, by simp [rewritten]⟩
      | _ => exact .idle rfl rfl rfl
  | modifyTicketCategory h =>
      cases h with
      | @modify category change now new hresult =>
          refine ⟨by simp [drawnEvent], by simp [drawnTicketCategory], fun category new hpc => ?_⟩
          unfold rewritten at hpc
          split at hpc
          · rename_i heq
            cases heq
            cases hpc
            exact Change.result_keeps hresult
          · cases hpc
      | _ => exact .idle rfl rfl rfl

/-- An id is drawn once. -/
theorem SystemStep.apart {s : Store} {pc pc' other : Pc} {a : Act} {eff : Effect Store Row}
    (hother : At s other) (hapart : Apart pc other) (h : SystemStep s pc a eff pc') :
    Apart pc' other := by
  have hidle : ∀ pc', drawnEvent pc' = none → drawnTicketCategory pc' = none → Apart pc' other := by
    intro pc' hevent hcategory
    constructor
    · simp [hevent]
    · simp [hcategory]
  cases h with
  | order h => exact hidle _ rfl rfl
  | createEvent h =>
      cases h with
      | insert hnew =>
          refine ⟨fun id hid hid' => ?_, by simp [drawnTicketCategory]⟩
          cases hid
          rw [(newEvent_eq_some hnew).1] at hid'
          exact lt_irrefl _ (hother.event _ hid').1
      | _ => exact hidle _ rfl rfl
  | createCategory h => exact hidle _ rfl rfl
  | updateEvent h => exact hidle _ rfl rfl
  | transition h => exact hidle _ rfl rfl
  | createTicketCategory h =>
      cases h with
      | draw =>
          refine ⟨by simp [drawnEvent], fun id hid hid' => ?_⟩
          cases hid
          exact lt_irrefl _ (hother.ticketCategory _ hid').1
      | lockName => exact ⟨by simp [drawnEvent], hapart.2⟩
      | insert => exact ⟨by simp [drawnEvent], hapart.2⟩
      | _ => exact hidle _ rfl rfl
  | modifyTicketCategory h => exact hidle _ rfl rfl

section Run

variable {ι : Type}

def outline : Outline ι Store Row Pc where
  inv := Keyed
  at_ _ s _ pc := At s pc
  apart := Apart

theorem outline_sound : (outline : Outline ι Store Row Pc).Sound systemStep anyStep where
  own _ i _ _ _ hw _ hP _ :=
    ⟨hw.inv.writes (hw.at_ i) (systemStep_cases hP).writes,
      SystemStep.at hw.inv (hw.at_ i) (systemStep_cases hP)⟩
  frame w i j a eff pc hw _ hP _ hj := by
    have hstep := systemStep_cases hP
    have hapart : Apart pc (w.pc j) := SystemStep.apart (hw.at_ j) (hw.apart i j hj.symm) hstep
    exact ⟨At.writes (hw.at_ j) (hw.at_ i) (hw.apart i j hj.symm) hstep.writes, hapart, hapart.symm⟩

theorem outline_start {s : Store} (h : Keyed s) (calls : ι → Call) :
    (outline : Outline ι Store Row Pc).Valid (atCalls s calls) := by
  refine ⟨h, fun i => ?_, fun i j _ => ?_⟩
  · show At s (calls i).pc
    cases calls i <;> exact .idle rfl rfl rfl
  · show Apart (calls i).pc (calls j).pc
    constructor <;> cases calls i <;> simp [Call.pc, drawnEvent, drawnTicketCategory]

end Run

end TicketBooking.Catalog.Keys
