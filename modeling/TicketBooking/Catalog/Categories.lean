import Mathlib.Data.Fintype.Basic
import TicketBooking.Catalog.LeafCheck
import TicketBooking.Catalog.System
/-!
# Event categories

Events are to hang from leaf categories only.  `create` asks whether the
category has children through the query layer, which drops the question;
`update` does not ask; and `create_category` looks for events in a statement
before its insert.
-/

namespace TicketBooking.Catalog.Categories

open TicketBooking.Catalog.Editing TicketBooking.Catalog.LeafCheck TicketBooking.Catalog.System
open TicketBooking.Catalog.Transactions
open TicketBooking.Database.Shared TicketBooking.Database.Tables
open TicketBooking.Library.Sessions
open TicketBooking.Order.Booking (PositiveInt32 one two)

/-! ## The hierarchy -/

def Childless (db : Db) (id : Nat) : Prop :=
  ∀ category ∈ db.eventCategories, category.parentId ≠ some id

def Eventless (db : Db) (id : Nat) : Prop := ∀ event ∈ db.events, event.categoryId ≠ id

instance (db : Db) (id : Nat) : Decidable (Childless db id) :=
  inferInstanceAs (Decidable (∀ category ∈ db.eventCategories, category.parentId ≠ some id))

/-- Following `parent_id` from the category ends at a root. -/
inductive Rooted (db : Db) : Nat → Prop
  | up {id : Nat} (hexists : categoryExists db id)
      (hparent : ∀ category ∈ db.eventCategories, category.id = id →
        ∀ parentId, category.parentId = some parentId → Rooted db parentId) : Rooted db id

/-- The categories are a forest, and events hang from its leaves. -/
structure Hierarchy (db : Db) : Prop where
  rooted : ∀ category ∈ db.eventCategories, Rooted db category.id
  leaves : ∀ event ∈ db.events, Childless db event.categoryId

/-- Parents are older than their children. -/
structure Grown (s : Store) : Prop where
  ids : ∀ category ∈ s.db.eventCategories, category.id < s.seq.eventCategories
  parents : ∀ category ∈ s.db.eventCategories, ∀ parentId, category.parentId = some parentId →
    parentId < category.id ∧ categoryExists s.db parentId
  leaves : ∀ event ∈ s.db.events, Childless s.db event.categoryId

theorem Grown.hierarchy {s : Store} (h : Grown s) : Hierarchy s.db := by
  refine ⟨fun category hcategory => ?_, h.leaves⟩
  have hall : ∀ id, categoryExists s.db id → Rooted s.db id := by
    intro id
    induction id using Nat.strong_induction_on with
    | _ id ih =>
        intro hexists
        refine .up hexists fun category hcategory hid parentId hparent => ?_
        obtain ⟨hlt, hparentExists⟩ := h.parents category hcategory parentId hparent
        exact ih parentId (hid ▸ hlt) hparentExists
  exact hall _ (categoryExists_iff.mpr ⟨category, hcategory, rfl⟩)

/-! ## What a session has checked -/

def target : Pc → Option Nat
  | .createEvent (.checked data _) => some data.categoryId.val
  | .createEvent (.inserted event) => some event.categoryId
  | .updateEvent (.matched data event) => (data.apply event).map fun event => event.categoryId
  | .updateEvent (.updated event) => some event.categoryId
  | _ => none

def under : Pc → Option Nat
  | .createCategory (.checked data) => data.parentId.map Subtype.val
  | .createCategory (.inserting category) => category.parentId
  | .createCategory (.keyed category) => category.parentId
  | .createCategory (.inserted category) => category.parentId
  | _ => none

def parentOf : Pc → Option Nat
  | .createCategory (.parentRead data _) => data.parentId.map Subtype.val
  | pc => under pc

def drawnCategory : Pc → Option EventCategory
  | .createCategory (.inserting category) => some category
  | .createCategory (.keyed category) => some category
  | .createCategory (.inserted category) => some category
  | _ => none

structure At (s : Store) (pc : Pc) : Prop where
  childless : ∀ id, target pc = some id → Childless s.db id
  eventless : ∀ id, under pc = some id → Eventless s.db id
  parent : ∀ id, parentOf pc = some id → categoryExists s.db id
  drawn : ∀ category, drawnCategory pc = some category → category.id < s.seq.eventCategories ∧
    ∀ parentId, category.parentId = some parentId → parentId < category.id
  read : ∀ data parentId, pc = .createCategory (.parentRead data parentId) →
    data.parentId.map Subtype.val = some parentId

def entering (db : Db) : Pc → Act → Option Nat
  | .createEvent (.start data _), .edit (.run _) => some data.categoryId.val
  | .updateEvent (.start data userId eventId), .edit (.run _) =>
      ((findDraft db eventId userId).bind data.apply).map fun event => event.categoryId
  | _, _ => none

def committedEvent : Pc → Act → Option Event
  | .createEvent (.inserted event), .edit (.run _) => some event
  | .updateEvent (.updated event), .edit (.run _) => some event
  | _, _ => none

def committedParent : Pc → Act → Option Nat
  | .createCategory (.inserted category), .edit (.run _) => category.parentId
  | _, _ => none

/-- An event goes into a category without children, as of the statement that
reads the category or matches the event; and no event is committed into a
category while an open `create_category` has found it without events, nor a
category under one into which an open transaction is putting an event. -/
def Leafy {ι : Type} (w : World ι Store Row Pc) (i : ι) (a : Act) : Prop :=
  (∀ id ∈ entering w.shared.db (w.pc i) a, Childless w.shared.db id) ∧
    (∀ event ∈ committedEvent (w.pc i) a, ∀ j, under (w.pc j) ≠ some event.categoryId) ∧
      ∀ parentId ∈ committedParent (w.pc i) a, ∀ j, target (w.pc j) ≠ some parentId

instance {ι : Type} [Fintype ι] (w : World ι Store Row Pc) (i : ι) (a : Act) :
    Decidable (Leafy w i a) :=
  inferInstanceAs (Decidable ((∀ id ∈ entering w.shared.db (w.pc i) a, Childless w.shared.db id) ∧
    (∀ event ∈ committedEvent (w.pc i) a, ∀ j, under (w.pc j) ≠ some event.categoryId) ∧
      ∀ parentId ∈ committedParent (w.pc i) a, ∀ j, target (w.pc j) ≠ some parentId))

/-! ## The committed categories -/

theorem Grown.lt_of_exists {s : Store} (h : Grown s) {id : Nat} (hexists : categoryExists s.db id) :
    id < s.seq.eventCategories := by
  obtain ⟨category, hcategory, rfl⟩ := categoryExists_iff.mp hexists
  exact h.ids category hcategory

theorem categoryExists_insert {db : Db} {id : Nat} (h : categoryExists db id)
    (category : EventCategory) : categoryExists (insertEventCategory category db) id := by
  obtain ⟨other, hother, hid⟩ := categoryExists_iff.mp h
  exact categoryExists_iff.mpr ⟨other, List.mem_append_left _ hother, hid⟩

theorem categoryExists_congr {db db' : Db} (h : db'.eventCategories = db.eventCategories)
    (id : Nat) : categoryExists db' id = categoryExists db id := by
  unfold categoryExists
  rw [h]

theorem childless_congr {db db' : Db} (h : db'.eventCategories = db.eventCategories) (id : Nat) :
    Childless db' id ↔ Childless db id := by
  unfold Childless
  rw [h]

/-- The categories stay, and every event is in a category without children. -/
theorem Grown.of_events {s s' : Store} (h : Grown s)
    (hcategories : s'.db.eventCategories = s.db.eventCategories)
    (hseq : s.seq.eventCategories ≤ s'.seq.eventCategories)
    (hevents : ∀ event ∈ s'.db.events, Childless s.db event.categoryId) : Grown s' := by
  refine ⟨fun category hcategory => ?_, fun category hcategory parentId hparent => ?_,
    fun event hevent => ?_⟩
  · rw [hcategories] at hcategory
    exact lt_of_lt_of_le (h.ids category hcategory) hseq
  · rw [hcategories] at hcategory
    rw [categoryExists_congr hcategories]
    exact h.parents category hcategory parentId hparent
  · rw [childless_congr hcategories]
    exact hevents event hevent

theorem Grown.insert {s : Store} (h : Grown s) {category : EventCategory}
    (hid : category.id < s.seq.eventCategories)
    (hparent : ∀ parentId, category.parentId = some parentId →
      parentId < category.id ∧ categoryExists s.db parentId ∧ Eventless s.db parentId) :
    Grown (s.withDb (insertEventCategory category)) := by
  refine ⟨fun other hother => ?_, fun other hother parentId hother' => ?_,
    fun event hevent other hother hother' => ?_⟩
  · rcases List.mem_append.mp hother with hother | hother
    · exact h.ids other hother
    · rw [List.mem_singleton.mp hother]
      exact hid
  · rcases List.mem_append.mp hother with hother | hother
    · obtain ⟨hlt, hexists⟩ := h.parents other hother parentId hother'
      exact ⟨hlt, categoryExists_insert hexists category⟩
    · rw [List.mem_singleton.mp hother] at hother' ⊢
      obtain ⟨hlt, hexists, -⟩ := hparent parentId hother'
      exact ⟨hlt, categoryExists_insert hexists category⟩
  · rcases List.mem_append.mp hother with hother | hother
    · exact h.leaves event hevent other hother hother'
    · rw [List.mem_singleton.mp hother] at hother'
      exact (hparent event.categoryId hother').2.2 event hevent rfl

/-- The events a statement publishes are in categories without children. -/
theorem Grown.writes {s : Store} {pc : Pc} {a : Act} {eff : Effect Store Row} (h : Grown s)
    (hat : At s pc) (hwrites : Writes s pc a eff) : Grown (eff.apply s) := by
  cases hwrites with
  | nothing hkept =>
      refine h.of_events hkept.eventCategories hkept.eventCategorySeq fun event hevent => ?_
      rw [hkept.events] at hevent
      exact h.leaves event hevent
  | @insertEvent new =>
      refine h.of_events rfl le_rfl fun event hevent => ?_
      rcases List.mem_append.mp hevent with hevent | hevent
      · exact h.leaves event hevent
      · rw [List.mem_singleton.mp hevent]
        exact hat.childless new.categoryId rfl
  | insertEventCategory =>
      obtain ⟨hid, hlt⟩ := hat.drawn _ rfl
      exact h.insert hid fun parentId hparent =>
        ⟨hlt parentId hparent, hat.parent parentId hparent, hat.eventless parentId hparent⟩
  | @replaceEvent new =>
      refine h.of_events rfl le_rfl fun event hevent => ?_
      obtain ⟨old, hold, rfl⟩ := List.mem_map.mp hevent
      split_ifs with hid
      · exact hat.childless new.categoryId rfl
      · exact h.leaves old hold
  | setState =>
      refine h.of_events rfl le_rfl fun event hevent => ?_
      obtain ⟨old, hold, rfl⟩ := List.mem_map.mp hevent
      split_ifs with hid <;> exact h.leaves old hold
  | insertTicketCategory => exact h.of_events rfl le_rfl h.leaves
  | putTicketCategory => exact h.of_events rfl le_rfl h.leaves

/-! ## The checks of the other sessions -/

theorem At.of_events {s s' : Store} {pc : Pc} (h : At s pc)
    (hcategories : s'.db.eventCategories = s.db.eventCategories)
    (hseq : s.seq.eventCategories ≤ s'.seq.eventCategories)
    (hevents : ∀ id, under pc = some id → Eventless s'.db id) : At s' pc := by
  refine ⟨fun id hid => ?_, hevents, fun id hid => ?_, fun category hcategory => ?_, h.read⟩
  · rw [childless_congr hcategories]
    exact h.childless id hid
  · rw [categoryExists_congr hcategories]
    exact h.parent id hid
  · exact ⟨lt_of_lt_of_le (h.drawn category hcategory).1 hseq, (h.drawn category hcategory).2⟩

theorem At.insert {s : Store} {pc : Pc} (h : At s pc) {category : EventCategory}
    (hother : ∀ parentId ∈ category.parentId, target pc ≠ some parentId) :
    At (s.withDb (insertEventCategory category)) pc := by
  refine ⟨fun id hid other hmem hparent => ?_, h.eventless, fun id hid => ?_, h.drawn, h.read⟩
  · rcases List.mem_append.mp hmem with hmem | hmem
    · exact h.childless id hid other hmem hparent
    · rw [List.mem_singleton.mp hmem] at hparent
      exact hother id hparent hid
  · exact categoryExists_insert (h.parent id hid) category

/-- No event comes under a category found without events, and no category under
one an event is being put into. -/
theorem At.writes {ι : Type} {w : World ι Store Row Pc} {i j : ι} {a : Act}
    {eff : Effect Store Row} (h : At w.shared (w.pc j)) (hok : Leafy w i a)
    (hwrites : Writes w.shared (w.pc i) a eff) : At (eff.apply w.shared) (w.pc j) := by
  generalize hpc : w.pc i = pc at hwrites
  cases hwrites with
  | nothing hkept =>
      refine h.of_events hkept.eventCategories hkept.eventCategorySeq fun id hid event hevent => ?_
      rw [hkept.events] at hevent
      exact h.eventless id hid event hevent
  | @insertEvent new =>
      have hopen := hok.2.1 new (by rw [hpc]; rfl)
      refine h.of_events rfl le_rfl fun id hid event hevent heq => ?_
      rcases List.mem_append.mp hevent with hevent | hevent
      · exact h.eventless id hid event hevent heq
      · rw [List.mem_singleton.mp hevent] at heq
        exact hopen j (heq ▸ hid)
  | insertEventCategory =>
      exact h.insert fun parentId hparent => hok.2.2 parentId (by rw [hpc]; exact hparent) j
  | @replaceEvent new =>
      have hopen := hok.2.1 new (by rw [hpc]; rfl)
      refine h.of_events rfl le_rfl fun id hid event hevent heq => ?_
      obtain ⟨old, hold, rfl⟩ := List.mem_map.mp hevent
      split_ifs at heq with hreplaced
      · exact hopen j (heq ▸ hid)
      · exact h.eventless id hid old hold heq
  | setState =>
      refine h.of_events rfl le_rfl fun id hid event hevent heq => ?_
      obtain ⟨old, hold, rfl⟩ := List.mem_map.mp hevent
      split_ifs at heq <;> exact h.eventless id hid old hold heq
  | insertTicketCategory => exact h.of_events rfl le_rfl h.eventless
  | putTicketCategory => exact h.of_events rfl le_rfl h.eventless

/-! ## The checks of the session itself -/

/-- A session that creates no category keeps the category it has checked. -/
theorem At.entering {s : Store} {pc : Pc} (htarget : ∀ id, target pc = some id → Childless s.db id)
    (hparent : parentOf pc = none) (hunder : under pc = none) (hdrawn : drawnCategory pc = none)
    (hread : ∀ data parentId, pc ≠ .createCategory (.parentRead data parentId)) : At s pc := by
  refine ⟨htarget, ?_, ?_, ?_, fun data parentId hpc => absurd hpc (hread data parentId)⟩
  · simp [hunder]
  · simp [hparent]
  · simp [hdrawn]

theorem At.idle {s : Store} {pc : Pc} (htarget : target pc = none) (hparent : parentOf pc = none)
    (hunder : under pc = none) (hdrawn : drawnCategory pc = none)
    (hread : ∀ data parentId, pc ≠ .createCategory (.parentRead data parentId)) : At s pc :=
  .entering (by simp [htarget]) hparent hunder hdrawn hread

section Step

variable {s : Store} {a : EditAct} {eff : Effect Store Row}

theorem createStep_at {pc pc' : CreatePc} (h : CreateStep s pc a eff pc')
    (hat : At s (.createEvent pc))
    (hleaf : ∀ data userId now, pc = .start data userId → a = .run now →
      Childless s.db data.categoryId.val) : At (eff.apply s) (.createEvent pc') := by
  cases h with
  | @found data userId now =>
      refine .entering (fun id hid => ?_) rfl rfl rfl (by simp)
      cases hid
      exact hleaf data userId now rfl rfl
  | insert hnew =>
      refine .entering (fun id hid => ?_) rfl rfl rfl (by simp)
      cases hid
      rw [(newEvent_eq_some hnew).2.1]
      exact hat.childless _ rfl
  | _ => exact .idle rfl rfl rfl rfl (by simp)

theorem categoryStep_at {pc pc' : CategoryPc} (h : CategoryStep s pc a eff pc') (hgrown : Grown s)
    (hat : At s (.createCategory pc)) : At (eff.apply s) (.createCategory pc') := by
  cases h with
  | root hparent =>
      refine .idle rfl ?_ ?_ rfl (by simp) <;> simp [parentOf, under, hparent]
  | readParent hparent hexists =>
      refine ⟨by simp [target], by simp [under], fun id hid => ?_, by simp [drawnCategory], ?_⟩
      · simp only [parentOf, hparent, Option.map_some, Option.some.injEq] at hid
        exact hid ▸ hexists
      · rintro data parentId hpc
        cases hpc
        rw [hparent]
        rfl
  | @readEvents data parentId now hevents =>
      have hread := hat.read data parentId rfl
      refine ⟨by simp [target], fun id hid event hevent heq => ?_, fun id hid => ?_,
        by simp [drawnCategory], by simp⟩
      · rw [under, hread, Option.some.injEq] at hid
        exact hevents (hasEvents_iff.mpr ⟨event, hevent, heq.trans hid.symm⟩)
      · exact hat.parent id hid
  | draw =>
      refine ⟨by simp [target], hat.eventless, hat.parent, fun category hcategory => ?_, by simp⟩
      cases hcategory
      refine ⟨Nat.lt_succ_self _, fun parentId hparent => ?_⟩
      exact hgrown.lt_of_exists (hat.parent parentId hparent)
  | lockName => exact ⟨by simp [target], hat.eventless, hat.parent, hat.drawn, by simp⟩
  | insert => exact ⟨by simp [target], hat.eventless, hat.parent, hat.drawn, by simp⟩
  | commit => exact .idle rfl rfl rfl rfl (by simp)
  | quits => exact .idle rfl rfl rfl rfl (by simp)

theorem updateStep_at {pc pc' : UpdatePc} (h : UpdateStep s pc a eff pc')
    (hat : At s (.updateEvent pc))
    (hleaf : ∀ data userId eventId now, pc = .start data userId eventId → a = .run now →
      ∀ event ∈ (findDraft s.db eventId userId).bind data.apply,
        Childless s.db event.categoryId) : At (eff.apply s) (.updateEvent pc') := by
  cases h with
  | find hfind =>
      refine .entering (fun id hid => ?_) rfl rfl rfl (by simp)
      obtain ⟨event', happly, rfl⟩ := Option.map_eq_some_iff.mp hid
      refine hleaf _ _ _ _ rfl rfl event' ?_
      rw [hfind]
      exact happly
  | update happly =>
      refine .entering (fun id hid => ?_) rfl rfl rfl (by simp)
      cases hid
      refine hat.childless _ ?_
      rw [target, happly, Option.map_some]
  | _ => exact .idle rfl rfl rfl rfl (by simp)

end Step

section Run

variable {ι : Type}

theorem SystemStep.at {w : World ι Store Row Pc} {i : ι} {a : Act} {eff : Effect Store Row}
    {pc : Pc} (hgrown : Grown w.shared) (hat : At w.shared (w.pc i)) (hok : Leafy w i a)
    (h : SystemStep w.shared (w.pc i) a eff pc) : At (eff.apply w.shared) pc := by
  generalize hpc : w.pc i = pc₀ at h hat
  cases h with
  | order h => exact .idle rfl rfl rfl rfl (by simp)
  | createEvent h =>
      refine createStep_at h hat fun data userId now hstart ha => ?_
      subst hstart ha
      exact hok.1 data.categoryId.val (by rw [hpc]; rfl)
  | createCategory h => exact categoryStep_at h hgrown hat
  | updateEvent h =>
      refine updateStep_at h hat fun data userId eventId now hstart ha event hevent => ?_
      subst hstart ha
      refine hok.1 event.categoryId ?_
      rw [hpc]
      exact Option.mem_map_of_mem _ hevent
  | transition h => exact .idle rfl rfl rfl rfl (by simp)
  | createTicketCategory h => exact .idle rfl rfl rfl rfl (by simp)
  | modifyTicketCategory h => exact .idle rfl rfl rfl rfl (by simp)

theorem Call.at (s : Store) (call : Call) : At s call.pc := by
  cases call <;> exact .idle rfl rfl rfl rfl (by simp [Call.pc])

def outline : Outline ι Store Row Pc where
  inv := Grown
  at_ _ s _ pc := At s pc
  apart _ _ := True

theorem outline_sound : (outline : Outline ι Store Row Pc).Sound systemStep Leafy where
  own _ i _ _ _ hw hok hP _ :=
    ⟨Grown.writes hw.inv (hw.at_ i) (systemStep_cases hP).writes,
      SystemStep.at hw.inv (hw.at_ i) hok (systemStep_cases hP)⟩
  frame _ _ j _ _ _ hw hok hP _ _ :=
    ⟨At.writes (hw.at_ j) hok (systemStep_cases hP).writes, trivial, trivial⟩

/-- From a database without event categories and events, statements that keep
to leaf categories build a forest with events at its leaves only. -/
theorem hierarchy_of_leafy [DecidableEq ι] {s : Store} (hcategories : s.db.eventCategories = [])
    (hevents : s.db.events = []) (calls : ι → Call) {w : World ι Store Row Pc}
    (h : Run systemStep Leafy (atCalls s calls) w) : Hierarchy w.shared.db := by
  have hgrown : Grown s := by
    refine ⟨?_, ?_, ?_⟩ <;> simp [hcategories, hevents]
  have hvalid : (outline : Outline ι Store Row Pc).Valid (atCalls s calls) :=
    ⟨hgrown, fun i => Call.at s (calls i), fun _ _ _ => trivial⟩
  exact (outline_sound.run h hvalid).inv.hierarchy

end Run

/-! ## Three calls -/

def newcomer : Store := { db := { users := [⟨1, "host@example.com", .verifiedUser, true⟩] } }

def music : EventCategoryCreateSchema := ⟨"music", none⟩
def jazz : EventCategoryCreateSchema := ⟨"jazz", some one⟩

def concert (categoryId : PositiveInt32) : EventCreateSchema :=
  ⟨categoryId, "concert", some "live", .online, none, 100, by decide, by decide⟩

def threeCalls (categoryId : PositiveInt32) : Fin 3 → Call
  | 0 => .createCategory music
  | 1 => .createCategory jazz
  | 2 => .createEvent (concert categoryId) 1

def inTurn : List (Fin 3 × Act) :=
  List.replicate 5 (0, .edit (.run 0)) ++ List.replicate 6 (1, .edit (.run 0)) ++
    List.replicate 3 (2, .edit (.run 0))

/-- The event goes into the category below. -/
theorem hierarchy_of_leafy_jazz :
    ∃ w, Run systemStep Leafy (atCalls newcomer (threeCalls two)) w ∧
      w.shared.db.events ≠ [] ∧ Hierarchy w.shared.db := by
  have hrun : ((atCalls newcomer (threeCalls two)).guardedSteps systemStep Leafy
      inTurn).map (fun w => decide (w.shared.db.events = [])) = some false := by
    decide +kernel
  obtain ⟨w, hw, hevents⟩ := Option.map_eq_some_iff.mp hrun
  have hr := Run.of_guardedSteps hw
  exact ⟨w, hr, of_decide_eq_false hevents, hierarchy_of_leafy rfl rfl _ hr⟩

/-- The event goes into the category above, which has a child by then: the leaf
check lets it pass. -/
theorem event_above_child :
    ∃ w, Run systemStep anyStep (atCalls newcomer (threeCalls one)) w ∧
      ¬ Hierarchy w.shared.db := by
  have hrun : ((atCalls newcomer (threeCalls one)).steps systemStep inTurn).map
      (fun w => (w.shared.db.eventCategories.map fun category => category.parentId,
        w.shared.db.events.map fun event => event.categoryId)) = some ([none, some 1], [1]) := by
    decide +kernel
  obtain ⟨w, hw, heq⟩ := Option.map_eq_some_iff.mp hrun
  simp only [Prod.mk.injEq] at heq
  obtain ⟨hparents, hevents⟩ := heq
  refine ⟨w, Run.of_steps hw, fun h => ?_⟩
  obtain ⟨event, hevent, hid⟩ := List.mem_map.mp (hevents ▸ List.mem_singleton_self 1)
  obtain ⟨category, hcategory, hparent⟩ := List.mem_map.mp
    (hparents ▸ List.mem_cons_of_mem _ (List.mem_singleton_self (some 1)))
  exact h.leaves event hevent category hcategory (hparent.trans (congrArg some hid.symm))

end TicketBooking.Catalog.Categories
