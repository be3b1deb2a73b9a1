import TicketBooking.Catalog.Transactions
import TicketBooking.Database.Statements
/-!
# The statements of the event and ticket services

`EventService` and `TicketCategoryService` as they call the query layer, and the model that
works on the tables.
-/

namespace TicketBooking.Catalog.Statements

open TicketBooking.App.Exceptions (AppException)
open TicketBooking.Catalog.Editing TicketBooking.Catalog.Transactions
open TicketBooking.Database.Lookups TicketBooking.Database.Models TicketBooking.Database.Shared
open TicketBooking.Database.Statements TicketBooking.Database.Tables
open TicketBooking.Library.Sessions
open TicketBooking.Query.Comparisons TicketBooking.Query.Filters TicketBooking.Query.Operators

/-! ## `EventService.create` and `create_category` -/

def createStatement (s : Store) : CreatePc → EditAct → Option (Effect Store Row × CreatePc)
  | .notLeaf data, .run now =>
      some (answered (fun e => .finished (.error e))
        (existsRow now s.db .eventCategory [equals "id" (.int data.categoryId.val)]) fun found =>
          if found then
            (.rollback, .finished (.error (.eventCategoryIsNotALeaf data.categoryId.val)))
          else (.rollback, .finished (.error (eventCategoryNotFound data.categoryId.val))))
  | pc, a => createStep s pc a

def categoryStatement (s : Store) : CategoryPc → EditAct → Option (Effect Store Row × CategoryPc)
  | .start data, .run now =>
      match data.parentId with
      | none => some (.stay, .checked data)
      | some parentId =>
          some (answered (fun e => .finished (.error e))
            (existsRow now s.db .eventCategory [equals "id" (.int parentId.val)]) fun found =>
              if found then (.stay, .parentRead data parentId.val)
              else (.rollback, .finished (.error (eventCategoryNotFound parentId.val))))
  | .parentRead data parentId, .run now =>
      some (answered (fun e => .finished (.error e))
        (existsRow now s.db .event [equals "category_id" (.int parentId)]) fun found =>
          if found then (.rollback, .finished (.error (.eventCategoryHasEvents parentId)))
          else (.stay, .checked data))
  | pc, a => categoryStep s pc a

/-! ## `EventService.update` -/

def stateFilter : List EventState → OwnFilter Argument
  | [state] => equals "state" (.text state.value)
  | states => ⟨"state__in", "state", .isIn, some "state",
      .many (states.map fun state => .text state.value)⟩

def ownerKwargs (eventId : Nat) (userId : Option Nat) : List (String × Value) :=
  ("id", .int eventId) :: userId.toList.map fun userId : Nat => ("user_id", .int userId)

def eventFilters (eventId : Nat) (userId : Option Nat) (sources : List EventState) :
    List (OwnFilter Argument) :=
  (ownerKwargs eventId userId).map (fun kwarg => equals kwarg.1 kwarg.2) ++ [stateFilter sources]

def updateStatement (s : Store) : UpdatePc → EditAct → Option (Effect Store Row × UpdatePc)
  | .start data userId eventId, .run now =>
      some (answered (fun e => .finished (.error e))
        (updatedRows now s.db .event (eventFilters eventId (some userId) [.draft])) fun found =>
          match found.head? with
          | some (.event event) => (lockFound (.event event), .matched data event)
          | _ => (.stay, .missed userId eventId))
  | .missed userId eventId, .run now =>
      some (answered (fun e => .finished (.error e))
        (existsRow now s.db .event
          ((ownerKwargs eventId (some userId)).map fun kwarg => equals kwarg.1 kwarg.2))
        fun found =>
          if found then (.rollback, .finished (.error notDraft))
          else (.rollback, .finished (.error (eventNotFound eventId))))
  | pc, a => updateStep s pc a

/-! ## `publish`, `cancel` and `moderate` -/

def transitionStatement (s : Store) :
    TransitionPc → EditAct → Option (Effect Store Row × TransitionPc)
  | .start t, .run now =>
      some (answered (fun e => .finished (.error e))
        (updatedRows now s.db .event (eventFilters t.eventId t.userId t.sources)) fun found =>
          match found.head? with
          | none => (.stay, .missed t)
          | some row => (lockFound row, .updated t))
  | .missed t, .run now =>
      some (answered (fun e => .finished (.error e))
        (repositoryGet now s.db .event (ownerKwargs t.eventId t.userId)) fun found =>
          match found with
          | some (.event event) =>
              if event.state = t.target then (.rollback, .finished (.ok true))
              else (.rollback, .finished (.error
                (.wrongState (t.sources.map EventState.value) (some event.state.value))))
          | _ => (.rollback, .finished (.error (eventNotFound t.eventId))))
  | pc, a => transitionStep s pc a

/-! ## `TicketCategoryService` -/

def guardStatement (s : Store) (userId eventId : Nat) (now : Int) :
    Except AppException (Option AppException) :=
  (repositoryGet now s.db .event [("id", .int eventId)]).map fun found =>
    match found with
    | some (.event event) =>
        if event.userId ≠ userId then some (eventNotFound eventId)
        else if event.status now ≠ .draft then some (notDraftNow event now)
        else none
    | _ => some (eventNotFound eventId)

def ticketCategoryStatement (s : Store) :
    TicketCategoryPc → EditAct → Option (Effect Store Row × TicketCategoryPc)
  | .start userId data, .run now =>
      some (answered (fun e => .finished (.error e))
        (guardStatement s userId data.eventId.val now) fun refused =>
          match refused with
          | some e => (.rollback, .finished (.error e))
          | none => (.stay, .checked data))
  | pc, a => ticketCategoryStep s pc a

/-- `self.uow.ticket_category.filter(id=obj_id)`, and the rows its `update` or `delete`
finds. -/
def modifiedRows (now : Int) (s : Store) (objId : Nat) :
    Change → Except AppException (List Record)
  | .update _ => updatedRows now s.db .ticketCategory [equals "id" (.int objId)]
  | .delete => deletedRows now s.db (ownQuery .ticketCategory [equals "id" (.int objId)])

def modifyStatement (s : Store) : ModifyPc → EditAct → Option (Effect Store Row × ModifyPc)
  | .start userId objId change, .run now =>
      some (answered (fun e => .finished (.error e))
        (repositoryGet now s.db .ticketCategory [("id", .int objId)]) fun found =>
          match found with
          | some (.ticketCategory category) => (.stay, .categoryRead userId objId change category)
          | _ => (.rollback, .finished (.error (ticketCategoryNotFound objId))))
  | .categoryRead userId objId change category, .run now =>
      some (answered (fun e => .finished (.error e))
        (guardStatement s userId category.eventId now) fun refused =>
          match refused with
          | some e => (.rollback, .finished (.error e))
          | none => (.stay, .checked objId change category))
  | .checked objId change _, .run now =>
      some (answered (fun e => .finished (.error e)) (modifiedRows now s objId change) fun found =>
        match found.head? with
        | some (.ticketCategory category) =>
            (lockFound (.ticketCategory category), .locking category change (change.keys category))
        | _ => (.stay, .unmatched))
  | pc, a => modifyStep s pc a

/-! ## The statements of the model -/

section Agree

variable {now : Int} {s : Store}

theorem existsRow_category (now : Int) (db : Db) (id : Nat) :
    existsRow now db .eventCategory [equals "id" (.int id)] = .ok (categoryExists db id) :=
  existsRow_table (T := eventCategories) (valid_id id) (holds_id id)

theorem createStatement_eq (pc : CreatePc) (a : EditAct) :
    createStatement s pc a = createStep s pc a := by
  unfold createStatement
  split
  · rename_i data now
    rw [existsRow_category, createStep]
    simp only [answered]
    split_ifs <;> rfl
  · rfl

theorem namesColumn_categoryId : NamesColumn .event "category_id" :=
  OwnKey.namesColumn (.of (by simp [ownKeys])) rfl

theorem existsRow_events (now : Int) (db : Db) (categoryId : Nat) :
    existsRow now db .event [equals "category_id" (.int categoryId)] =
      .ok (hasEvents db categoryId) := by
  refine existsRow_table (T := events) (valid_equals_all [("category_id", .int categoryId)]
    fun kwarg hkwarg => ?_) fun event => ?_
  · rw [List.mem_singleton.mp hkwarg]
    exact namesColumn_categoryId
  · show (decide (some (Value.int event.categoryId) = some (.int categoryId)) && true) = _
    simp only [Option.some.injEq, Value.int.injEq, Int.ofNat_inj, Bool.and_true]

theorem categoryStatement_eq (pc : CategoryPc) (a : EditAct) :
    categoryStatement s pc a = categoryStep s pc a := by
  unfold categoryStatement
  split
  · rename_i data now
    rw [categoryStep]
    cases data.parentId with
    | none => rfl
    | some parentId =>
        simp only [existsRow_category, answered]
        split_ifs <;> rfl
  · rename_i data parentId now
    rw [existsRow_events, categoryStep]
    simp only [answered]
    split_ifs <;> rfl
  · rfl

/-! ## Events by their owner and state -/

theorem namesColumn_owner {eventId : Nat} {userId : Option Nat} :
    ∀ kwarg ∈ ownerKwargs eventId userId, NamesColumn .event kwarg.1 := by
  intro kwarg hkwarg
  rcases List.mem_cons.mp hkwarg with rfl | hkwarg
  · exact namesColumn_id .event
  · obtain ⟨_, -, rfl⟩ := List.mem_map.mp hkwarg
    exact namesColumn_userId

def named (eventId : Nat) (userId : Option Nat) (event : Event) : Bool :=
  event.id = eventId ∧ userId.all fun userId => event.userId = userId

theorem holds_owner (now : Int) (db : Rows) (eventId : Nat) (userId : Option Nat) (event : Event) :
    (ownerKwargs eventId userId).all (fun kwarg =>
        readRecord now db kwarg.1 (.event event) = some kwarg.2) = named eventId userId event := by
  have hid : readRecord now db "id" (.event event) = some (.int eventId) ↔ event.id = eventId := by
    show some (Value.int event.id) = some (.int eventId) ↔ _
    simp only [Option.some.injEq, Value.int.injEq, Int.ofNat_inj]
  have huser : ∀ userId : Nat, readRecord now db "user_id" (.event event) = some (.int userId) ↔
      event.userId = userId := by
    intro userId
    show some (Value.int event.userId) = some (.int userId) ↔ _
    simp only [Option.some.injEq, Value.int.injEq, Int.ofNat_inj]
  rw [named, ownerKwargs, List.all_cons, List.all_map, Bool.decide_and, decide_eq_decide.mpr hid]
  cases userId with
  | none => rfl
  | some userId =>
      have hone : decide (readRecord now db "user_id" (.event event) = some (.int userId)) =
          decide (event.userId = userId) := decide_eq_decide.mpr (huser userId)
      rw [Option.toList_some, List.all_cons, List.all_nil, Bool.and_true, Function.comp_apply, hone]
      simp

theorem value_inj {state state' : EventState} (h : state.value = state'.value) :
    state = state' := by
  revert h
  cases state <;> cases state' <;> decide

theorem valid_stateFilter (sources : List EventState) :
    (stateFilter sources).Valid (mapping now).comparison .event := by
  unfold stateFilter
  split
  · exact valid_equals (OwnKey.namesColumn (.of (by simp [ownKeys])) rfl)
  · exact OwnKey.valid (.of (by simp [ownKeys])) rfl rfl

theorem holds_state (now : Int) (db : Rows) (sources : List EventState) (event : Event) :
    (stateFilter sources).holds now (mapping now).comparison db (.event event) =
      decide (event.state ∈ sources) := by
  unfold stateFilter
  split
  · rename_i state
    show decide (some (Value.text event.state.value) = some (.text state.value)) = _
    rw [decide_eq_decide, Option.some.injEq, Value.text.injEq, List.mem_singleton]
    exact ⟨value_inj, congrArg _⟩
  · show decide (Value.text event.state.value ∈ sources.map fun state => Value.text state.value) = _
    rw [decide_eq_decide, List.mem_map]
    constructor
    · rintro ⟨state, hstate, heq⟩
      exact value_inj (Value.text.inj heq) ▸ hstate
    · exact fun hstate => ⟨_, hstate, rfl⟩

theorem valid_eventFilters (eventId : Nat) (userId : Option Nat) (sources : List EventState) :
    Valid (mapping now).comparison .event (eventFilters eventId userId sources) := by
  obtain ⟨hkwargs, -⟩ := @valid_equals_all now .event (ownerKwargs eventId userId) namesColumn_owner
  refine ⟨fun f hf => ?_, agree_of_single ?_⟩
  · rcases List.mem_append.mp hf with hf | hf
    · exact hkwargs f hf
    · rw [List.mem_singleton.mp hf]
      exact valid_stateFilter sources
  · have hnone : ((ownerKwargs eventId userId).map fun kwarg =>
        ownClause Model.event (equals kwarg.1 kwarg.2)).flatMap Clause.binds = [] := by
      simp only [List.flatMap_eq_nil_iff, List.forall_mem_map]
      exact fun _ _ => rfl
    have hone : (ownClause Model.event (stateFilter sources)).binds.length ≤ 1 := by
      unfold stateFilter
      split
      · exact Nat.zero_le 1
      · exact le_refl 1
    rw [eventFilters, List.map_append, List.flatMap_append, List.map_map, Function.comp_def, hnone,
      List.map_singleton, List.flatMap_singleton, List.nil_append]
    exact hone

theorem updatedRows_events (now : Int) (db : Db) (eventId : Nat) (userId : Option Nat)
    (sources : List EventState) :
    updatedRows now db .event (eventFilters eventId userId sources) =
      .ok ((db.events.filter fun event => named eventId userId event ∧ event.state ∈ sources).map
        .event) := by
  refine updatedRows_table (T := events) (valid_eventFilters eventId userId sources)
    fun event => ?_
  have hkwargs : ((ownerKwargs eventId userId).map fun kwarg => equals kwarg.1 kwarg.2).all
      (fun f => f.holds now (mapping now).comparison (records db) (.event event)) =
        named eventId userId event := by
    rw [List.all_map, ← holds_owner now (records db)]
    rfl
  show (eventFilters eventId userId sources).all (fun f =>
    f.holds now (mapping now).comparison (records db) (.event event)) = _
  rw [eventFilters, List.all_append, hkwargs, List.all_cons, List.all_nil, Bool.and_true,
    holds_state, Bool.decide_and, Bool.decide_eq_true]

theorem existsRow_owner (now : Int) (db : Db) (eventId userId : Nat) :
    existsRow now db .event
        ((ownerKwargs eventId (some userId)).map fun kwarg => equals kwarg.1 kwarg.2) =
      .ok (ownsEvent db eventId userId) := by
  refine existsRow_table (T := events) (valid_equals_all _ namesColumn_owner) fun event => ?_
  rw [List.all_map]
  refine (holds_owner now (records db) eventId (some userId) event).trans ?_
  simp [named]

theorem updateStatement_eq (pc : UpdatePc) (a : EditAct) :
    updateStatement s pc a = updateStep s pc a := by
  unfold updateStatement
  split
  · rename_i data userId eventId now
    have hdraft : findDraft s.db eventId userId =
        s.db.events.find? fun event => named eventId (some userId) event ∧
          event.state ∈ [EventState.draft] := by
      unfold findDraft
      congr 1
      funext event
      simp [named, and_assoc]
    rw [updatedRows_events, updateStep, hdraft]
    simp only [answered, List.head?_map, List.head?_filter]
    cases hfind : s.db.events.find? fun event => named eventId (some userId) event ∧
        event.state ∈ [EventState.draft] with
    | none => rfl
    | some event =>
        have hid : event.id = eventId := (of_decide_eq_true (find_eq_some hfind).2.1).1
        rw [← hid]
        rfl
  · rename_i userId eventId now
    rw [existsRow_owner, updateStep]
    simp only [answered]
    split_ifs <;> rfl
  · rfl

theorem repositoryGet_owner (hkeys : PrimaryKeys s.db) (eventId : Nat) (userId : Option Nat) :
    repositoryGet now s.db .event (ownerKwargs eventId userId) =
      .ok ((s.db.events.find? (named eventId userId)).map .event) := by
  refine repositoryGet_table (T := events) namesColumn_owner
    (holds_owner now (records s.db) eventId userId) fun event hevent event' hevent' hid hid' => ?_
  refine List.inj_on_of_nodup_map hkeys.events hevent hevent' ?_
  exact (of_decide_eq_true hid).1.trans (of_decide_eq_true hid').1.symm

theorem transitionStatement_eq (hkeys : PrimaryKeys s.db) (pc : TransitionPc) (a : EditAct) :
    transitionStatement s pc a = transitionStep s pc a := by
  unfold transitionStatement
  split
  · rename_i t now
    have hsource : t.source s.db = s.db.events.find? fun event =>
        named t.eventId t.userId event ∧ event.state ∈ t.sources := rfl
    rw [updatedRows_events, transitionStep, hsource]
    simp only [answered, List.head?_map, List.head?_filter]
    cases hfind : s.db.events.find? fun event => named t.eventId t.userId event ∧
        event.state ∈ t.sources with
    | none => rfl
    | some event =>
        have hid : event.id = t.eventId := (of_decide_eq_true (find_eq_some hfind).2.1).1
        rw [← hid]
        rfl
  · rename_i t now
    have hnames : t.names = named t.eventId t.userId := rfl
    rw [repositoryGet_owner hkeys, transitionStep, hnames]
    cases s.db.events.find? (named t.eventId t.userId) with
    | none => rfl
    | some event =>
        simp only [Option.map_some, answered]
        split_ifs <;> rfl
  · rfl

/-! ## Ticket categories -/

theorem guardStatement_eq (hkeys : PrimaryKeys s.db) (userId eventId : Nat) :
    guardStatement s userId eventId now = .ok (guardEvent s userId eventId now) := by
  unfold guardStatement guardEvent
  have hget : repositoryGet now s.db .event [("id", .int eventId)] =
      .ok ((findEvent s.db eventId).map .event) :=
    repositoryGet_id (T := events) hkeys.events eventId
  rw [hget]
  cases findEvent s.db eventId <;> rfl

theorem ticketCategoryStatement_eq (hkeys : PrimaryKeys s.db) (pc : TicketCategoryPc)
    (a : EditAct) : ticketCategoryStatement s pc a = ticketCategoryStep s pc a := by
  unfold ticketCategoryStatement
  split
  · rename_i userId data now
    rw [guardStatement_eq hkeys, ticketCategoryStep]
    cases guardEvent s userId data.eventId.val now <;> rfl
  · rfl

theorem modifiedRows_eq (objId : Nat) (change : Change) :
    modifiedRows now s objId change =
      .ok ((s.db.ticketCategories.filter fun category => category.id = objId).map
        .ticketCategory) := by
  cases change with
  | update data => exact updatedRows_table (T := ticketCategories) (valid_id objId) (holds_id objId)
  | delete => exact deletedRows_table (T := ticketCategories) (valid_id objId) (holds_id objId)

theorem modifyStatement_eq (hkeys : PrimaryKeys s.db) (pc : ModifyPc) (a : EditAct) :
    modifyStatement s pc a = modifyStep s pc a := by
  unfold modifyStatement
  split
  · rename_i userId objId change now
    have hget : repositoryGet now s.db .ticketCategory [("id", .int objId)] =
        .ok ((findTicketCategory s.db objId).map .ticketCategory) :=
      repositoryGet_id (T := ticketCategories) hkeys.ticketCategories objId
    rw [hget, modifyStep]
    cases findTicketCategory s.db objId <;> rfl
  · rename_i userId objId change category now
    rw [guardStatement_eq hkeys, modifyStep]
    cases guardEvent s userId category.eventId now <;> rfl
  · rename_i objId change category now
    rw [modifiedRows_eq, modifyStep, findTicketCategory]
    simp only [answered, List.head?_map, List.head?_filter]
    cases hfind : s.db.ticketCategories.find? fun category => category.id = objId with
    | none => rfl
    | some category =>
        rw [← (find_eq_some hfind).2]
        rfl
  · rfl

end Agree

end TicketBooking.Catalog.Statements
