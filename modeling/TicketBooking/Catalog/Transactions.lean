import TicketBooking.Catalog.Editing
import TicketBooking.Library.Sessions
/-!
# The event and ticket services, statement by statement

`EventService.create`, `create_category`, `update`, `publish`, `cancel` and
`moderate`, and `TicketCategoryService.create`, `update` and `delete` as
sessions at READ COMMITTED.  A control point names the statement that runs next
and carries what the Python frame and the open transaction hold; the writes
reach the other sessions with the commit.

The foreign keys do not make the statements wait for each other: an insert takes
a KEY SHARE lock on the row it refers to, which an UPDATE of other columns does
not conflict with.
-/

namespace TicketBooking.Catalog.Transactions

open TicketBooking.App.Exceptions
open TicketBooking.Catalog.Editing
open TicketBooking.Database.Shared TicketBooking.Database.Tables
open TicketBooking.Library.Sessions
open TicketBooking.Order.Booking (PositiveInt32 userExists)
open TicketBooking.Query.Builder (QueryError)

/-- The next statement runs, at the instant `now`, or fails for a reason from
outside. -/
inductive EditAct
  | run (now : Int)
  | fail
  deriving DecidableEq

def drawEventId (s : Store) : Store := { s with seq := { s.seq with events := s.seq.events + 1 } }

def drawEventCategoryId (s : Store) : Store :=
  { s with seq := { s.seq with eventCategories := s.seq.eventCategories + 1 } }

def drawTicketCategoryId (s : Store) : Store :=
  { s with seq := { s.seq with ticketCategories := s.seq.ticketCategories + 1 } }

def eventNotFound (id : Nat) : AppException := .objectNotFound eventsTable (.id id)
def eventCategoryNotFound (id : Nat) : AppException := .objectNotFound eventCategoriesTable (.id id)
def ticketCategoryNotFound (id : Nat) : AppException :=
  .objectNotFound ticketCategoriesTable (.id id)

def notDraft : AppException := .wrongState [EventState.draft.value] none

/-- The `current` of the ticket services is the status. -/
def notDraftNow (event : Event) (now : Int) : AppException :=
  .wrongState [EventStatus.draft.value] (some (event.status now).value)

/-! ## `EventService.create` -/

inductive CreatePc
  | start (data : EventCreateSchema) (userId : Nat)
  | notLeaf (data : EventCreateSchema)
  | checked (data : EventCreateSchema) (userId : Nat)
  | inserted (event : Event)
  | finished (result : Except AppException Event)

/-- The check returned its answer; it cannot fail. -/
def afterLeafCheck (data : EventCreateSchema) (userId : Nat) :
    Except QueryError Bool → Effect Store Row × CreatePc
  | .ok true => (.stay, .checked data userId)
  | .ok false => (.stay, .notLeaf data)
  | .error _ => (.rollback, .finished (.error (.other "QueryError")))

def createStep (s : Store) : CreatePc → EditAct → Option (Effect Store Row × CreatePc)
  | .start data userId, .run now =>
      some (afterLeafCheck data userId (isLeafCategory now s.db data.categoryId.val))
  | .notLeaf data, .run _ =>
      if categoryExists s.db data.categoryId.val then
        some (.rollback, .finished (.error (.eventCategoryIsNotALeaf data.categoryId.val)))
      else some (.rollback, .finished (.error (eventCategoryNotFound data.categoryId.val)))
  | .checked data userId, .run _ =>
      match newEvent data userId s.seq.events with
      | none => some (.rollback, .finished (.error (.databaseError .notNullViolation)))
      | some event =>
          if categoryExists s.db event.categoryId ∧ userExists s.db (some userId) then
            some (.emit drawEventId, .inserted event)
          else some (.rollback, .finished (.error (.databaseError .foreignKeyViolation)))
  | .inserted event, .run _ =>
      some (.commit fun s => s.withDb (insertEvent event), .finished (.ok event))
  | .finished _, _ => none
  | _, .fail => some (.rollback, .finished (.error (.databaseError .unhandled)))

/-! ## `EventService.create_category` -/

inductive CategoryPc
  | start (data : EventCategoryCreateSchema)
  | parentRead (data : EventCategoryCreateSchema) (parentId : Nat)
  | checked (data : EventCategoryCreateSchema)
  | inserting (category : EventCategory)
  | keyed (category : EventCategory)
  | inserted (category : EventCategory)
  | finished (result : Except AppException EventCategory)

def categoryStep (s : Store) : CategoryPc → EditAct → Option (Effect Store Row × CategoryPc)
  | .start data, .run _ =>
      match data.parentId with
      | none => some (.stay, .checked data)
      | some parentId =>
          if categoryExists s.db parentId.val then some (.stay, .parentRead data parentId.val)
          else some (.rollback, .finished (.error (eventCategoryNotFound parentId.val)))
  | .parentRead data parentId, .run _ =>
      if hasEvents s.db parentId then
        some (.rollback, .finished (.error (.eventCategoryHasEvents parentId)))
      else some (.stay, .checked data)
  | .checked data, .run _ =>
      some (.emit drawEventCategoryId, .inserting (newEventCategory data s.seq.eventCategories))
  | .inserting category, .run _ =>
      -- the index entry waits for a transaction that is inserting the same name
      some (.lock (.eventCategoryName category.name), .keyed category)
  | .keyed category, .run _ =>
      if s.db.eventCategories.any fun other => other.name = category.name then
        some (.rollback, .finished (.error (.uniqueField "name" category.name)))
      else some (.stay, .inserted category)
  | .inserted category, .run _ =>
      some (.commit fun s => s.withDb (insertEventCategory category), .finished (.ok category))
  | .finished _, _ => none
  | _, .fail => some (.rollback, .finished (.error (.databaseError .unhandled)))

/-! ## `EventService.update` -/

inductive UpdatePc
  | start (data : EventUpdateSchema) (userId eventId : Nat)
  | missed (userId eventId : Nat)
  | matched (data : EventUpdateSchema) (event : Event)
  | updated (event : Event)
  | finished (result : Except AppException Bool)

def updateStep (s : Store) : UpdatePc → EditAct → Option (Effect Store Row × UpdatePc)
  | .start data userId eventId, .run _ =>
      match findDraft s.db eventId userId with
      | some event => some (.lock (.event eventId), .matched data event)
      | none => some (.stay, .missed userId eventId)
  | .missed userId eventId, .run _ =>
      if ownsEvent s.db eventId userId then some (.rollback, .finished (.error notDraft))
      else some (.rollback, .finished (.error (eventNotFound eventId)))
  | .matched data event, .run _ =>
      match data.apply event with
      | none => some (.rollback, .finished (.error (.databaseError .notNullViolation)))
      | some event' =>
          if categoryExists s.db event'.categoryId then
            if data.readable then some (.stay, .updated event')
            else some (.rollback, .finished (.error (.other "LookupError")))
          else some (.rollback, .finished (.error (.databaseError .foreignKeyViolation)))
  | .updated event, .run _ =>
      some (.commit fun s => s.withDb (replaceEvent event), .finished (.ok true))
  | .finished _, _ => none
  | _, .fail => some (.rollback, .finished (.error (.databaseError .unhandled)))

/-! ## `publish`, `cancel` and `moderate` -/

inductive TransitionPc
  | start (t : Transition)
  | missed (t : Transition)
  | updated (t : Transition)
  | finished (result : Except AppException Bool)

def transitionStep (s : Store) : TransitionPc → EditAct → Option (Effect Store Row × TransitionPc)
  | .start t, .run _ =>
      match t.source s.db with
      | some _ => some (.lock (.event t.eventId), .updated t)
      | none => some (.stay, .missed t)
  | .missed t, .run _ =>
      match s.db.events.find? t.names with
      | none => some (.rollback, .finished (.error (eventNotFound t.eventId)))
      | some event =>
          if event.state = t.target then some (.rollback, .finished (.ok true))
          else some (.rollback, .finished (.error
            (.wrongState (t.sources.map EventState.value) (some event.state.value))))
  | .updated t, .run _ =>
      some (.commit fun s => s.withDb (setState t.eventId t.target), .finished (.ok true))
  | .finished _, _ => none
  | _, .fail => some (.rollback, .finished (.error (.databaseError .unhandled)))

/-! ## `TicketCategoryService.create` -/

inductive TicketCategoryPc
  | start (userId : Nat) (data : TicketCategoryCreateSchema)
  | checked (data : TicketCategoryCreateSchema)
  | inserting (category : TicketCategory)
  | keyed (category : TicketCategory)
  | inserted (category : TicketCategory)
  | finished (result : Except AppException TicketCategory)

/-- `event_obj is None or event_obj.user_id != user_id`, then the status. -/
def guardEvent (s : Store) (userId eventId : Nat) (now : Int) : Option AppException :=
  match findEvent s.db eventId with
  | none => some (eventNotFound eventId)
  | some event =>
      if event.userId ≠ userId then some (eventNotFound eventId)
      else if event.status now ≠ .draft then some (notDraftNow event now)
      else none

def ticketCategoryStep (s : Store) :
    TicketCategoryPc → EditAct → Option (Effect Store Row × TicketCategoryPc)
  | .start userId data, .run now =>
      match guardEvent s userId data.eventId.val now with
      | some e => some (.rollback, .finished (.error e))
      | none => some (.stay, .checked data)
  | .checked data, .run _ =>
      some (.emit drawTicketCategoryId,
        .inserting (newTicketCategory data s.seq.ticketCategories))
  | .inserting category, .run _ =>
      some (.lock (.ticketCategoryName category.eventId category.name), .keyed category)
  | .keyed category, .run _ =>
      if nameTaken s.db category.id category.eventId category.name then
        some (.rollback, .finished (.error (.databaseError .uniqueViolation)))
      else if (findEvent s.db category.eventId).isSome then some (.stay, .inserted category)
      else some (.rollback, .finished (.error (.databaseError .foreignKeyViolation)))
  | .inserted category, .run _ =>
      some (.commit fun s => s.withDb (insertTicketCategory category), .finished (.ok category))
  | .finished _, _ => none
  | _, .fail => some (.rollback, .finished (.error (.databaseError .unhandled)))

/-! ## `TicketCategoryService.update` and `delete` -/

/-- `categoryRead` and `checked` carry the object `_validate_modification` returns,
the later ones the row its lock was taken on. -/
inductive ModifyPc
  | start (userId objId : Nat) (change : Change)
  | categoryRead (userId objId : Nat) (change : Change) (category : TicketCategory)
  | checked (objId : Nat) (change : Change) (category : TicketCategory)
  | locking (category : TicketCategory) (change : Change) (keys : List (Nat × String))
  | modified (category : TicketCategory) (new : Option TicketCategory)
  | unmatched
  | finished (result : Except AppException Bool)

def modifyStep (s : Store) : ModifyPc → EditAct → Option (Effect Store Row × ModifyPc)
  | .start userId objId change, .run _ =>
      match findTicketCategory s.db objId with
      | none => some (.rollback, .finished (.error (ticketCategoryNotFound objId)))
      | some category => some (.stay, .categoryRead userId objId change category)
  | .categoryRead userId objId change category, .run now =>
      match guardEvent s userId category.eventId now with
      | some e => some (.rollback, .finished (.error e))
      | none => some (.stay, .checked objId change category)
  | .checked objId change _, .run _ =>
      match findTicketCategory s.db objId with
      | none => some (.stay, .unmatched)
      | some category =>
          some (.lock (.ticketCategory objId), .locking category change (change.keys category))
  | .locking category change (key :: keys), .run _ =>
      some (.lock (.ticketCategoryName key.1 key.2), .locking category change keys)
  | .locking category change [], .run _ =>
      match change.result s.db category with
      | .error e => some (.rollback, .finished (.error (.databaseError e)))
      | .ok new => some (.stay, .modified category new)
  | .modified category new, .run _ =>
      some (.commit fun s => s.withDb (putTicketCategory category.id new), .finished (.ok true))
  | .unmatched, .run _ => some (.commit id, .finished (.ok true))
  | .finished _, _ => none
  | _, .fail => some (.rollback, .finished (.error (.databaseError .unhandled)))

/-! ## What each statement does -/

inductive CreateStep (s : Store) : CreatePc → EditAct → Effect Store Row → CreatePc → Prop
  | found {data : EventCreateSchema} {userId : Nat} {now : Int}
      (hleaf : isLeafCategory now s.db data.categoryId.val = .ok true) :
      CreateStep s (.start data userId) (.run now) .stay (.checked data userId)
  | notFound {data : EventCreateSchema} {userId : Nat} {now : Int} :
      CreateStep s (.start data userId) (.run now) .stay (.notLeaf data)
  | insert {data : EventCreateSchema} {userId : Nat} {now : Int} {event : Event}
      (hnew : newEvent data userId s.seq.events = some event)
      (hcategory : categoryExists s.db event.categoryId) :
      CreateStep s (.checked data userId) (.run now) (.emit drawEventId) (.inserted event)
  | commit {event : Event} {now : Int} :
      CreateStep s (.inserted event) (.run now) (.commit fun s => s.withDb (insertEvent event))
        (.finished (.ok event))
  | quits {pc : CreatePc} {a : EditAct} {result : Except AppException Event} :
      CreateStep s pc a .rollback (.finished result)

theorem createStep_cases {s : Store} {pc pc' : CreatePc} {a : EditAct} {eff : Effect Store Row}
    (h : createStep s pc a = some (eff, pc')) : CreateStep s pc a eff pc' := by
  fun_cases createStep s pc a
  all_goals simp only [createStep] at h
  case case1 data userId now =>
      generalize hleaf : isLeafCategory now s.db data.categoryId.val = answer at h
      cases answer with
      | error e =>
          cases h
          exact .quits
      | ok leaf =>
          cases leaf
          · cases h
            exact .notFound
          · cases h
            exact .found hleaf
  case case5 event hnew hkeys =>
      simp only [hnew, if_pos hkeys] at h
      cases h
      exact .insert hnew hkeys.1
  all_goals try simp only [*, if_true, if_false] at h
  all_goals cases h
  all_goals constructor

inductive CategoryStep (s : Store) : CategoryPc → EditAct → Effect Store Row → CategoryPc → Prop
  | root {data : EventCategoryCreateSchema} {now : Int} (hparent : data.parentId = none) :
      CategoryStep s (.start data) (.run now) .stay (.checked data)
  | readParent {data : EventCategoryCreateSchema} {now : Int} {parentId : PositiveInt32}
      (hparent : data.parentId = some parentId) (hexists : categoryExists s.db parentId.val) :
      CategoryStep s (.start data) (.run now) .stay (.parentRead data parentId.val)
  | readEvents {data : EventCategoryCreateSchema} {parentId : Nat} {now : Int}
      (hevents : ¬ hasEvents s.db parentId) :
      CategoryStep s (.parentRead data parentId) (.run now) .stay (.checked data)
  | draw {data : EventCategoryCreateSchema} {now : Int} :
      CategoryStep s (.checked data) (.run now) (.emit drawEventCategoryId)
        (.inserting (newEventCategory data s.seq.eventCategories))
  | lockName {category : EventCategory} {now : Int} :
      CategoryStep s (.inserting category) (.run now) (.lock (.eventCategoryName category.name))
        (.keyed category)
  | insert {category : EventCategory} {now : Int} :
      CategoryStep s (.keyed category) (.run now) .stay (.inserted category)
  | commit {category : EventCategory} {now : Int} :
      CategoryStep s (.inserted category) (.run now)
        (.commit fun s => s.withDb (insertEventCategory category)) (.finished (.ok category))
  | quits {pc : CategoryPc} {a : EditAct} {result : Except AppException EventCategory} :
      CategoryStep s pc a .rollback (.finished result)

theorem categoryStep_cases {s : Store} {pc pc' : CategoryPc} {a : EditAct} {eff : Effect Store Row}
    (h : categoryStep s pc a = some (eff, pc')) : CategoryStep s pc a eff pc' := by
  fun_cases categoryStep s pc a
  all_goals simp only [categoryStep] at h
  all_goals try simp only [*, if_true] at h
  all_goals cases h
  all_goals constructor <;> assumption

inductive UpdateStep (s : Store) : UpdatePc → EditAct → Effect Store Row → UpdatePc → Prop
  | find {data : EventUpdateSchema} {userId eventId : Nat} {now : Int} {event : Event}
      (hfind : findDraft s.db eventId userId = some event) :
      UpdateStep s (.start data userId eventId) (.run now) (.lock (.event eventId))
        (.matched data event)
  | miss {data : EventUpdateSchema} {userId eventId : Nat} {now : Int} :
      UpdateStep s (.start data userId eventId) (.run now) .stay (.missed userId eventId)
  | update {data : EventUpdateSchema} {event event' : Event} {now : Int}
      (happly : data.apply event = some event')
      (hcategory : categoryExists s.db event'.categoryId) (hreadable : data.readable) :
      UpdateStep s (.matched data event) (.run now) .stay (.updated event')
  | commit {event : Event} {now : Int} :
      UpdateStep s (.updated event) (.run now) (.commit fun s => s.withDb (replaceEvent event))
        (.finished (.ok true))
  | quits {pc : UpdatePc} {a : EditAct} {result : Except AppException Bool} :
      UpdateStep s pc a .rollback (.finished result)

theorem updateStep_cases {s : Store} {pc pc' : UpdatePc} {a : EditAct} {eff : Effect Store Row}
    (h : updateStep s pc a = some (eff, pc')) : UpdateStep s pc a eff pc' := by
  fun_cases updateStep s pc a
  all_goals simp only [updateStep] at h
  all_goals try simp only [*, if_true] at h
  all_goals cases h
  all_goals constructor <;> assumption

inductive TransitionStep (s : Store) :
    TransitionPc → EditAct → Effect Store Row → TransitionPc → Prop
  | update {t : Transition} {now : Int} {event : Event} (hsource : t.source s.db = some event) :
      TransitionStep s (.start t) (.run now) (.lock (.event t.eventId)) (.updated t)
  | miss {t : Transition} {now : Int} :
      TransitionStep s (.start t) (.run now) .stay (.missed t)
  | commit {t : Transition} {now : Int} :
      TransitionStep s (.updated t) (.run now)
        (.commit fun s => s.withDb (setState t.eventId t.target)) (.finished (.ok true))
  | quits {pc : TransitionPc} {a : EditAct} {result : Except AppException Bool} :
      TransitionStep s pc a .rollback (.finished result)

theorem transitionStep_cases {s : Store} {pc pc' : TransitionPc} {a : EditAct}
    {eff : Effect Store Row} (h : transitionStep s pc a = some (eff, pc')) :
    TransitionStep s pc a eff pc' := by
  fun_cases transitionStep s pc a
  all_goals simp only [transitionStep] at h
  all_goals try simp only [*, if_true] at h
  all_goals cases h
  all_goals constructor <;> assumption

inductive TicketCategoryStep (s : Store) :
    TicketCategoryPc → EditAct → Effect Store Row → TicketCategoryPc → Prop
  | check {userId : Nat} {data : TicketCategoryCreateSchema} {now : Int}
      (hguard : guardEvent s userId data.eventId.val now = none) :
      TicketCategoryStep s (.start userId data) (.run now) .stay (.checked data)
  | draw {data : TicketCategoryCreateSchema} {now : Int} :
      TicketCategoryStep s (.checked data) (.run now) (.emit drawTicketCategoryId)
        (.inserting (newTicketCategory data s.seq.ticketCategories))
  | lockName {category : TicketCategory} {now : Int} :
      TicketCategoryStep s (.inserting category) (.run now)
        (.lock (.ticketCategoryName category.eventId category.name)) (.keyed category)
  | insert {category : TicketCategory} {now : Int} :
      TicketCategoryStep s (.keyed category) (.run now) .stay (.inserted category)
  | commit {category : TicketCategory} {now : Int} :
      TicketCategoryStep s (.inserted category) (.run now)
        (.commit fun s => s.withDb (insertTicketCategory category)) (.finished (.ok category))
  | quits {pc : TicketCategoryPc} {a : EditAct} {result : Except AppException TicketCategory} :
      TicketCategoryStep s pc a .rollback (.finished result)

theorem ticketCategoryStep_cases {s : Store} {pc pc' : TicketCategoryPc} {a : EditAct}
    {eff : Effect Store Row} (h : ticketCategoryStep s pc a = some (eff, pc')) :
    TicketCategoryStep s pc a eff pc' := by
  fun_cases ticketCategoryStep s pc a
  all_goals simp only [ticketCategoryStep] at h
  all_goals try simp only [*, if_true] at h
  all_goals cases h
  all_goals constructor <;> assumption

inductive ModifyStep (s : Store) : ModifyPc → EditAct → Effect Store Row → ModifyPc → Prop
  | read {userId objId : Nat} {change : Change} {now : Int} {category : TicketCategory}
      (hfind : findTicketCategory s.db objId = some category) :
      ModifyStep s (.start userId objId change) (.run now) .stay
        (.categoryRead userId objId change category)
  | check {userId objId : Nat} {change : Change} {now : Int} {category : TicketCategory}
      (hguard : guardEvent s userId category.eventId now = none) :
      ModifyStep s (.categoryRead userId objId change category) (.run now) .stay
        (.checked objId change category)
  | lockRow {objId : Nat} {change : Change} {now : Int} {read category : TicketCategory}
      (hfind : findTicketCategory s.db objId = some category) :
      ModifyStep s (.checked objId change read) (.run now) (.lock (.ticketCategory objId))
        (.locking category change (change.keys category))
  | unmatched {objId : Nat} {change : Change} {now : Int} {read : TicketCategory}
      (hfind : findTicketCategory s.db objId = none) :
      ModifyStep s (.checked objId change read) (.run now) .stay .unmatched
  | lockName {category : TicketCategory} {change : Change} {key : Nat × String}
      {keys : List (Nat × String)} {now : Int} :
      ModifyStep s (.locking category change (key :: keys)) (.run now)
        (.lock (.ticketCategoryName key.1 key.2)) (.locking category change keys)
  | modify {category : TicketCategory} {change : Change} {now : Int} {new : Option TicketCategory}
      (hresult : change.result s.db category = .ok new) :
      ModifyStep s (.locking category change []) (.run now) .stay (.modified category new)
  | commit {category : TicketCategory} {new : Option TicketCategory} {now : Int} :
      ModifyStep s (.modified category new) (.run now)
        (.commit fun s => s.withDb (putTicketCategory category.id new)) (.finished (.ok true))
  | commitNothing {now : Int} :
      ModifyStep s .unmatched (.run now) (.commit id) (.finished (.ok true))
  | quits {pc : ModifyPc} {a : EditAct} {result : Except AppException Bool} :
      ModifyStep s pc a .rollback (.finished result)

theorem modifyStep_cases {s : Store} {pc pc' : ModifyPc} {a : EditAct} {eff : Effect Store Row}
    (h : modifyStep s pc a = some (eff, pc')) : ModifyStep s pc a eff pc' := by
  fun_cases modifyStep s pc a
  all_goals simp only [modifyStep] at h
  all_goals try simp only [*] at h
  all_goals cases h
  all_goals constructor <;> assumption

end TicketBooking.Catalog.Transactions
