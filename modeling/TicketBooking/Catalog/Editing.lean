import TicketBooking.App.Exceptions
import TicketBooking.Database.Models
import TicketBooking.Library.Texts
import TicketBooking.Order.Booking
/-!
# Editing events and categories

The pieces of `EventService` and `TicketCategoryService`: the requests, the
conditions their statements test, and the rows they write.
-/

namespace TicketBooking.Catalog.Editing

open TicketBooking.App.Exceptions
open TicketBooking.Database.Models TicketBooking.Database.Tables
open TicketBooking.Library.Texts
open TicketBooking.Order.Booking
open TicketBooking.Query.Builder TicketBooking.Query.Comparisons

def eventsTable : String := "events"
def eventCategoriesTable : String := "event_categories"
def ticketCategoriesTable : String := "ticket_categories"

/-! ## Requests -/

/-- `self.address and self.address.strip()`. -/
def givesAddress (address : Option String) : Bool := address.any fun text => !isBlank text

/-- The last two fields are `validate_address_based_on_type`. -/
structure EventCreateSchema where
  categoryId : PositiveInt32
  title : String
  description : Option String
  format : EventFormat
  address : Option String
  startedAt : Int
  address_of_offline : format = .offline → givesAddress address
  address_of_online : format = .online → address = none

structure EventCategoryCreateSchema where
  name : String
  parentId : Option PositiveInt32

/-- A field of a partial model: left out, or set to a value or to null. -/
abbrev Patch (α : Type) := Option (Option α)

/-- A column that is NOT NULL after the patch; `none` is the violation. -/
def Patch.notNull {α : Type} (field : Patch α) (old : α) : Option α := field.getD (some old)

/-- `partial_model(EventCreateSchema)` lets the format be any text and keeps the
validator of the addresses, which compares it with the two values. -/
structure EventUpdateSchema where
  categoryId : Patch Nat := none
  title : Patch String := none
  description : Patch String := none
  format : Patch String := none
  address : Patch String := none
  startedAt : Patch Int := none
  address_of_offline : format = some (some "offline") → givesAddress address.join := by decide
  address_of_online : format = some (some "online") → address = some none := by decide

structure TicketCategoryCreateSchema where
  eventId : PositiveInt32
  name : String
  price : PositiveInt32
  totalQuantity : PositiveInt32

/-- The fields are annotated `Any | None`. -/
structure TicketCategoryUpdateSchema where
  name : Patch String := none
  price : Patch Rat := none
  totalQuantity : Patch Nat := none

/-! ## Event categories -/

/-- `self.uow.event_category.filter(id=..., children__has_no=True)`. -/
def leafQuery (categoryId : Nat) : ModelQuery :=
  filter .eventCategory [("id", .int categoryId), ("children__has_no", .bool true)]

def isLeafCategory (now : Int) (db : Db) (categoryId : Nat) : Except QueryError Bool :=
  ReadQueryExecutor.exists (mapping now) (leafQuery categoryId) (records db)

def categoryExists (db : Db) (id : Nat) : Bool :=
  db.eventCategories.any fun category => category.id = id

def hasEvents (db : Db) (categoryId : Nat) : Bool :=
  db.events.any fun event => event.categoryId = categoryId

theorem categoryExists_iff {db : Db} {id : Nat} :
    categoryExists db id ↔ ∃ category ∈ db.eventCategories, category.id = id := by
  simp [categoryExists]

theorem hasEvents_iff {db : Db} {categoryId : Nat} :
    hasEvents db categoryId ↔ ∃ event ∈ db.events, event.categoryId = categoryId := by
  simp [hasEvents]

/-! ## Rows -/

/-- The row of an event; `none` is the violation of NOT NULL. -/
def newEvent (data : EventCreateSchema) (userId id : Nat) : Option Event :=
  data.description.map fun description =>
    { id := id
      title := data.title
      description := description
      userId := userId
      categoryId := data.categoryId.val
      state := .draft
      format := data.format
      address := data.address
      startedAt := data.startedAt }

def newEventCategory (data : EventCategoryCreateSchema) (id : Nat) : EventCategory where
  id := id
  name := data.name
  parentId := data.parentId.map Subtype.val

def newTicketCategory (data : TicketCategoryCreateSchema) (id : Nat) : TicketCategory where
  id := id
  eventId := data.eventId.val
  name := data.name
  price := data.price.val
  totalQuantity := data.totalQuantity.val

/-- The format a text is read back as.  The column takes a member by its value
and stores its name, and stores any other text as it is. -/
def storedFormat (text : String) : Option EventFormat :=
  if text = "offline" ∨ text = "OFFLINE" then some .offline
  else if text = "online" ∨ text = "ONLINE" then some .online
  else none

/-- A row that RETURNING gives back with a format like this can be loaded. -/
def EventUpdateSchema.readable (data : EventUpdateSchema) : Bool :=
  data.format.join.all fun text => (storedFormat text).isSome

def EventUpdateSchema.newFormat (data : EventUpdateSchema) (event : Event) : Option EventFormat :=
  match data.format with
  | none => some event.format
  | some none => none
  | some (some text) => some ((storedFormat text).getD event.format)

/-- The row after the statement, if its format can be read; `none` is the
violation of NOT NULL. -/
def EventUpdateSchema.apply (data : EventUpdateSchema) (event : Event) : Option Event := do
  let title ← data.title.notNull event.title
  let description ← data.description.notNull event.description
  let categoryId ← data.categoryId.notNull event.categoryId
  let format ← data.newFormat event
  let startedAt ← data.startedAt.notNull event.startedAt
  some { event with
    title := title
    description := description
    categoryId := categoryId
    format := format
    address := data.address.getD event.address
    startedAt := startedAt }

def TicketCategoryUpdateSchema.apply (data : TicketCategoryUpdateSchema)
    (category : TicketCategory) : Option TicketCategory := do
  let name ← data.name.notNull category.name
  let price ← data.price.notNull category.price
  let totalQuantity ← data.totalQuantity.notNull category.totalQuantity
  some { category with name := name, price := price, totalQuantity := totalQuantity }

theorem EventUpdateSchema.apply_keeps {data : EventUpdateSchema} {event event' : Event}
    (h : data.apply event = some event') :
    event'.id = event.id ∧ event'.userId = event.userId ∧ event'.state = event.state := by
  simp only [EventUpdateSchema.apply, Option.bind_eq_bind, Option.bind_eq_some_iff,
    Option.some.injEq] at h
  obtain ⟨_, _, _, _, _, _, _, _, _, _, rfl⟩ := h
  exact ⟨rfl, rfl, rfl⟩

/-- The format and the address an update leaves. -/
theorem EventUpdateSchema.apply_address {data : EventUpdateSchema} {event event' : Event}
    (h : data.apply event = some event') :
    data.newFormat event = some event'.format ∧
      event'.address = data.address.getD event.address := by
  simp only [EventUpdateSchema.apply, Option.bind_eq_bind, Option.bind_eq_some_iff,
    Option.some.injEq] at h
  obtain ⟨_, _, _, _, _, _, _, hformat, _, _, rfl⟩ := h
  exact ⟨hformat, rfl⟩

theorem TicketCategoryUpdateSchema.apply_keeps {data : TicketCategoryUpdateSchema}
    {category category' : TicketCategory} (h : data.apply category = some category') :
    category'.id = category.id ∧ category'.eventId = category.eventId := by
  simp only [TicketCategoryUpdateSchema.apply, Option.bind_eq_bind, Option.bind_eq_some_iff,
    Option.some.injEq] at h
  obtain ⟨_, _, _, _, _, _, rfl⟩ := h
  exact ⟨rfl, rfl⟩

theorem newEvent_eq_some {data : EventCreateSchema} {userId id : Nat} {event : Event}
    (h : newEvent data userId id = some event) :
    event.id = id ∧ event.categoryId = data.categoryId.val ∧ event.state = .draft := by
  obtain ⟨description, -, rfl⟩ := Option.map_eq_some_iff.mp h
  exact ⟨rfl, rfl, rfl⟩

/-! ## Events by their state -/

def findEvent (db : Db) (id : Nat) : Option Event := db.events.find? fun event => event.id = id

theorem findEvent_eq_some {db : Db} {id : Nat} {event : Event}
    (h : findEvent db id = some event) : event ∈ db.events ∧ event.id = id :=
  find_eq_some h

/-- `filter(id=..., user_id=..., state=EventState.DRAFT)`. -/
def findDraft (db : Db) (id userId : Nat) : Option Event :=
  db.events.find? fun event => event.id = id ∧ event.userId = userId ∧ event.state = .draft

theorem findDraft_eq_some {db : Db} {id userId : Nat} {event : Event}
    (h : findDraft db id userId = some event) :
    event ∈ db.events ∧ event.id = id ∧ event.userId = userId ∧ event.state = .draft :=
  find_eq_some h

def ownsEvent (db : Db) (id userId : Nat) : Bool :=
  db.events.any fun event => event.id = id ∧ event.userId = userId

/-- `publish`, `cancel` and `moderate`: an UPDATE of the state from one of
`sources`, for the owner if there is one to name. -/
structure Transition where
  eventId : Nat
  userId : Option Nat
  sources : List EventState
  target : EventState
  leaves_draft : target ≠ .draft

def publish (userId eventId : Nat) : Transition :=
  ⟨eventId, some userId, [.draft], .onModeration, by decide⟩

def cancel (eventId userId : Nat) : Transition :=
  ⟨eventId, some userId, [.draft, .onModeration], .cancelled, by decide⟩

def moderate (eventId : Nat) (result : Bool) : Transition :=
  ⟨eventId, none, [.onModeration], if result then .approved else .rejected,
    by cases result <;> decide⟩

def Transition.names (t : Transition) (event : Event) : Bool :=
  event.id = t.eventId ∧ t.userId.all fun userId => event.userId = userId

theorem Transition.names_iff {t : Transition} {event : Event} :
    t.names event ↔ event.id = t.eventId ∧ ∀ userId ∈ t.userId, event.userId = userId := by
  simp [Transition.names, Option.all_eq_true]

def Transition.source (t : Transition) (db : Db) : Option Event :=
  db.events.find? fun event => t.names event ∧ event.state ∈ t.sources

theorem Transition.source_eq_some {t : Transition} {db : Db} {event : Event}
    (h : t.source db = some event) :
    event ∈ db.events ∧ t.names event ∧ event.state ∈ t.sources :=
  find_eq_some h

/-! ## Ticket categories -/

def findTicketCategory (db : Db) (id : Nat) : Option TicketCategory :=
  db.ticketCategories.find? fun category => category.id = id

theorem findTicketCategory_eq_some {db : Db} {id : Nat} {category : TicketCategory}
    (h : findTicketCategory db id = some category) :
    category ∈ db.ticketCategories ∧ category.id = id :=
  find_eq_some h

/-- The unique constraint on `(event_id, name)`, for a row other than `id`. -/
def nameTaken (db : Db) (id eventId : Nat) (name : String) : Bool :=
  db.ticketCategories.any fun category =>
    category.id ≠ id ∧ category.eventId = eventId ∧ category.name = name

/-- The rows whose foreign key RESTRICTs a delete. -/
def referenced (db : Db) (categoryId : Nat) : Bool :=
  (db.orderItems.any fun item => item.categoryId = categoryId) ||
    db.tickets.any fun ticket => ticket.categoryId = categoryId

inductive Change
  | update (data : TicketCategoryUpdateSchema)
  | delete

/-- The row after the statement, or the constraint it violates. -/
def Change.result (change : Change) (db : Db) (category : TicketCategory) :
    Except DatabaseErrorKind (Option TicketCategory) :=
  match change with
  | .delete => if referenced db category.id then .error .foreignKeyViolation else .ok none
  | .update data =>
      match data.apply category with
      | none => .error .notNullViolation
      | some new =>
          if nameTaken db new.id new.eventId new.name then .error .uniqueViolation
          else .ok (some new)

theorem Change.result_keeps {change : Change} {db : Db} {category new : TicketCategory}
    (h : change.result db category = .ok (some new)) :
    new.id = category.id ∧ new.eventId = category.eventId := by
  cases change with
  | delete =>
      unfold Change.result at h
      split_ifs at h
      cases h
  | update data =>
      unfold Change.result at h
      cases happly : data.apply category with
      | none => simp [happly] at h
      | some new' =>
          simp only [happly] at h
          split_ifs at h
          cases h
          exact TicketCategoryUpdateSchema.apply_keeps happly

/-- The index entries of `(event_id, name)` the statement writes or kills. -/
def Change.keys (change : Change) (category : TicketCategory) : List (Nat × String) :=
  match change with
  | .delete => [(category.eventId, category.name)]
  | .update data =>
      [(category.eventId, category.name), (category.eventId, data.name.join.getD category.name)]

/-! ## Writes -/

def insertEvent (event : Event) (db : Db) : Db := { db with events := db.events ++ [event] }

def insertEventCategory (category : EventCategory) (db : Db) : Db :=
  { db with eventCategories := db.eventCategories ++ [category] }

def replaceEvent (event : Event) (db : Db) : Db :=
  { db with events := db.events.map fun old => if old.id = event.id then event else old }

def setState (id : Nat) (state : EventState) (db : Db) : Db :=
  { db with
    events := db.events.map fun event =>
      if event.id = id then { event with state := state } else event }

def insertTicketCategory (category : TicketCategory) (db : Db) : Db :=
  { db with ticketCategories := db.ticketCategories ++ [category] }

/-- The row becomes `new`, or goes. -/
def putTicketCategory (id : Nat) (new : Option TicketCategory) (db : Db) : Db :=
  { db with
    ticketCategories := db.ticketCategories.filterMap fun category =>
      if category.id = id then new else some category }

end TicketBooking.Catalog.Editing
