import TicketBooking.Database.Tables
import TicketBooking.Query.Builder
import TicketBooking.Query.Comparisons
/-!
# The mapped classes of the booking system

The attributes of the ORM models, with the relationships as SQLAlchemy
configures them, and what they read on the tables.
-/

namespace TicketBooking.Database.Models

open TicketBooking.Database.Tables
open TicketBooking.Query.Builder TicketBooking.Query.Comparisons TicketBooking.Query.Filters
open TicketBooking.Query.Operators

inductive Model
  | user
  | eventCategory
  | event
  | ticketCategory
  | order
  | orderItem
  | ticket
  deriving DecidableEq, Repr

def Model.name : Model → String
  | .user => "User"
  | .eventCategory => "EventCategory"
  | .event => "Event"
  | .ticketCategory => "TicketCategory"
  | .order => "Order"
  | .orderItem => "OrderItem"
  | .ticket => "Ticket"

inductive Record
  | user (row : User)
  | eventCategory (row : EventCategory)
  | event (row : Event)
  | ticketCategory (row : TicketCategory)
  | order (row : Order)
  | orderItem (row : OrderItem)
  | ticket (row : Ticket)
  deriving DecidableEq, Repr

/-- The tables, as the queries see them. -/
abbrev Rows := TicketBooking.Query.Filters.Db Model Record

def records (db : Tables.Db) : Rows
  | .user => db.users.map .user
  | .eventCategory => db.eventCategories.map .eventCategory
  | .event => db.events.map .event
  | .ticketCategory => db.ticketCategories.map .ticketCategory
  | .order => db.orders.map .order
  | .orderItem => db.orderItems.map .orderItem
  | .ticket => db.tickets.map .ticket

/-! ## Attributes -/

def column (name : String) : Attribute Model := .column (some name)

/-- A hybrid whose expression has no name. -/
def hybrid : Attribute Model := .column none

def relationship (target : Model) (column remote : String) (uselist : Bool) : Attribute Model :=
  .relation ⟨target, [(column, remote)], [column], [remote], uselist⟩

/-- `User.events` and `User.orders` are annotated with a single object. -/
def attributes : Model → List (String × Attribute Model)
  | .user =>
      [("id", column "id"), ("email", column "email"), ("role", column "role"),
        ("is_active", column "is_active"),
        ("events", relationship .event "id" "user_id" false),
        ("orders", relationship .order "id" "user_id" false)]
  | .eventCategory =>
      [("id", column "id"), ("name", column "name"), ("parent_id", column "parent_id"),
        ("parent", relationship .eventCategory "parent_id" "id" false),
        ("children", relationship .eventCategory "id" "parent_id" true),
        ("events", relationship .event "id" "category_id" true)]
  | .event =>
      [("id", column "id"), ("title", column "title"), ("description", column "description"),
        ("user_id", column "user_id"), ("category_id", column "category_id"),
        ("state", column "state"), ("format", column "format"), ("address", column "address"),
        ("started_at", column "started_at"), ("status", hybrid),
        ("user", relationship .user "user_id" "id" false),
        ("category", relationship .eventCategory "category_id" "id" false),
        ("ticket_categories", relationship .ticketCategory "id" "event_id" true)]
  | .ticketCategory =>
      [("id", column "id"), ("event_id", column "event_id"), ("name", column "name"),
        ("price", column "price"), ("total_quantity", column "total_quantity"),
        ("occupied_count", hybrid), ("available_quantity", column "available_quantity"),
        ("event", relationship .event "event_id" "id" false),
        ("items", relationship .orderItem "id" "category_id" true)]
  | .order =>
      [("id", column "id"), ("user_id", column "user_id"),
        ("anonymous_email", column "anonymous_email"), ("status", column "status"),
        ("user", relationship .user "user_id" "id" false),
        ("items", relationship .orderItem "id" "order_id" true)]
  | .orderItem =>
      [("id", column "id"), ("order_id", column "order_id"), ("category_id", column "category_id"),
        ("quantity", column "quantity"), ("purchase_price", column "purchase_price"),
        ("order", relationship .order "order_id" "id" false),
        ("category", relationship .ticketCategory "category_id" "id" false),
        ("tickets", relationship .ticket "id" "order_item_id" true)]
  | .ticket =>
      [("id", column "id"), ("category_id", column "category_id"),
        ("order_item_id", column "order_item_id"), ("status", column "status"),
        ("category", relationship .ticketCategory "category_id" "id" false),
        ("order_item", relationship .orderItem "order_item_id" "id" false)]

/-! ## Columns -/

def ofNat (n : Nat) : Option Value := some (.int n)

def readUser (row : User) : String → Option Value
  | "id" => ofNat row.id
  | "email" => some (.text row.email)
  | "is_active" => some (.bool row.isActive)
  | "role" => some (.text (match row.role with
      | .user => "user"
      | .onVerification => "on_verification"
      | .verifiedUser => "verified_user"
      | .moderator => "moderator"
      | .admin => "admin"))
  | _ => none

def readEventCategory (row : EventCategory) : String → Option Value
  | "id" => ofNat row.id
  | "name" => some (.text row.name)
  | "parent_id" => row.parentId.bind ofNat
  | _ => none

/-- `status` compares `started_at` with the database's `now()`. -/
def readEvent (now : Int) (row : Event) : String → Option Value
  | "id" => ofNat row.id
  | "title" => some (.text row.title)
  | "description" => some (.text row.description)
  | "user_id" => ofNat row.userId
  | "category_id" => ofNat row.categoryId
  | "state" => some (.text row.state.value)
  | "format" => some (.text (match row.format with
      | .offline => "offline"
      | .online => "online"))
  | "address" => row.address.map .text
  | "started_at" => some (.time row.startedAt)
  | "status" => some (.text (row.status now).value)
  | _ => none

/-- The tickets of a category, as the hybrid expression counts them. -/
def occupied (db : Rows) (categoryId : Nat) : Nat :=
  ((db .ticket).filter fun record =>
    match record with
    | .ticket ticket => ticket.categoryId = categoryId
    | _ => false).length

def readTicketCategory (db : Rows) (row : TicketCategory) :
    String → Option Value
  | "id" => ofNat row.id
  | "event_id" => ofNat row.eventId
  | "name" => some (.text row.name)
  | "price" => some (.real row.price)
  | "total_quantity" => ofNat row.totalQuantity
  | "occupied_count" => ofNat (occupied db row.id)
  | "available_quantity" => ofNat (row.totalQuantity - occupied db row.id)
  | _ => none

def readOrder (row : Order) : String → Option Value
  | "id" => ofNat row.id
  | "user_id" => row.userId.bind ofNat
  | "anonymous_email" => row.anonymousEmail.map .text
  | "status" => some (.text row.status.value)
  | _ => none

def readOrderItem (row : OrderItem) : String → Option Value
  | "id" => ofNat row.id
  | "order_id" => ofNat row.orderId
  | "category_id" => ofNat row.categoryId
  | "quantity" => ofNat row.quantity
  | "purchase_price" => row.purchasePrice.map .real
  | _ => none

def readTicket (row : Ticket) : String → Option Value
  | "id" => ofNat row.id
  | "category_id" => ofNat row.categoryId
  | "order_item_id" => row.orderItemId.bind ofNat
  | "status" => some (.text (match row.status with
      | .reserved => "reserved"
      | .paid => "paid"
      | .checkedIn => "checked_in"
      | .blocked => "blocked"))
  | _ => none

def readRecord (now : Int) (db : Rows) (field : String) : Record → Option Value
  | .user row => readUser row field
  | .eventCategory row => readEventCategory row field
  | .event row => readEvent now row field
  | .ticketCategory row => readTicketCategory db row field
  | .order row => readOrder row field
  | .orderItem row => readOrderItem row field
  | .ticket row => readTicket row field

/-- The booking system's classes, at the instant `now`. -/
def mapping (now : Int) : Mapping Model Record Value Argument where
  schema := {
    attr := fun model field => Library.Dict.get field (attributes model)
    primaryKey := fun _ => ["id"]
    read := fun db _ field record => readRecord now db field record }
  comparison := fun op val => (compare op val).map fun test _ _ value => test value
  className := Model.name

theorem prepare_field {model : Model} {key field : String} {op : Operator} (now : Int)
    {annotations : Annotations Model Record Value Argument} (val : Argument)
    (hplain : Library.Dict.get (preparedReading key).1 annotations = none)
    (hresolved : resolvedReading key = (field, op)) (hparts : components field = [field])
    (hattr : Library.Dict.get field (attributes model) = some (column field)) :
    prepare (mapping now).schema model annotations (key, val) =
      some ⟨[], .field model field (column field), op, val⟩ := by
  have hschema : (mapping now).schema.attr model field = some (column field) := hattr
  simp only [prepare, hplain, FilterResolver.resolve, hresolved, hparts, List.dropLast,
    List.getLast_singleton, followRelations, hschema]
  rfl

abbrev ModelQuery := QueryBuilder Model Record Value Argument

def filter (model : Model) (filters : List (String × Value)) : ModelQuery where
  model := model
  filters := filters.map fun filter => (filter.1, some (.one filter.2))

end TicketBooking.Database.Models
