import TicketBooking.App.Bodies
import TicketBooking.Catalog.Listing
import TicketBooking.Database.Statements
import TicketBooking.Query.Likes
import TicketBooking.Query.Mutations
import TicketBooking.Query.Selections
/-!
# The filters of the listings

The filters a listing may be asked with, the keywords they become, and what each
of them asks of a row of its table.
-/

namespace TicketBooking.App.Filters

open TicketBooking.App.Bodies (isUtc storable)
open TicketBooking.Catalog.Listing (given_append optional)
open TicketBooking.Database.Lookups TicketBooking.Database.Models TicketBooking.Database.Statements
open TicketBooking.Database.Tables (Event EventFormat Order OrderItem OrderStatus Ticket
  TicketCategory TicketStatus)
open TicketBooking.Library TicketBooking.Library.Joins
open TicketBooking.Order.Booking (PositiveInt32)
open TicketBooking.Query.Builder TicketBooking.Query.Comparisons TicketBooking.Query.Filters
open TicketBooking.Query.Likes (latin)
open TicketBooking.Query.Operators TicketBooking.Query.Selections
open TicketBooking.Views.Logs (FitsColumn)

/-! ## The requests -/

def formatValue : EventFormat → String
  | .offline => "offline"
  | .online => "online"

def ticketStatusValue : TicketStatus → String
  | .reserved => "reserved"
  | .paid => "paid"
  | .checkedIn => "checked_in"
  | .blocked => "blocked"

/-- `NonEmptyString`, stripped. -/
abbrev NonEmptyString := {s : String // s ≠ ""}

structure EventFilterParams where
  categoryId : Option PositiveInt32 := none
  titleIcontains : Option NonEmptyString := none
  format : Option EventFormat := none
  address : Option NonEmptyString := none
  startedAt : Option Int := none
  startedAtGte : Option Int := none
  startedAtLte : Option Int := none

structure UpcomingEventsFilterParams extends EventFilterParams where
  userId : Option PositiveInt32 := none

structure OrderFilterParams where
  status : Option OrderStatus := none

structure OrderItemFilterParams where
  orderId : Option PositiveInt32 := none
  orderStatus : Option OrderStatus := none
  categoryId : Option PositiveInt32 := none
  quantity : Option PositiveInt32 := none

/-- `validate_prices`. -/
abbrev PriceFilter := {n : Nat // 1 ≤ n ∧ n ≤ 100000000}

structure BaseTicketsFilterParams where
  categoryId : Option PositiveInt32 := none
  priceGte : Option PriceFilter := none
  priceLte : Option PriceFilter := none

structure TicketsFilterParams extends BaseTicketsFilterParams where
  eventId : Option PositiveInt32 := none

structure TicketsByEventFilterParams extends BaseTicketsFilterParams where
  status : Option TicketStatus := none

structure TicketCategoryFilterParams extends BaseTicketsFilterParams where
  nameIcontains : Option String := none
  availableQuantityGte : Option PositiveInt32 := none
  availableQuantityLte : Option PositiveInt32 := none

def positive (n : PositiveInt32) : Value := .int n.val

def price (n : PriceFilter) : Value := .real n.val

def EventFilterParams.specificFilters (p : EventFilterParams) : FilterDict Argument :=
  optional "category_id" positive p.categoryId ++
    optional "title__icontains" (fun s : NonEmptyString => .text s.val) p.titleIcontains ++
    optional "format" (fun format => .text (formatValue format)) p.format ++
    optional "address" (fun s : NonEmptyString => .text s.val) p.address ++
    optional "started_at" .time p.startedAt ++
    optional "started_at__gte" .time p.startedAtGte ++
    optional "started_at__lte" .time p.startedAtLte

def UpcomingEventsFilterParams.specificFilters (p : UpcomingEventsFilterParams) :
    FilterDict Argument :=
  p.toEventFilterParams.specificFilters ++ optional "user_id" positive p.userId

def OrderFilterParams.specificFilters (p : OrderFilterParams) : FilterDict Argument :=
  optional "status" (fun status => .text (OrderStatus.value status)) p.status

def OrderItemFilterParams.specificFilters (p : OrderItemFilterParams) : FilterDict Argument :=
  optional "order_id" positive p.orderId ++
    optional "order_status" (fun status => .text (OrderStatus.value status)) p.orderStatus ++
    optional "category_id" positive p.categoryId ++
    optional "quantity" positive p.quantity

def BaseTicketsFilterParams.specificFilters (p : BaseTicketsFilterParams) : FilterDict Argument :=
  optional "category_id" positive p.categoryId ++
    optional "price__gte" price p.priceGte ++
    optional "price__lte" price p.priceLte

def TicketsFilterParams.specificFilters (p : TicketsFilterParams) : FilterDict Argument :=
  p.toBaseTicketsFilterParams.specificFilters ++ optional "event_id" positive p.eventId

def TicketsByEventFilterParams.specificFilters (p : TicketsByEventFilterParams) :
    FilterDict Argument :=
  p.toBaseTicketsFilterParams.specificFilters ++
    optional "status" (fun status => .text (ticketStatusValue status)) p.status

def TicketCategoryFilterParams.specificFilters (p : TicketCategoryFilterParams) :
    FilterDict Argument :=
  p.toBaseTicketsFilterParams.specificFilters ++
    optional "name__icontains" .text p.nameIcontains ++
    optional "available_quantity__gte" positive p.availableQuantityGte ++
    optional "available_quantity__lte" positive p.availableQuantityLte

def kwarg (key : String) (value : Value) : String × Option Argument := (key, some (.one value))

/-! ## What the driver takes -/

/-- The driver encodes the value in the type of its column. -/
def encodes : Value → Bool
  | .int n => FitsColumn n
  | .text s => storable s
  | .time t => isUtc t
  | _ => true

def encodesArgument : Argument → Bool
  | .one v => encodes v
  | .many vs => vs.all encodes

def fits (filters : FilterDict Argument) : Bool :=
  (given filters).all fun filter => encodesArgument filter.2

/-- The texts have no NUL, and the times have a year in UTC. -/
def EventFilterParams.Fits (p : EventFilterParams) : Bool :=
  p.titleIcontains.all (fun text => storable text.val) &&
    p.address.all (fun address => storable address.val) && p.startedAt.all isUtc &&
    p.startedAtGte.all isUtc && p.startedAtLte.all isUtc

theorem fits_append (filters filters' : FilterDict Argument) :
    fits (filters ++ filters') = (fits filters && fits filters') := by
  unfold fits
  rw [given_append, List.all_append]

theorem fits_kwarg (key : String) (value : Value) : fits [kwarg key value] = encodes value :=
  Bool.and_true _

theorem fits_optional {α : Type} (key : String) (value : α → Value) (wanted : Option α) :
    fits (optional key value wanted) = wanted.all fun a => encodes (value a) := by
  cases wanted with
  | none => rfl
  | some a => exact fits_kwarg key (value a)

theorem encodes_text (s : String) : encodes (.text s) = storable s := rfl

theorem encodes_time (t : Int) : encodes (.time t) = isUtc t := rfl

theorem encodes_status (status : OrderStatus) : encodes (.text status.value) = true := by
  cases status <;> decide

theorem encodes_positive (n : PositiveInt32) : encodes (positive n) = true := by
  obtain ⟨n, hlow, hhigh⟩ := n
  refine decide_eq_true (show FitsColumn n from ?_)
  unfold FitsColumn
  omega

theorem all_true {α : Type} {wanted : Option α} {p : α → Bool} (h : ∀ a, p a = true) :
    wanted.all p = true := by
  cases wanted with
  | none => rfl
  | some a => exact h a

theorem fits_event (p : EventFilterParams) : fits p.specificFilters = p.Fits := by
  have hformat : ∀ format, storable (formatValue format) = true := by
    intro format
    cases format <;> decide
  unfold EventFilterParams.specificFilters EventFilterParams.Fits
  simp only [fits_append, fits_optional, all_true encodes_positive, all_true hformat,
    encodes_text, encodes_time, Bool.true_and, Bool.and_true]

theorem fits_order (p : OrderFilterParams) : fits p.specificFilters = true := by
  unfold OrderFilterParams.specificFilters
  rw [fits_optional, all_true encodes_status]

theorem fits_orderItem (p : OrderItemFilterParams) : fits p.specificFilters = true := by
  unfold OrderItemFilterParams.specificFilters
  simp only [fits_append, fits_optional, all_true encodes_status, all_true encodes_positive,
    Bool.and_true]

theorem fits_baseTickets (p : BaseTicketsFilterParams) : fits p.specificFilters = true := by
  have hprice : ∀ bound, encodes (price bound) = true := fun _ => rfl
  unfold BaseTicketsFilterParams.specificFilters
  simp only [fits_append, fits_optional, all_true encodes_positive, all_true hprice, Bool.and_true]

theorem fits_tickets (p : TicketsFilterParams) : fits p.specificFilters = true := by
  unfold TicketsFilterParams.specificFilters
  simp only [fits_append, fits_baseTickets, fits_optional, all_true encodes_positive, Bool.and_true]

theorem fits_ticketsByEvent (p : TicketsByEventFilterParams) : fits p.specificFilters = true := by
  have hstatus : ∀ status, encodes (.text (ticketStatusValue status)) = true := by
    intro status
    cases status <;> decide
  unfold TicketsByEventFilterParams.specificFilters
  simp only [fits_append, fits_baseTickets, fits_optional, all_true hstatus, Bool.and_true]

theorem fits_ticketCategory (p : TicketCategoryFilterParams) :
    fits p.specificFilters = p.nameIcontains.all storable := by
  unfold TicketCategoryFilterParams.specificFilters
  simp only [fits_append, fits_baseTickets, fits_optional, all_true encodes_positive, encodes_text,
    Bool.true_and, Bool.and_true]

/-! ## What they ask for -/

def containsText (text s : String) : Bool :=
  decide (latin.folded text.toList <:+: latin.folded s.toList)

def EventFilterParams.selects (p : EventFilterParams) (event : Event) : Bool :=
  p.categoryId.all (fun id => event.categoryId = id.val) &&
    p.titleIcontains.all (fun text => containsText text.val event.title) &&
    p.format.all (fun format => event.format = format) &&
    p.address.all (fun address => event.address = some address.val) &&
    p.startedAt.all (fun t => event.startedAt = t) &&
    p.startedAtGte.all (fun t => t ≤ event.startedAt) &&
    p.startedAtLte.all (fun t => event.startedAt ≤ t)

def UpcomingEventsFilterParams.selects (p : UpcomingEventsFilterParams) (event : Event) : Bool :=
  p.toEventFilterParams.selects event && p.userId.all fun id => event.userId = id.val

def OrderFilterParams.selects (p : OrderFilterParams) (order : Order) : Bool :=
  p.status.all fun status => order.status = status

/-- An item has no `order_status`. -/
def OrderItemFilterParams.selects (p : OrderItemFilterParams) (item : OrderItem) : Bool :=
  p.orderId.all (fun id => item.orderId = id.val) &&
    p.categoryId.all (fun id => item.categoryId = id.val) &&
    p.quantity.all fun quantity => item.quantity = quantity.val

/-- A ticket has no price. -/
def BaseTicketsFilterParams.selects (p : BaseTicketsFilterParams) (ticket : Ticket) : Bool :=
  p.categoryId.all fun id => ticket.categoryId = id.val

def TicketsByEventFilterParams.selects (p : TicketsByEventFilterParams) (ticket : Ticket) : Bool :=
  p.toBaseTicketsFilterParams.selects ticket &&
    p.status.all fun status => ticket.status = status

def available (db : Database.Tables.Db) (category : TicketCategory) : Nat :=
  category.totalQuantity -
    (db.tickets.filter fun ticket => ticket.categoryId = category.id).length

/-- A category has no `category_id`. -/
def TicketCategoryFilterParams.selects (p : TicketCategoryFilterParams)
    (db : Database.Tables.Db) (category : TicketCategory) : Bool :=
  p.priceGte.all (fun price => (price.val : Rat) ≤ category.price) &&
    p.priceLte.all (fun price => category.price ≤ (price.val : Rat)) &&
    p.nameIcontains.all (fun text => containsText text category.name) &&
    p.availableQuantityGte.all (fun n => n.val ≤ available db category) &&
    p.availableQuantityLte.all fun n => available db category ≤ n.val

def ordered (db : Database.Tables.Db) (userId orderId : Nat) : Bool :=
  db.orders.any fun order => orderId = order.id && order.userId = some userId

def bought (db : Database.Tables.Db) (userId : Nat) (ticket : Ticket) : Bool :=
  db.orderItems.any fun item =>
    ticket.orderItemId = some item.id && ordered db userId item.orderId

def soldFor (db : Database.Tables.Db) (eventId : Nat) (ticket : Ticket) : Bool :=
  db.ticketCategories.any fun category =>
    ticket.categoryId = category.id && category.eventId = eventId

/-! ## The keys of the filters -/

/-- The key, the relations and the field it says, and the operator. -/
def keys : List (String × List String × String × Operator) :=
  ["id", "state", "status", "user_id", "category_id", "format", "address", "started_at",
      "order_id", "order_status", "quantity", "event_id"].map
    (fun field => (field, [], field, .eq)) ++
  [("title__icontains", [], "title", .icontains), ("name__icontains", [], "name", .icontains),
    ("started_at__gte", [], "started_at", .gte), ("started_at__lte", [], "started_at", .lte),
    ("price__gte", [], "price", .gte), ("price__lte", [], "price", .lte),
    ("available_quantity__gte", [], "available_quantity", .gte),
    ("available_quantity__lte", [], "available_quantity", .lte),
    ("order__user_id", ["order"], "user_id", .eq),
    ("order_item__order__user_id", ["order_item", "order"], "user_id", .eq),
    ("category__event_id", ["category"], "event_id", .eq),
    ("event__status", ["event"], "status", .eq), ("event__user_id", ["event"], "user_id", .eq)]

theorem keys_read : ∀ k ∈ keys, (resolvedReading k.1).2 = k.2.2.2 ∧
    components (resolvedReading k.1).1 = k.2.1 ++ [k.2.2.1] ∧ k.1 ∉ reserved ∧
    k.2.2.2 ∈ [Operator.eq, .gte, .lte, .icontains] := by
  decide +kernel

section Keys

variable {now : Int} {db : Rows} {model owner : Model} {path : List (Step Model)}
  {key field : String} {relations : List String} {op : Operator} {name : Option String}
  {arg : Argument} {test : Option Value → Bool}

theorem prepare_key (hkey : (key, relations, field, op) ∈ keys)
    (hfollow : followRelations (mapping now).schema model relations = (path, owner)) :
    prepare (mapping now).schema model [] (key, arg) =
      (Dict.get field (attributes owner)).map fun column =>
        ⟨path, .field owner field column, op, arg⟩ := by
  obtain ⟨hop, hparts, -⟩ := keys_read _ hkey
  simp only [prepare, Dict.get, FilterResolver.resolve, hop, hparts, List.dropLast_concat,
    List.getLast_concat, hfollow]
  rfl

/-- What a filter does to the rows of a table: it names something the statement can be built
with, and lets those rows through. -/
structure Reads {α : Type} (now : Int) (db : Rows) (model : Model) (path : List (Step Model))
    (record : α → Record) (filter : String × Argument) (p : α → Bool) : Prop where
  free : filter.1 ∉ reserved
  built : ∀ c, prepare (mapping now).schema model [] filter = some c →
    c.builds (mapping now).comparison ∧ c.binds = [] ∧ (c.relations = [] ∨ c.relations = path)
  admits : ∀ x, admits (mapping now) db model filter (record x) = p x

variable {α : Type} {record : α → Record} {p : α → Bool}

theorem Reads.of_column {walk : List (Step Model)} (relations : List String) (field : String)
    (op : Operator) (hkey : (key, relations, field, op) ∈ keys)
    (hfollow : followRelations (mapping now).schema model relations = (walk, owner))
    (hattr : Dict.get field (attributes owner) = some (.column name))
    (htest : Query.Comparisons.compare op arg = some test) (hwalk : walk = [] ∨ walk = path)
    (hp : ∀ x, ((reached db (joinsOf (mapping now).schema db walk) (record x)).any fun row =>
      test (readRecord now db field row)) = p x) :
    Reads now db model path record (key, arg) p := by
  obtain ⟨-, -, hfree, hops⟩ := keys_read _ hkey
  have hprepare : prepare (mapping now).schema model [] (key, arg) =
      some ⟨walk, .field owner field (.column name), op, arg⟩ := by
    rw [prepare_key hkey hfollow, hattr]
    rfl
  have hcomparison : (mapping now).comparison op arg = some fun _ _ value => test value := by
    show (Query.Comparisons.compare op arg).map _ = _
    rw [htest]
    rfl
  refine ⟨hfree, fun c hc => ?_, fun x => ?_⟩
  · cases hprepare.symm.trans hc
    simp only [List.mem_cons, List.not_mem_nil, or_false] at hops
    rcases hops with rfl | rfl | rfl | rfl
    all_goals exact ⟨Option.isSome_iff_exists.mpr ⟨_, hcomparison⟩, rfl, hwalk⟩
  · have hbound : Clause.bound ([] : List (String × Argument))
        (⟨walk, .field owner field (.column name), op, arg⟩ :
          Clause Model Record Value Argument) = arg := by
      unfold Clause.bound
      split <;> rfl
    unfold Query.Selections.admits meets
    rw [hprepare, ← hp x]
    refine List.any_congr rfl fun row => ?_
    unfold Clause.holds
    simp only [hbound, hcomparison]
    rfl

theorem Reads.of_own (hkey : (key, [], field, op) ∈ keys)
    (hattr : Dict.get field (attributes model) = some (.column name))
    (htest : Query.Comparisons.compare op arg = some test)
    (hp : ∀ x, test (readRecord now db field (record x)) = p x) :
    Reads now db model path record (key, arg) p := by
  refine .of_column [] field op hkey rfl hattr htest (.inl rfl) fun x => ?_
  rw [← hp x]
  exact Bool.or_false _

theorem Reads.of_nothing (hkey : (key, [], field, op) ∈ keys)
    (hattr : Dict.get field (attributes model) = none) :
    Reads now db model path record (key, arg) fun _ => true := by
  obtain ⟨-, -, hfree, -⟩ := keys_read _ hkey
  have hprepare : prepare (mapping now).schema model [] (key, arg) = none := by
    rw [prepare_key hkey rfl, hattr]
    rfl
  refine ⟨hfree, fun c hc => ?_, fun x => ?_⟩
  · rw [hprepare] at hc
    cases hc
  · unfold Query.Selections.admits
    rw [hprepare]
    rfl

structure ReadsAll {α : Type} (now : Int) (db : Rows) (model : Model) (path : List (Step Model))
    (record : α → Record) (filters : FilterDict Argument) (p : α → Bool) : Prop where
  free : ∀ filter ∈ filters, filter.1 ∉ reserved
  built : ∀ filter ∈ given filters, ∀ c, prepare (mapping now).schema model [] filter = some c →
    c.builds (mapping now).comparison ∧ c.binds = [] ∧ (c.relations = [] ∨ c.relations = path)
  admits : ∀ x, ((given filters).all fun filter =>
    admits (mapping now) db model filter (record x)) = p x

variable {filters filters' : FilterDict Argument} {q : α → Bool}

theorem ReadsAll.nil : ReadsAll now db model path record [] fun _ => true :=
  ⟨List.forall_mem_nil _, List.forall_mem_nil _, fun _ => rfl⟩

theorem ReadsAll.append (h : ReadsAll now db model path record filters p)
    (h' : ReadsAll now db model path record filters' q) :
    ReadsAll now db model path record (filters ++ filters') fun x => p x && q x := by
  refine ⟨fun filter hfilter => ?_, fun filter hfilter => ?_, fun x => ?_⟩
  · exact (List.mem_append.mp hfilter).elim (h.free filter) (h'.free filter)
  · rw [given_append] at hfilter
    exact (List.mem_append.mp hfilter).elim (h.built filter) (h'.built filter)
  · rw [given_append, List.all_append, h.admits, h'.admits]

theorem ReadsAll.of_kwarg {value : Value}
    (h : Reads now db model path record (key, .one value) p) :
    ReadsAll now db model path record [kwarg key value] p := by
  refine ⟨List.forall_mem_singleton.mpr h.free, List.forall_mem_singleton.mpr h.built, fun x => ?_⟩
  exact (Bool.and_true _).trans (h.admits x)

theorem ReadsAll.of_optional {β : Type} {value : β → Value} (wanted : Option β)
    (each : β → α → Bool) (h : ∀ b, Reads now db model path record (key, .one (value b)) (each b)) :
    ReadsAll now db model path record (optional key value wanted) fun x =>
      wanted.all fun b => each b x := by
  cases wanted with
  | none => exact .nil
  | some b => exact .of_kwarg (h b)

/-- Filters on a name the class has not got. -/
theorem ReadsAll.of_nothing {β : Type} {value : β → Value} (wanted : Option β) (field : String)
    (op : Operator) (hkey : (key, [], field, op) ∈ keys)
    (hattr : Dict.get field (attributes model) = none) :
    ReadsAll now db model path record (optional key value wanted) fun _ => true := by
  cases wanted with
  | none => exact .nil
  | some b => exact .of_kwarg (.of_nothing hkey hattr)

theorem ReadsAll.congr (h : ReadsAll now db model path record filters p) (heq : ∀ x, p x = q x) :
    ReadsAll now db model path record filters q :=
  ⟨h.free, h.built, fun x => (h.admits x).trans (heq x)⟩

end Keys

/-! ## The paths -/

theorem read_id (now : Int) (db : Rows) (row : Record) :
    readRecord now db "id" row = some (.int (idOf row)) := by
  cases row <;> rfl

theorem nodup_idOf {db : Database.Tables.Db} (hkeys : PrimaryKeys db) (model : Model) :
    ((records db model).map idOf).Nodup := by
  have hmap : ∀ {α : Type} {record : α → Record} {rows : List α},
      (rows.map fun x => idOf (record x)).Nodup → ((rows.map record).map idOf).Nodup := by
    intro α record rows h
    rw [List.map_map]
    exact h
  cases model with
  | user => exact hmap hkeys.users
  | eventCategory => exact hmap hkeys.eventCategories
  | event => exact hmap hkeys.events
  | ticketCategory => exact hmap hkeys.ticketCategories
  | order => exact hmap hkeys.orders
  | orderItem => exact hmap hkeys.orderItems
  | ticket => exact hmap hkeys.tickets

theorem keyed_records {db : Database.Tables.Db} (hkeys : PrimaryKeys db) (now : Int) :
    Query.Mutations.Keyed (mapping now).schema (records db) := by
  intro model row hrow row' hrow' heq
  have hid : readRecord now (records db) "id" row = readRecord now (records db) "id" row' :=
    heq "id" (List.mem_singleton_self _)
  rw [read_id, read_id, Option.some.injEq, Value.int.injEq, Int.ofNat_inj] at hid
  exact List.inj_on_of_nodup_map (nodup_idOf hkeys model) hrow hrow' hid

def refersTo (source target : Model) (column : String) : Step Model :=
  ⟨source, ⟨target, [(column, "id")], [column], ["id"], false⟩⟩

theorem toOne_refersTo {db : Database.Tables.Db} (hkeys : PrimaryKeys db) (now : Int)
    (source target : Model) (column : String) :
    (records db target).Nodup ∧ Functional (records db)
      ((refersTo source target column).join (mapping now).schema (records db)) :=
  ⟨List.Nodup.of_map idOf (nodup_idOf hkeys target),
    Query.Mutations.functional_of_toOne (keyed_records hkeys now) fun _ hkey => hkey⟩

/-! ## What each filter asks -/

section Filters

variable {α : Type} {record : α → Record} {now : Int} {db : Rows} {model : Model}
  {path : List (Step Model)} {key field : String} {name : Option String}

theorem reads_eq (hkey : (field, [], field, .eq) ∈ keys)
    (hattr : Dict.get field (attributes model) = some (.column name)) {v : Value} {p : α → Prop}
    [DecidablePred p] (hp : ∀ x, readRecord now db field (record x) = some v ↔ p x) :
    Reads now db model path record (field, .one v) fun x => p x :=
  .of_own hkey hattr rfl fun x => decide_eq_decide.mpr (hp x)

theorem ofNat_eq {m n : Nat} : ofNat m = some (.int n) ↔ m = n := by
  unfold ofNat
  simp only [Option.some.injEq, Value.int.injEq, Int.ofNat_inj]

theorem reads_number (number : α → Nat) (hkey : (field, [], field, .eq) ∈ keys)
    (hattr : Dict.get field (attributes model) = some (.column name))
    (hread : ∀ x, readRecord now db field (record x) = ofNat (number x)) (n : Nat) :
    Reads now db model path record (field, .one (.int n)) fun x => number x = n :=
  reads_eq hkey hattr fun x => by rw [hread x, ofNat_eq]

/-- A column of ids, asked for any integer. -/
theorem reads_integer (number : α → Nat) (hkey : (field, [], field, .eq) ∈ keys)
    (hattr : Dict.get field (attributes model) = some (.column name))
    (hread : ∀ x, readRecord now db field (record x) = ofNat (number x)) (n : Int) :
    Reads now db model path record (field, .one (.int n)) fun x => number x = n :=
  reads_eq hkey hattr fun x => by
    rw [hread x, ofNat, Option.some.injEq, Value.int.injEq]

theorem reads_contains (field : String) (text : α → String)
    (hkey : (key, [], field, .icontains) ∈ keys)
    (hattr : Dict.get field (attributes model) = some (.column name))
    (hread : ∀ x, readRecord now db field (record x) = some (.text (text x))) (s : String) :
    Reads now db model path record (key, .one (.text s)) fun x => containsText s (text x) := by
  refine .of_own hkey hattr rfl fun x => ?_
  rw [hread x, Query.Likes.textMatches_eq, containsText, Bool.eq_iff_iff, decide_eq_true_iff]
  exact Query.Likes.matchesWith_iff latin _ _ (by decide)

theorem reads_gte (field : String) (value : α → Value) (hkey : (key, [], field, .gte) ∈ keys)
    (hattr : Dict.get field (attributes model) = some (.column name))
    (hread : ∀ x, readRecord now db field (record x) = some (value x)) {low : Value} {p : α → Prop}
    [DecidablePred p] (hp : ∀ x, low.lt (value x) ∨ value x = low ↔ p x) :
    Reads now db model path record (key, .one low) fun x => p x := by
  refine .of_own hkey hattr rfl fun x => ?_
  rw [hread x, Option.any_some, Bool.eq_iff_iff, Bool.or_eq_true, decide_eq_true_iff,
    decide_eq_true_iff]
  exact hp x

theorem reads_lte (field : String) (value : α → Value) (hkey : (key, [], field, .lte) ∈ keys)
    (hattr : Dict.get field (attributes model) = some (.column name))
    (hread : ∀ x, readRecord now db field (record x) = some (value x)) {high : Value}
    {p : α → Prop} [DecidablePred p] (hp : ∀ x, (value x).lt high ∨ value x = high ↔ p x) :
    Reads now db model path record (key, .one high) fun x => p x := by
  refine .of_own hkey hattr rfl fun x => ?_
  rw [hread x, Option.any_some, Bool.eq_iff_iff, Bool.or_eq_true, decide_eq_true_iff,
    decide_eq_true_iff]
  exact hp x

theorem reads_event (p : EventFilterParams) :
    ReadsAll now db .event path Record.event p.specificFilters p.selects := by
  have hformat : ∀ format (event : Event), readRecord now db "format" (.event event) =
      some (.text (formatValue format)) ↔ event.format = format := by
    intro format event
    show some (Value.text (formatValue event.format)) = _ ↔ _
    cases event.format <;> cases format <;> decide
  have haddress : ∀ (address : NonEmptyString) (event : Event),
      readRecord now db "address" (.event event) = some (.text address.val) ↔
        event.address = some address.val := by
    intro address event
    show event.address.map Value.text = _ ↔ _
    cases event.address <;> simp
  have hstarted : ∀ t (event : Event), readRecord now db "started_at" (.event event) =
      some (.time t) ↔ event.startedAt = t := by
    intro t event
    show some (Value.time event.startedAt) = _ ↔ _
    simp only [Option.some.injEq, Value.time.injEq]
  have hle : ∀ s t : Int, (Value.time s).lt (.time t) ∨ s = t ↔ s ≤ t := by
    intro s t
    simp only [Value.lt, decide_eq_true_eq]
    omega
  unfold EventFilterParams.specificFilters
  refine .congr (.append (.append (.append (.append (.append (.append
    (.of_optional p.categoryId (fun id (event : Event) => event.categoryId = id.val) fun id =>
      reads_number Event.categoryId (by simp [keys]) rfl (fun _ => rfl) id.val)
    (.of_optional p.titleIcontains (fun text (event : Event) => containsText text.val event.title)
      fun text => reads_contains "title" Event.title (by simp [keys]) rfl (fun _ => rfl) text.val))
    (.of_optional p.format (fun format (event : Event) => event.format = format) fun format =>
      reads_eq (by simp [keys]) rfl (hformat format)))
    (.of_optional p.address (fun address (event : Event) => event.address = some address.val)
      fun address => reads_eq (by simp [keys]) rfl (haddress address)))
    (.of_optional p.startedAt (fun t (event : Event) => event.startedAt = t) fun t =>
      reads_eq (by simp [keys]) rfl (hstarted t)))
    (.of_optional p.startedAtGte (fun t (event : Event) => t ≤ event.startedAt) fun t =>
      reads_gte "started_at" (fun event => .time event.startedAt) (by simp [keys]) rfl
        (fun _ => rfl) fun event => ?_))
    (.of_optional p.startedAtLte (fun t (event : Event) => event.startedAt ≤ t) fun t =>
      reads_lte "started_at" (fun event => .time event.startedAt) (by simp [keys]) rfl
        (fun _ => rfl) fun event => ?_)) fun event => rfl
  · rw [Value.time.injEq, eq_comm (a := event.startedAt), hle]
  · rw [Value.time.injEq, hle]

theorem reads_upcoming (p : UpcomingEventsFilterParams) :
    ReadsAll now db .event path Record.event p.specificFilters p.selects :=
  .append (reads_event p.toEventFilterParams)
    (.of_optional p.userId (fun id (event : Event) => event.userId = id.val) fun id =>
      reads_number Event.userId (by simp [keys]) rfl (fun _ => rfl) id.val)

theorem reads_order (p : OrderFilterParams) :
    ReadsAll now db .order path Record.order p.specificFilters p.selects := by
  have hstatus : ∀ status (order : Order), readRecord now db "status" (.order order) =
      some (.text status.value) ↔ order.status = status := by
    intro status order
    show some (Value.text order.status.value) = _ ↔ _
    cases order.status <;> cases status <;> decide
  exact .of_optional p.status (fun status (order : Order) => order.status = status) fun status =>
    reads_eq (by simp [keys]) rfl (hstatus status)

theorem reads_orderItem (p : OrderItemFilterParams) :
    ReadsAll now db .orderItem path Record.orderItem p.specificFilters p.selects := by
  refine .congr (.append (.append (.append
    (.of_optional p.orderId (fun id (item : OrderItem) => item.orderId = id.val) fun id =>
      reads_number OrderItem.orderId (by simp [keys]) rfl (fun _ => rfl) id.val)
    (.of_nothing p.orderStatus "order_status" .eq (by simp [keys]) rfl))
    (.of_optional p.categoryId (fun id (item : OrderItem) => item.categoryId = id.val) fun id =>
      reads_number OrderItem.categoryId (by simp [keys]) rfl (fun _ => rfl) id.val))
    (.of_optional p.quantity (fun n (item : OrderItem) => item.quantity = n.val) fun n =>
      reads_number OrderItem.quantity (by simp [keys]) rfl (fun _ => rfl) n.val)) fun item => ?_
  rw [Bool.and_true]
  rfl

theorem reads_baseTickets (p : BaseTicketsFilterParams) :
    ReadsAll now db .ticket path Record.ticket p.specificFilters p.selects := by
  refine .congr (.append (.append
    (.of_optional p.categoryId (fun id (ticket : Ticket) => ticket.categoryId = id.val) fun id =>
      reads_number Ticket.categoryId (by simp [keys]) rfl (fun _ => rfl) id.val)
    (.of_nothing p.priceGte "price" .gte (by simp [keys]) rfl))
    (.of_nothing p.priceLte "price" .lte (by simp [keys]) rfl)) fun ticket => ?_
  rw [Bool.and_true, Bool.and_true]
  rfl

theorem reads_tickets (p : TicketsFilterParams) :
    ReadsAll now db .ticket path Record.ticket p.specificFilters
      p.toBaseTicketsFilterParams.selects := by
  refine .congr (.append (reads_baseTickets p.toBaseTicketsFilterParams)
    (.of_nothing p.eventId "event_id" .eq (by simp [keys]) rfl)) fun ticket => ?_
  exact Bool.and_true _

theorem reads_ticketsByEvent (p : TicketsByEventFilterParams) :
    ReadsAll now db .ticket path Record.ticket p.specificFilters p.selects := by
  have hstatus : ∀ status (ticket : Ticket), readRecord now db "status" (.ticket ticket) =
      some (.text (ticketStatusValue status)) ↔ ticket.status = status := by
    intro status ticket
    show some (Value.text (ticketStatusValue ticket.status)) = _ ↔ _
    cases ticket.status <;> cases status <;> decide
  exact .append (reads_baseTickets p.toBaseTicketsFilterParams)
    (.of_optional p.status (fun status (ticket : Ticket) => ticket.status = status) fun status =>
      reads_eq (by simp [keys]) rfl (hstatus status))

theorem read_available (db : Database.Tables.Db) (category : TicketCategory) :
    readRecord now (records db) "available_quantity" (.ticketCategory category) =
      some (.int (available db category)) := by
  have hcount : occupied (records db) category.id =
      (db.tickets.filter fun ticket => ticket.categoryId = category.id).length := by
    show ((db.tickets.map Record.ticket).filter _).length = _
    rw [List.filter_map, List.length_map]
    rfl
  show some (Value.int ↑(category.totalQuantity - occupied (records db) category.id)) = _
  rw [hcount]
  rfl

theorem reads_ticketCategory (db : Database.Tables.Db) (p : TicketCategoryFilterParams) :
    ReadsAll now (records db) .ticketCategory path Record.ticketCategory p.specificFilters
      (p.selects db) := by
  have hint : ∀ m n : Nat, (Value.int m).lt (.int n) ∨ m = n ↔ m ≤ n := by
    intro m n
    simp only [Value.lt, decide_eq_true_eq]
    omega
  have hreal : ∀ x y : Rat, (Value.real x).lt (.real y) ∨ x = y ↔ x ≤ y := by
    intro x y
    simp only [Value.lt, decide_eq_true_eq]
    exact Rat.le_iff_lt_or_eq.symm
  refine .congr (.append (.append (.append (.append (.append
    (.of_nothing p.categoryId "category_id" .eq (by simp [keys]) rfl)
    (.of_optional p.priceGte (fun bound category => (bound.val : Rat) ≤ category.price) fun bound =>
      reads_gte "price" (fun category => .real category.price) (by simp [keys]) rfl
        (fun _ => rfl) fun category => ?_))
    (.of_optional p.priceLte (fun bound category => category.price ≤ (bound.val : Rat)) fun bound =>
      reads_lte "price" (fun category => .real category.price) (by simp [keys]) rfl
        (fun _ => rfl) fun category => ?_))
    (.of_optional p.nameIcontains (fun text category => containsText text category.name)
      fun text => reads_contains "name" TicketCategory.name (by simp [keys]) rfl
        (fun _ => rfl) text))
    (.of_optional p.availableQuantityGte (fun n category => n.val ≤ available db category) fun n =>
      reads_gte "available_quantity" (fun category => .int (available db category))
        (by simp [keys]) rfl (read_available db) fun category => ?_))
    (.of_optional p.availableQuantityLte (fun n category => available db category ≤ n.val) fun n =>
      reads_lte "available_quantity" (fun category => .int (available db category))
        (by simp [keys]) rfl (read_available db) fun category => ?_)) fun category => ?_
  · rw [price, Value.real.injEq, eq_comm (a := category.price), hreal]
  · rw [price, Value.real.injEq, hreal]
  · rw [positive, Value.int.injEq, Int.ofNat_inj, eq_comm (a := available db category), hint]
  · rw [positive, Value.int.injEq, Int.ofNat_inj, hint]
  · rw [Bool.true_and]
    rfl

/-! ## Filters on related rows -/

theorem any_reached_cons {j : Join Model Record} {joins : List (Join Model Record)} {x : Record}
    (f : Record → Bool) : (reached db (j :: joins) x).any f =
      (db j.target).any fun y => j.on x y && (reached db joins y).any f := by
  rw [reached, List.any_flatMap, List.any_filter]

theorem on_refersTo (source target : Model) (column : String) (x y : Record) :
    ((refersTo source target column).join (mapping now).schema db).on x y =
      decide (readRecord now db column x = some (.int (idOf y))) := by
  rw [Bool.eq_iff_iff, decide_eq_true_iff]
  refine sameColumns_iff.trans ?_
  have hread : (mapping now).schema.read db target "id" y = some (.int (idOf y)) := read_id now db y
  rw [refersTo, List.forall_mem_singleton, hread]
  constructor
  · rintro ⟨value, hvalue, heq⟩
    exact hvalue.trans heq.symm
  · exact fun h => ⟨_, h, rfl⟩

theorem bind_ofNat {wanted : Option Nat} {n : Nat} :
    wanted.bind ofNat = some (.int n) ↔ wanted = some n := by
  cases wanted with
  | none => simp
  | some m => rw [Option.bind_some, ofNat_eq, Option.some.injEq]

end Filters

section Related

variable (now : Int) {db : Database.Tables.Db}

def itemOrder : Step Model := refersTo .orderItem .order "order_id"
def ticketItem : Step Model := refersTo .ticket .orderItem "order_item_id"
def ticketCategory : Step Model := refersTo .ticket .ticketCategory "category_id"
def categoryEvent : Step Model := refersTo .ticketCategory .event "event_id"

theorem decide_ofNat (m n : Nat) : decide (ofNat m = some (.int n)) = decide (m = n) :=
  decide_eq_decide.mpr ofNat_eq

theorem decide_bind_ofNat (wanted : Option Nat) (n : Nat) :
    decide (wanted.bind ofNat = some (.int n)) = decide (wanted = some n) :=
  decide_eq_decide.mpr bind_ofNat

theorem any_order (item : OrderItem) (userId : Nat) :
    ((reached (records db) (joinsOf (mapping now).schema (records db) [itemOrder])
        (.orderItem item)).any fun row =>
      decide (readRecord now (records db) "user_id" row = some (.int userId))) =
      ordered db userId item.orderId := by
  rw [joinsOf, List.map_cons, any_reached_cons]
  show (db.orders.map Record.order).any _ = _
  rw [List.any_map]
  refine List.any_congr rfl fun order => ?_
  rw [Function.comp_apply, itemOrder, on_refersTo]
  show (decide (ofNat item.orderId = some (.int order.id)) &&
    (decide (order.userId.bind ofNat = some (.int userId)) || false)) = _
  rw [Bool.or_false, decide_ofNat, decide_bind_ofNat]

theorem any_ticketOrder (ticket : Ticket) (userId : Nat) :
    ((reached (records db) (joinsOf (mapping now).schema (records db) [ticketItem, itemOrder])
        (.ticket ticket)).any fun row =>
      decide (readRecord now (records db) "user_id" row = some (.int userId))) =
      bought db userId ticket := by
  rw [joinsOf, List.map_cons, any_reached_cons]
  show (db.orderItems.map Record.orderItem).any _ = _
  rw [List.any_map]
  refine List.any_congr rfl fun item => ?_
  rw [Function.comp_apply, ticketItem, on_refersTo, ← any_order now item userId]
  show (decide (ticket.orderItemId.bind ofNat = some (.int item.id)) && _) = _
  rw [decide_bind_ofNat]
  rfl

theorem any_ticketCategory (ticket : Ticket) (eventId : Nat) :
    ((reached (records db) (joinsOf (mapping now).schema (records db) [ticketCategory])
        (.ticket ticket)).any fun row =>
      decide (readRecord now (records db) "event_id" row = some (.int eventId))) =
      soldFor db eventId ticket := by
  rw [joinsOf, List.map_cons, any_reached_cons]
  show (db.ticketCategories.map Record.ticketCategory).any _ = _
  rw [List.any_map]
  refine List.any_congr rfl fun category => ?_
  rw [Function.comp_apply, ticketCategory, on_refersTo]
  show (decide (ofNat ticket.categoryId = some (.int category.id)) &&
    (decide (ofNat category.eventId = some (.int eventId)) || false)) = _
  rw [Bool.or_false, decide_ofNat, decide_ofNat]

theorem any_categoryEvent (category : TicketCategory) {test : Record → Bool}
    {scope : Event → Bool} (h : ∀ event, test (.event event) = scope event) :
    ((reached (records db) (joinsOf (mapping now).schema (records db) [categoryEvent])
        (.ticketCategory category)).any test) =
      db.events.any fun event => category.eventId = event.id && scope event := by
  rw [joinsOf, List.map_cons, any_reached_cons]
  show (db.events.map Record.event).any _ = _
  rw [List.any_map]
  refine List.any_congr rfl fun event => ?_
  rw [Function.comp_apply, categoryEvent, on_refersTo, ← h event]
  show (decide (ofNat category.eventId = some (.int event.id)) &&
    (test (.event event) || false)) = _
  rw [Bool.or_false, decide_ofNat]

end Related

end TicketBooking.App.Filters
