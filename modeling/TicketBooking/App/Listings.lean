import Mathlib.Data.Set.List
import TicketBooking.App.Filters
import TicketBooking.Query.Pages
import TicketBooking.Users.Ownership
/-!
# The listings

The paginated listings of events, orders, order items, tickets and ticket
categories: the queries they make, the rows a page is cut from, and what the
response schemas make of them.
-/

namespace TicketBooking.App.Listings

open TicketBooking.App.Bodies (storable)
open TicketBooking.App.Exceptions (AppException)
open TicketBooking.App.Filters
open TicketBooking.Catalog.Editing (eventsTable)
open TicketBooking.Catalog.Transactions (eventNotFound)
open TicketBooking.Database.Lookups TicketBooking.Database.Models TicketBooking.Database.Statements
open TicketBooking.Database.Tables (Event EventState EventStatus Order OrderItem Ticket
  TicketCategory)
open TicketBooking.Library TicketBooking.Library.Joins
open TicketBooking.Order.Routes (OrderItemResponse OrderResponse orderResponse)
open TicketBooking.Query.Builder TicketBooking.Query.Comparisons TicketBooking.Query.Filters
open TicketBooking.Query.Matching (fetch_eq_ok mem_prepareFilters)
open TicketBooking.Query.PageCounts (PaginationParams unique_of_nodup)
open TicketBooking.Query.Pages (pageOf)
open TicketBooking.Query.Selections
open TicketBooking.Query.Sorting (PaginatedResponse paginateRaw)
open TicketBooking.Users.Ownership (EventResponse eventResponse)
open TicketBooking.Views.Logs (FitsColumn)
open TicketBooking.Views.Mixins (driverFailure)

/-! ## The queries -/

/-- What one listing reads: the tables at an instant, in the order the database
answers this query in, and the view counters `get_views` answers with.  Ids are
INTEGERs. -/
structure Snapshot where
  now : Int
  db : Database.Tables.Db
  arrange : List Record → List Record
  views : Nat → Nat
  keys : PrimaryKeys db
  ids : ∀ model, ∀ row ∈ records db model, FitsColumn (idOf row)
  arranges : ∀ rows, (arrange rows).Perm rows

/-- The statement of the filters can be sent with their values. -/
def bindable (now : Int) (model : Model) (filters : FilterDict Argument) : Bool :=
  (selectClauses (mapping now) { model := model, filters := filters }).all fun c =>
    encodesArgument c.val

/-- An OFFSET is a BIGINT. -/
def FitsOffset (offset : Nat) : Prop := offset ≤ 9223372036854775807

instance (offset : Nat) : Decidable (FitsOffset offset) := inferInstanceAs (Decidable (_ ≤ _))

/-- `repo.filter(**filters).order_by(order_by).paginate(offset=offset, limit=limit)`. -/
def paginate (r : Snapshot) (model : Model) (filters : FilterDict Argument)
    (params : PaginationParams) : Except AppException (List Record × Nat) :=
  match fetch (mapping r.now) { model := model, filters := filters } (records r.db) with
  | .error e => .error (raised e)
  | .ok rows =>
      if bindable r.now model filters ∧ FitsOffset params.offset then
        .ok (pageOf (r.arrange rows) params.offset params.limit)
      else .error driverFailure

def rowExists (r : Snapshot) (model : Model) (filters : FilterDict Argument) :
    Except AppException Bool :=
  match ReadQueryExecutor.exists (mapping r.now) { model := model, filters := filters }
      (records r.db) with
  | .error e => .error (raised e)
  | .ok there => if bindable r.now model filters then .ok there else .error driverFailure

/-- pydantic's `ValidationError` is a `ValueError`; its report is left out. -/
def validationError : AppException := .valueError ""

/-- `self._paginate(schema=..., items=items, total_items=count, limit=limit)`; `response`
is what the schema makes of a row, if it takes it. -/
def respond {α : Type} (response : Record → Option α) (params : PaginationParams)
    (page : List Record × Nat) : Except AppException (PaginatedResponse α) :=
  match page.1.mapM response with
  | some results => .ok (paginateRaw results page.2 params.limit)
  | none => .error validationError

section Services

variable (r : Snapshot) (params : PaginationParams)

/-- `EventDTO` has no views of its own. -/
def bareEvent : Record → Option EventResponse
  | .event event => some (eventResponse r.now event 0)
  | _ => none

/-- `_enrich_with_views`. -/
def viewedEvent : Record → Option EventResponse
  | .event event => some (eventResponse r.now event (r.views event.id))
  | _ => none

def EventService.getForModeration (p : EventFilterParams) :
    Except AppException (PaginatedResponse EventResponse) :=
  (paginate r .event (kwarg "state" (.text EventState.onModeration.value) :: p.specificFilters)
    params).bind (respond (bareEvent r) params)

def EventService.getAllPublic (p : UpcomingEventsFilterParams) :
    Except AppException (PaginatedResponse EventResponse) :=
  (paginate r .event (kwarg "status" (.text EventStatus.upcoming.value) :: p.specificFilters)
    params).bind (respond (viewedEvent r) params)

def EventService.getAllByUserId (userId : Nat) (p : EventFilterParams) :
    Except AppException (PaginatedResponse EventResponse) :=
  (paginate r .event (kwarg "user_id" (.int userId) :: p.specificFilters) params).bind
    (respond (viewedEvent r) params)

/-- The items are loaded with the order.  `check_order_owner`: the order of a user has no
address for `EmailStr` to look at. -/
def orderShown : Record → Option OrderResponse
  | .order order =>
      some (orderResponse order (r.db.orderItems.filter fun item => item.orderId = order.id))
  | _ => none

def OrderService.getAllByUserId (userId : Nat) (p : OrderFilterParams) :
    Except AppException (PaginatedResponse OrderResponse) :=
  (paginate r .order (kwarg "user_id" (.int userId) :: p.specificFilters) params).bind
    (respond (orderShown r) params)

def orderItemResponse (item : OrderItem) : OrderItemResponse :=
  ⟨item.id, item.categoryId, item.quantity, item.orderId⟩

def orderItemShown : Record → Option OrderItemResponse
  | .orderItem item => some (orderItemResponse item)
  | _ => none

def OrderService.getAllItemsByUserId (userId : Nat) (p : OrderItemFilterParams) :
    Except AppException (PaginatedResponse OrderItemResponse) :=
  (paginate r .orderItem (kwarg "order__user_id" (.int userId) :: p.specificFilters) params).bind
    (respond orderItemShown params)

/-- `TicketResponseSchema` shows the id. -/
def ticketShown : Record → Option Nat
  | .ticket ticket => some ticket.id
  | _ => none

def TicketService.getAllByUserId (userId : Nat) (p : TicketsFilterParams) :
    Except AppException (PaginatedResponse Nat) :=
  (paginate r .ticket (kwarg "order_item__order__user_id" (.int userId) :: p.specificFilters)
    params).bind (respond ticketShown params)

def TicketService.getAllByEventId (userId eventId : Nat) (p : TicketsByEventFilterParams) :
    Except AppException (PaginatedResponse Nat) :=
  if ¬ FitsColumn eventId then .error driverFailure
  else
    match repositoryGet r.now r.db .event [("id", .int eventId)] with
    | .error e => .error e
    | .ok (some (.event event)) =>
        if event.userId ≠ userId then .error (eventNotFound eventId)
        else
          (paginate r .ticket (kwarg "category__event_id" (.int eventId) :: p.specificFilters)
            params).bind (respond ticketShown params)
    | .ok _ => .error (eventNotFound eventId)

/-- `TicketCategoryResponseSchema`; an `int` is taken from a float that is whole and less
than 2 ^ 63. -/
structure TicketCategoryResponse where
  id : Nat
  eventId : Nat
  name : String
  price : Nat
  eventId_pos : 0 < eventId
  name_length : 1 ≤ name.length ∧ name.length ≤ 255
  price_pos : 0 < price
  price_lt : price < 9223372036854775808
  deriving DecidableEq, Repr

def ticketCategoryResponse (category : TicketCategory) : Option TicketCategoryResponse :=
  let price := category.price.num.toNat
  if h : category.price = price ∧ 0 < category.eventId ∧
      (1 ≤ category.name.length ∧ category.name.length ≤ 255) ∧ 0 < price ∧
        price < 9223372036854775808 then
    some ⟨category.id, category.eventId, category.name, price, h.2.1, h.2.2.1, h.2.2.2.1,
      h.2.2.2.2⟩
  else none

def ticketCategoryShown : Record → Option TicketCategoryResponse
  | .ticketCategory category => ticketCategoryResponse category
  | _ => none

/-- The id in the path is any integer. -/
def noSuchEvent : Int → AppException
  | .ofNat eventId => eventNotFound eventId
  | eventId => .objectNotFound eventsTable (.text (toString eventId))

/-- An empty page asks whether there is such an event. -/
def listedOf (eventId : Int) (event filters : FilterDict Argument) :
    Except AppException (PaginatedResponse TicketCategoryResponse) :=
  match paginate r .ticketCategory filters params with
  | .error e => .error e
  | .ok (items, count) =>
      if count = 0 then
        match rowExists r .event event with
        | .error e => .error e
        | .ok true => respond ticketCategoryShown params (items, count)
        | .ok false => .error (noSuchEvent eventId)
      else respond ticketCategoryShown params (items, count)

def TicketCategoryService.getAllByEventIdPublic (eventId : Int) (p : TicketCategoryFilterParams) :
    Except AppException (PaginatedResponse TicketCategoryResponse) :=
  listedOf r params eventId
    [kwarg "id" (.int eventId), kwarg "status" (.text EventStatus.upcoming.value)]
    (p.specificFilters ++
      [kwarg "event_id" (.int eventId), kwarg "event__status" (.text EventStatus.upcoming.value)])

def TicketCategoryService.getAllByEventId (eventId : Int) (userId : Nat)
    (p : TicketCategoryFilterParams) :
    Except AppException (PaginatedResponse TicketCategoryResponse) :=
  listedOf r params eventId [kwarg "id" (.int eventId), kwarg "user_id" (.int userId)]
    (p.specificFilters ++ [kwarg "event_id" (.int eventId), kwarg "event__user_id" (.int userId)])

end Services

/-! ## What they are to list -/

inductive ListingCall
  | eventsForModeration (p : EventFilterParams)
  | publicEvents (p : UpcomingEventsFilterParams)
  | eventsOfUser (userId : Nat) (p : EventFilterParams)
  | ordersOfUser (userId : Nat) (p : OrderFilterParams)
  | orderItemsOfUser (userId : Nat) (p : OrderItemFilterParams)
  | ticketsOfUser (userId : Nat) (p : TicketsFilterParams)
  | ticketsOfEvent (userId eventId : Nat) (p : TicketsByEventFilterParams)
  | publicTicketCategories (eventId : Int) (p : TicketCategoryFilterParams)
  | ticketCategoriesOfUser (eventId : Int) (userId : Nat) (p : TicketCategoryFilterParams)

inductive Shown
  | event (response : EventResponse)
  | order (response : OrderResponse)
  | orderItem (response : OrderItemResponse)
  | ticket (id : Nat)
  | ticketCategory (response : TicketCategoryResponse)
  deriving DecidableEq, Repr

def showAs {α : Type} (f : α → Shown) (response : PaginatedResponse α) : PaginatedResponse Shown :=
  ⟨response.count, response.maxPages, response.results.map f⟩

def ListingCall.serve (r : Snapshot) (params : PaginationParams) :
    ListingCall → Except AppException (PaginatedResponse Shown)
  | .eventsForModeration p => (EventService.getForModeration r params p).map (showAs .event)
  | .publicEvents p => (EventService.getAllPublic r params p).map (showAs .event)
  | .eventsOfUser userId p => (EventService.getAllByUserId r params userId p).map (showAs .event)
  | .ordersOfUser userId p => (OrderService.getAllByUserId r params userId p).map (showAs .order)
  | .orderItemsOfUser userId p =>
      (OrderService.getAllItemsByUserId r params userId p).map (showAs .orderItem)
  | .ticketsOfUser userId p => (TicketService.getAllByUserId r params userId p).map (showAs .ticket)
  | .ticketsOfEvent userId eventId p =>
      (TicketService.getAllByEventId r params userId eventId p).map (showAs .ticket)
  | .publicTicketCategories eventId p =>
      (TicketCategoryService.getAllByEventIdPublic r params eventId p).map (showAs .ticketCategory)
  | .ticketCategoriesOfUser eventId userId p =>
      (TicketCategoryService.getAllByEventId r params eventId userId p).map
        (showAs .ticketCategory)

def ListingCall.asksFor (r : Snapshot) : ListingCall → Option (Int × (Event → Bool))
  | .ticketsOfEvent userId eventId _ => some (eventId, fun event => event.userId = userId)
  | .publicTicketCategories eventId _ => some (eventId, fun event => event.status r.now = .upcoming)
  | .ticketCategoriesOfUser eventId userId _ => some (eventId, fun event => event.userId = userId)
  | _ => none

/-- The exception of a listing whose event is not there for the caller. -/
def ListingCall.refusal (r : Snapshot) (call : ListingCall) : Option AppException :=
  (call.asksFor r).bind fun (eventId, scope) =>
    if r.db.events.any fun event => event.id = eventId && scope event then none
    else some (noSuchEvent eventId)

/-- The rows a listing is for, as the response schema shows them, if it takes them. -/
def ListingCall.matching (r : Snapshot) : ListingCall → List (Option Shown)
  | .eventsForModeration p =>
      (r.db.events.filter fun event => event.state = .onModeration && p.selects event).map
        fun event => some (.event (eventResponse r.now event 0))
  | .publicEvents p =>
      (r.db.events.filter fun event => event.status r.now = .upcoming && p.selects event).map
        fun event => some (.event (eventResponse r.now event (r.views event.id)))
  | .eventsOfUser userId p =>
      (r.db.events.filter fun event => event.userId = userId && p.selects event).map
        fun event => some (.event (eventResponse r.now event (r.views event.id)))
  | .ordersOfUser userId p =>
      (r.db.orders.filter fun order => order.userId = some userId && p.selects order).map
        fun order => some (.order (orderResponse order
          (r.db.orderItems.filter fun item => item.orderId = order.id)))
  | .orderItemsOfUser userId p =>
      (r.db.orderItems.filter fun item => ordered r.db userId item.orderId && p.selects item).map
        fun item => some (.orderItem (orderItemResponse item))
  | .ticketsOfUser userId p =>
      (r.db.tickets.filter fun ticket => bought r.db userId ticket && p.selects ticket).map
        fun ticket => some (.ticket ticket.id)
  | .ticketsOfEvent _ eventId p =>
      (r.db.tickets.filter fun ticket => soldFor r.db eventId ticket && p.selects ticket).map
        fun ticket => some (.ticket ticket.id)
  | .publicTicketCategories eventId p =>
      (r.db.ticketCategories.filter fun category =>
          p.selects r.db category && category.eventId = eventId).map
        fun category => (ticketCategoryResponse category).map .ticketCategory
  | .ticketCategoriesOfUser eventId _ p =>
      (r.db.ticketCategories.filter fun category =>
          p.selects r.db category && category.eventId = eventId).map
        fun category => (ticketCategoryResponse category).map .ticketCategory

def ListingCall.Fits : ListingCall → Prop
  | .eventsForModeration p => p.Fits
  | .publicEvents p => p.toEventFilterParams.Fits
  | .eventsOfUser userId p => FitsColumn userId ∧ p.Fits
  | .ordersOfUser userId _ => FitsColumn userId
  | .orderItemsOfUser userId _ => FitsColumn userId
  | .ticketsOfUser userId _ => FitsColumn userId
  | .ticketsOfEvent _ eventId _ => FitsColumn eventId
  | .publicTicketCategories eventId p => FitsColumn eventId ∧ p.nameIcontains.all storable
  | .ticketCategoriesOfUser eventId userId p =>
      FitsColumn eventId ∧ FitsColumn userId ∧ p.nameIcontains.all storable

/-! ## One listing -/

/-- A page of the rows in this order; behind the last one the total is zero. -/
def pageShown (arranged : List (Option Shown)) (params : PaginationParams) :
    Except AppException (PaginatedResponse Shown) :=
  match ((arranged.drop params.offset).take params.limit).mapM id with
  | some results => .ok (paginateRaw results
      (if arranged.length ≤ params.offset then 0 else arranged.length) params.limit)
  | none => .error validationError

section OneTable

variable {α β : Type} {T : Table α} {r : Snapshot} {path : List (Step Model)}
  {filters : FilterDict Argument} {p : α → Bool} {params : PaginationParams}

theorem bindable_of_fits {now : Int} {model : Model} (h : fits filters) :
    bindable now model filters := by
  refine List.all_eq_true.mpr fun c hc => ?_
  obtain ⟨filter, hfilter, hprepare⟩ := mem_prepareFilters.mp hc
  have hval : c.val = filter.2 := by
    unfold prepare at hprepare
    dsimp only [Dict.get] at hprepare
    obtain ⟨column, -, rfl⟩ := Option.map_eq_some_iff.mp hprepare
    rfl
  rw [hval]
  exact List.all_eq_true.mp h filter hfilter

/-- The rows that are arranged are those the filters let through, each once. -/
theorem fetch_table (hreads : ReadsAll r.now (records r.db) T.model path T.record filters p)
    (hdistinct : (T.model :: path.map fun step => step.relation.target).Nodup)
    (htoOne : ∀ step ∈ path, ∃ source target column, step = refersTo source target column) :
    fetch (mapping r.now) { model := T.model, filters := filters } (records r.db) =
      .ok (((T.rows r.db).filter p).map T.record) := by
  have honPath : OnPath (mapping r.now) (records r.db)
      { model := T.model, filters := filters } path := by
    refine ⟨rfl, rfl, hreads.free, hreads.built, hdistinct, fun step hstep => ?_⟩
    obtain ⟨source, target, column, rfl⟩ := htoOne step hstep
    exact toOne_refersTo r.keys r.now source target column
  rw [honPath.fetch]
  refine congrArg Except.ok ?_
  rw [T.records_eq, List.filter_map]
  exact congrArg _ (List.filter_congr fun x _ => hreads.admits x)

theorem paginate_table (hreads : ReadsAll r.now (records r.db) T.model path T.record filters p)
    (hdistinct : (T.model :: path.map fun step => step.relation.target).Nodup)
    (htoOne : ∀ step ∈ path, ∃ source target column, step = refersTo source target column)
    (hnodup : (T.rows r.db).Nodup) :
    ∃ arranged : List α, arranged.Perm ((T.rows r.db).filter p) ∧
      ∀ params : PaginationParams, paginate r T.model filters params =
        if bindable r.now T.model filters ∧ FitsOffset params.offset then
          .ok (((arranged.drop params.offset).take params.limit).map T.record,
            if arranged.length ≤ params.offset then 0 else arranged.length)
        else .error driverFailure := by
  have hperm := r.arranges (((T.rows r.db).filter p).map T.record)
  obtain ⟨arranged, harranged⟩ : r.arrange (((T.rows r.db).filter p).map T.record) ∈
      Set.range (List.map T.record) := by
    rw [Set.range_list_map]
    intro row hrow
    obtain ⟨x, -, rfl⟩ := List.mem_map.mp (hperm.mem_iff.mp hrow)
    exact ⟨x, rfl⟩
  rw [← harranged, List.map_perm_map_iff T.record_inj] at hperm
  have hrows : (arranged.map T.record).Nodup :=
    (hperm.nodup_iff.mpr (hnodup.filter p)).map T.record_inj
  refine ⟨arranged, hperm, fun params => ?_⟩
  unfold paginate
  rw [fetch_table hreads hdistinct htoOne]
  simp only [← harranged]
  unfold pageOf
  have hpage : unique (((arranged.map T.record).drop params.offset).take params.limit) =
      ((arranged.drop params.offset).take params.limit).map T.record := by
    rw [unique_of_nodup (hrows.sublist ((List.take_sublist _ _).trans (List.drop_sublist _ _))),
      List.map_take, List.map_drop]
  simp only [hpage, Query.PageCounts.page_eq_nil, List.length_map]

theorem mapM_map {γ : Type} {response : Record → Option β} {f : α → Option β}
    (hresponse : ∀ x, response (T.record x) = f x) (g : β → γ) (xs : List α) :
    ((xs.map T.record).mapM response).map (List.map g) =
      (xs.map fun x => (f x).map g).mapM id := by
  induction xs with
  | nil => rfl
  | cons x xs ih =>
      rw [List.map_cons, List.map_cons, List.mapM_cons, List.mapM_cons, ← ih, hresponse]
      cases f x with
      | none => rfl
      | some shown => cases (xs.map T.record).mapM response <;> rfl

theorem showAs_respond {response : Record → Option β} {f : α → Option β} {g : β → Shown}
    (hresponse : ∀ x, response (T.record x) = f x) (arranged : List α)
    (params : PaginationParams) :
    (respond response params (((arranged.drop params.offset).take params.limit).map T.record,
        if arranged.length ≤ params.offset then 0 else arranged.length)).map (showAs g) =
      pageShown (arranged.map fun x => (f x).map g) params := by
  unfold respond pageShown
  rw [← List.map_drop, ← List.map_take, List.length_map, ← mapM_map hresponse]
  cases ((List.take params.limit (List.drop params.offset arranged)).map T.record).mapM response <;>
    rfl

theorem serve_table (hreads : ReadsAll r.now (records r.db) T.model path T.record filters p)
    (hdistinct : (T.model :: path.map fun step => step.relation.target).Nodup)
    (htoOne : ∀ step ∈ path, ∃ source target column, step = refersTo source target column)
    (hnodup : (T.rows r.db).Nodup) {response : Record → Option β} {f : α → Option β}
    (g : β → Shown) (hresponse : ∀ x, response (T.record x) = f x) :
    ∃ arranged, arranged.Perm (((T.rows r.db).filter p).map fun x => (f x).map g) ∧
      ∀ params, ((paginate r T.model filters params).bind (respond response params)).map
          (showAs g) =
        if bindable r.now T.model filters ∧ FitsOffset params.offset then
          pageShown arranged params
        else .error driverFailure := by
  obtain ⟨arranged, hperm, hpage⟩ := paginate_table hreads hdistinct htoOne hnodup
  refine ⟨arranged.map fun x => (f x).map g, hperm.map _, fun params => ?_⟩
  rw [hpage]
  by_cases hsent : bindable r.now T.model filters ∧ FitsOffset params.offset
  · rw [if_pos hsent, if_pos hsent]
    exact showAs_respond hresponse arranged params
  · rw [if_neg hsent, if_neg hsent]
    rfl

end OneTable

/-! ## The listings -/

/-- What a listing answers is a page of its rows in this order; and asked with values the driver
can encode it answers with it, unless its event is not there for the caller. -/
structure Serves (r : Snapshot) (call : ListingCall) (arranged : List (Option Shown)) : Prop where
  perm : arranged.Perm (call.matching r)
  right : ∀ params page, call.serve r params = .ok page →
    call.refusal r = none ∧ pageShown arranged params = .ok page
  answered : ∀ params, call.Fits → FitsOffset params.offset →
    call.serve r params = (call.refusal r).elim (pageShown arranged params) .error

section Serve

variable {α β : Type} {T : Table α} {r : Snapshot} {path : List (Step Model)}
  {filters : FilterDict Argument} {p : α → Bool} {call : ListingCall}
  {arranged : List (Option Shown)}

/-- A listing that asks for no event is never refused. -/
theorem serves_of_open {sent : Bool} (hasks : call.asksFor r = none)
    (hperm : arranged.Perm (call.matching r))
    (hserve : ∀ params, call.serve r params =
      if sent ∧ FitsOffset params.offset then pageShown arranged params
      else .error driverFailure) (hfits : call.Fits → sent) : Serves r call arranged := by
  have hrefusal : call.refusal r = none := by
    unfold ListingCall.refusal
    rw [hasks]
    rfl
  refine ⟨hperm, fun params page hpage => ⟨hrefusal, ?_⟩, fun params hcall hoffset => ?_⟩
  · rw [hserve] at hpage
    split_ifs at hpage
    exact hpage
  · rw [hserve, if_pos ⟨hfits hcall, hoffset⟩, hrefusal]
    rfl

theorem serves_event {keyword : String} {value : Value} {scope : Event → Bool}
    (hscope : Reads r.now (records r.db) .event [] Record.event (keyword, .one value) scope)
    {filters : FilterDict Argument} {selects : Event → Bool}
    (hfilters : ReadsAll r.now (records r.db) .event [] Record.event filters selects)
    {response : Record → Option EventResponse} {views : Event → Nat}
    (hresponse : ∀ event, response (.event event) =
      some (eventResponse r.now event (views event))) (hasks : call.asksFor r = none)
    (hmatching : call.matching r = (r.db.events.filter fun event =>
      scope event && selects event).map
        fun event => some (.event (eventResponse r.now event (views event))))
    (hserve : ∀ params, call.serve r params =
      ((paginate r .event (kwarg keyword value :: filters) params).bind
        (respond response params)).map (showAs .event))
    (hfits : call.Fits → encodes value ∧ fits filters) : ∃ arranged, Serves r call arranged := by
  obtain ⟨arranged, hperm, hpage⟩ := serve_table (T := events) (.append (.of_kwarg hscope) hfilters)
    (List.nodup_singleton _) (List.forall_mem_nil _) (List.Nodup.of_map _ r.keys.events) .event
    hresponse
  refine ⟨arranged, serves_of_open hasks (hmatching ▸ hperm)
    (fun params => (hserve params).trans (hpage params)) fun hcall => bindable_of_fits ?_⟩
  rw [fits_append, fits_kwarg, (hfits hcall).1, (hfits hcall).2]
  rfl

theorem upcoming_iff {status : EventStatus} :
    some (Value.text status.value) = some (.text EventStatus.upcoming.value) ↔
      status = .upcoming := by
  cases status <;> decide

theorem reads_status : Reads r.now (records r.db) .event [] Record.event
    ("status", .one (.text EventStatus.upcoming.value))
    fun event => event.status r.now = .upcoming :=
  reads_eq (by simp [keys]) rfl fun _ => upcoming_iff

theorem reads_state : Reads r.now (records r.db) .event [] Record.event
    ("state", .one (.text EventState.onModeration.value))
    fun event => event.state = .onModeration := by
  refine reads_eq (by simp [keys]) rfl fun event => ?_
  show some (Value.text event.state.value) = _ ↔ _
  cases event.state <;> decide

theorem reads_owner (userId : Nat) : Reads r.now (records r.db) .event [] Record.event
    ("user_id", .one (.int userId)) fun event => event.userId = userId :=
  reads_number Event.userId (by simp [keys]) rfl (fun _ => rfl) userId

theorem serves_moderation (p : EventFilterParams) :
    ∃ arranged, Serves r (.eventsForModeration p) arranged :=
  serves_event reads_state (reads_event p)
    (fun event => (rfl : bareEvent r (.event event) = some (eventResponse r.now event 0))) rfl rfl
    (fun _ => rfl) fun hcall => ⟨by decide, (fits_event p).trans hcall⟩

theorem serves_publicEvents (p : UpcomingEventsFilterParams) :
    ∃ arranged, Serves r (.publicEvents p) arranged := by
  refine serves_event reads_status (reads_upcoming p) (fun _ => rfl) rfl rfl (fun _ => rfl)
    fun hcall => ⟨by decide, ?_⟩
  have hcall : p.toEventFilterParams.Fits = true := hcall
  unfold UpcomingEventsFilterParams.specificFilters
  rw [fits_append, fits_event, fits_optional, all_true encodes_positive, hcall]
  rfl

theorem serves_eventsOfUser (userId : Nat) (p : EventFilterParams) :
    ∃ arranged, Serves r (.eventsOfUser userId p) arranged :=
  serves_event (reads_owner userId) (reads_event p) (fun _ => rfl) rfl rfl (fun _ => rfl)
    fun hcall => ⟨decide_eq_true hcall.1, (fits_event p).trans hcall.2⟩

theorem serves_orders (userId : Nat) (p : OrderFilterParams) :
    ∃ arranged, Serves r (.ordersOfUser userId p) arranged := by
  have howner : Reads r.now (records r.db) .order [] Record.order ("user_id", .one (.int userId))
      fun order => order.userId = some userId :=
    reads_eq (by simp [keys]) rfl fun _ => bind_ofNat
  obtain ⟨arranged, hperm, hpage⟩ := serve_table (T := orders)
    (.append (.of_kwarg howner) (reads_order p)) (List.nodup_singleton _) (List.forall_mem_nil _)
    (List.Nodup.of_map _ r.keys.orders) .order fun order =>
      (rfl : orderShown r (.order order) = some (orderResponse order
        (r.db.orderItems.filter fun item => item.orderId = order.id)))
  refine ⟨arranged, serves_of_open rfl hperm hpage fun hcall => bindable_of_fits ?_⟩
  rw [fits_append, fits_kwarg, fits_order, Bool.and_true]
  exact decide_eq_true hcall

theorem serves_orderItems (userId : Nat) (p : OrderItemFilterParams) :
    ∃ arranged, Serves r (.orderItemsOfUser userId p) arranged := by
  have howner : Reads r.now (records r.db) .orderItem [itemOrder] Record.orderItem
      ("order__user_id", .one (.int userId)) fun item => ordered r.db userId item.orderId :=
    .of_column ["order"] "user_id" .eq (by simp [keys]) rfl rfl rfl (.inr rfl)
      fun item => any_order r.now item userId
  obtain ⟨arranged, hperm, hpage⟩ := serve_table (T := orderItems)
    (.append (.of_kwarg howner) (reads_orderItem p)) (by decide)
    (List.forall_mem_singleton.mpr ⟨_, _, _, rfl⟩) (List.Nodup.of_map _ r.keys.orderItems)
    .orderItem fun item => (rfl : orderItemShown (.orderItem item) = some (orderItemResponse item))
  refine ⟨arranged, serves_of_open rfl hperm hpage fun hcall => bindable_of_fits ?_⟩
  rw [fits_append, fits_kwarg, fits_orderItem, Bool.and_true]
  exact decide_eq_true hcall

theorem reads_ticketOrder (userId : Nat) :
    Reads r.now (records r.db) .ticket [ticketItem, itemOrder] Record.ticket
      ("order_item__order__user_id", .one (.int userId)) (bought r.db userId) :=
  .of_column ["order_item", "order"] "user_id" .eq (by simp [keys]) rfl rfl rfl (.inr rfl)
    fun ticket => any_ticketOrder r.now ticket userId

theorem serves_tickets (userId : Nat) (p : TicketsFilterParams) :
    ∃ arranged, Serves r (.ticketsOfUser userId p) arranged := by
  have htoOne : ∀ step ∈ [ticketItem, itemOrder], ∃ source target column,
      step = refersTo source target column := by
    rw [List.forall_mem_cons, List.forall_mem_singleton]
    exact ⟨⟨_, _, _, rfl⟩, _, _, _, rfl⟩
  obtain ⟨arranged, hperm, hpage⟩ := serve_table (T := tickets)
    (.append (.of_kwarg (reads_ticketOrder userId)) (reads_tickets p)) (by decide) htoOne
    (List.Nodup.of_map _ r.keys.tickets) .ticket fun ticket =>
      (rfl : ticketShown (.ticket ticket) = some ticket.id)
  refine ⟨arranged, serves_of_open rfl hperm hpage fun hcall => bindable_of_fits ?_⟩
  rw [fits_append, fits_kwarg, fits_tickets, Bool.and_true]
  exact decide_eq_true hcall

/-! ### Of an event -/

theorem any_event_iff (scope : Event → Bool) {eventId : Int} {event : Event}
    (hevent : event ∈ r.db.events) (hid : event.id = eventId) :
    (r.db.events.any fun event => event.id = eventId && scope event) = scope event := by
  rw [Bool.eq_iff_iff, List.any_eq_true]
  simp only [Bool.and_eq_true, decide_eq_true_iff]
  constructor
  · rintro ⟨other, hother, heq, hscope⟩
    rwa [List.inj_on_of_nodup_map r.keys.events hevent hother
      (Int.ofNat_inj.mp (hid.trans heq.symm))]
  · exact fun hscope => ⟨event, hevent, hid, hscope⟩

theorem refusal_eq {eventId : Int} {scope : Event → Bool}
    (hasks : call.asksFor r = some (eventId, scope)) :
    call.refusal r = if r.db.events.any fun event => event.id = eventId && scope event then none
      else some (noSuchEvent eventId) := by
  unfold ListingCall.refusal
  rw [hasks]
  rfl

/-- Of an event that is there the listing is a page of its rows; of another there is none. -/
theorem serves_of_guarded {eventId : Int} {scope : Event → Bool} (arranged : List (Option Shown))
    (hasks : call.asksFor r = some (eventId, scope))
    (hthere : (r.db.events.any fun event => event.id = eventId && scope event) = true →
      arranged.Perm (call.matching r) ∧
        (∀ params page, call.serve r params = .ok page → pageShown arranged params = .ok page) ∧
        ∀ params, call.Fits → FitsOffset params.offset →
          call.serve r params = pageShown arranged params)
    (hnone : (r.db.events.any fun event => event.id = eventId && scope event) = false →
      (∀ params page, call.serve r params ≠ .ok page) ∧
        ∀ params, call.Fits → FitsOffset params.offset →
          call.serve r params = .error (noSuchEvent eventId)) :
    ∃ arranged, Serves r call arranged := by
  have hrefusal := refusal_eq hasks
  cases hany : r.db.events.any fun event => event.id = eventId && scope event with
  | true =>
      obtain ⟨hperm, hright, hanswered⟩ := hthere hany
      rw [hany, if_pos rfl] at hrefusal
      refine ⟨arranged, hperm, fun params page hpage => ⟨hrefusal, hright params page hpage⟩,
        fun params hcall hoffset => ?_⟩
      rw [hrefusal]
      exact hanswered params hcall hoffset
  | false =>
      obtain ⟨hright, hanswered⟩ := hnone hany
      rw [hany, if_neg (by decide)] at hrefusal
      refine ⟨call.matching r, .refl _, fun params page hpage => absurd hpage (hright params page),
        fun params hcall hoffset => ?_⟩
      rw [hrefusal]
      exact hanswered params hcall hoffset

/-- The event is read before its tickets. -/
theorem serve_ticketsOfEvent (userId eventId : Nat) (p : TicketsByEventFilterParams) :
    ∃ arranged, arranged.Perm ((ListingCall.ticketsOfEvent userId eventId p).matching r) ∧
      ∀ params, (ListingCall.ticketsOfEvent userId eventId p).serve r params =
        if ¬ FitsColumn eventId then .error driverFailure
        else if r.db.events.any fun event =>
            (event.id : Int) = eventId && event.userId = userId then
          if FitsOffset params.offset then pageShown arranged params else .error driverFailure
        else .error (noSuchEvent eventId) := by
  have hget : repositoryGet r.now r.db .event [("id", .int eventId)] =
      .ok ((r.db.events.find? (hasId events eventId)).map .event) :=
    repositoryGet_id (T := events) r.keys.events eventId
  have hcategory : Reads r.now (records r.db) .ticket [ticketCategory] Record.ticket
      ("category__event_id", .one (.int eventId)) (soldFor r.db eventId) :=
    .of_column ["category"] "event_id" .eq (by simp [keys]) rfl rfl rfl (.inr rfl)
      fun ticket => any_ticketCategory r.now ticket eventId
  obtain ⟨arranged, hperm, hpage⟩ := serve_table (T := tickets)
    (.append (.of_kwarg hcategory) (reads_ticketsByEvent p)) (by decide)
    (List.forall_mem_singleton.mpr ⟨_, _, _, rfl⟩) (List.Nodup.of_map _ r.keys.tickets)
    .ticket (fun ticket => (rfl : ticketShown (.ticket ticket) = some ticket.id))
  refine ⟨arranged, hperm, fun params => ?_⟩
  show (TicketService.getAllByEventId r params userId eventId p).map (showAs .ticket) = _
  unfold TicketService.getAllByEventId
  by_cases hfits : FitsColumn eventId
  · rw [if_neg (not_not.mpr hfits), if_neg (not_not.mpr hfits), hget]
    cases hfind : r.db.events.find? (hasId events eventId) with
    | none =>
        rw [if_neg]
        · rfl
        · rw [List.any_eq_true]
          rintro ⟨event, hevent, hfound⟩
          refine List.find?_eq_none.mp hfind event hevent (decide_eq_true ?_)
          exact Int.ofNat_inj.mp (of_decide_eq_true (Bool.and_eq_true_iff.mp hfound).1)
    | some event =>
        have hevent := List.mem_of_find?_eq_some hfind
        have hid : event.id = eventId := of_decide_eq_true (List.find?_some hfind :)
        rw [any_event_iff (fun event => event.userId = userId) hevent (congrArg _ hid)]
        dsimp only [Option.map_some]
        by_cases howner : event.userId = userId
        · rw [if_neg (not_not.mpr howner), if_pos (decide_eq_true howner)]
          have hsent : bindable r.now .ticket
              ([kwarg "category__event_id" (.int eventId)] ++ p.specificFilters) := by
            refine bindable_of_fits ?_
            rw [fits_append, fits_kwarg, fits_ticketsByEvent, Bool.and_true]
            exact decide_eq_true hfits
          exact (hpage params).trans (if_congr (and_iff_right hsent) rfl rfl)
        · rw [if_pos howner, if_neg (mt of_decide_eq_true howner)]
          rfl
  · rw [if_pos hfits, if_pos hfits]
    rfl

theorem serves_ticketsOfEvent (userId eventId : Nat) (p : TicketsByEventFilterParams) :
    ∃ arranged, Serves r (.ticketsOfEvent userId eventId p) arranged := by
  obtain ⟨arranged, hperm, hserve⟩ := serve_ticketsOfEvent (r := r) userId eventId p
  refine serves_of_guarded arranged rfl (fun hany => ?_) fun hnone => ?_
  · simp only [hserve, hany, if_true]
    refine ⟨hperm, fun params page hpage => ?_, fun params hfits hoffset => ?_⟩
    · split_ifs at hpage
      exact hpage
    · have hfits : FitsColumn eventId := hfits
      rw [if_neg (not_not.mpr hfits), if_pos hoffset]
  · simp only [hserve, hnone, Bool.false_eq_true, if_false]
    refine ⟨fun params page hpage => ?_, fun params hfits _ => if_neg (not_not.mpr hfits)⟩
    split_ifs at hpage

theorem rowExists_table (hreads : ReadsAll r.now (records r.db) T.model [] T.record filters p) :
    rowExists r T.model filters =
      if bindable r.now T.model filters then .ok ((T.rows r.db).any p)
      else .error driverFailure := by
  have hany : decide (((T.rows r.db).filter p).map T.record ≠ []) = (T.rows r.db).any p := by
    rw [Bool.eq_iff_iff, decide_eq_true_iff, List.any_eq_true]
    simp
  have hfetch := fetch_table hreads (List.nodup_singleton _) (List.forall_mem_nil _)
  unfold rowExists ReadQueryExecutor.exists
  rw [(fetch_eq_ok.mp hfetch).1, ← hany]
  rfl

section TicketCategories

variable {eventId : Int} {event filters : FilterDict Argument} {scope : Event → Bool}
  {selects : TicketCategory → Bool}

/-- A page of no rows says nothing of the event, any other that it is there. -/
theorem listedOf_eq {params : PaginationParams} {items : List Record} {count : Nat}
    (hpage : paginate r .ticketCategory filters params = .ok (items, count)) :
    listedOf r params eventId event filters =
      if count = 0 then
        (rowExists r .event event).bind fun there =>
          if there then respond ticketCategoryShown params (items, count)
          else .error (noSuchEvent eventId)
      else respond ticketCategoryShown params (items, count) := by
  unfold listedOf
  rw [hpage]
  refine if_congr Iff.rfl ?_ rfl
  cases rowExists r .event event with
  | error e => rfl
  | ok there => cases there <;> rfl

/-- The rows of the event there, and of another there are none. -/
theorem listedOf_pages (hevent : ReadsAll r.now (records r.db) .event [] Record.event event
      fun event => event.id = eventId && scope event)
    (hfilters : ReadsAll r.now (records r.db) .ticketCategory [categoryEvent] Record.ticketCategory
      filters fun category => selects category && (category.eventId = eventId &&
        r.db.events.any fun event => category.eventId = event.id && scope event)) :
    ∃ arranged : List TicketCategory,
      arranged.Perm (r.db.ticketCategories.filter fun category =>
        selects category && (category.eventId = eventId &&
          r.db.events.any fun event => event.id = eventId && scope event)) ∧
      ∀ params, (listedOf r params eventId event filters).map (showAs .ticketCategory) =
        if bindable r.now .ticketCategory filters ∧ FitsOffset params.offset then
          if arranged.length ≤ params.offset ∧ ¬ bindable r.now .event event then
            .error driverFailure
          else if arranged.length ≤ params.offset ∧
              (r.db.events.any fun event => event.id = eventId && scope event) = false then
            .error (noSuchEvent eventId)
          else pageShown (arranged.map fun category =>
            (ticketCategoryResponse category).map .ticketCategory) params
        else .error driverFailure := by
  have hexists : rowExists r .event event = if bindable r.now .event event then
      .ok (r.db.events.any fun event => event.id = eventId && scope event)
    else .error driverFailure := rowExists_table (T := events) hevent
  obtain ⟨arranged, hperm, hpage⟩ := paginate_table (T := ticketCategories) hfilters (by decide)
    (List.forall_mem_singleton.mpr ⟨_, _, _, rfl⟩) (List.Nodup.of_map _ r.keys.ticketCategories)
  have hscope : ∀ category : TicketCategory, (category.eventId = eventId &&
      r.db.events.any fun event => category.eventId = event.id && scope event) =
        (category.eventId = eventId &&
          r.db.events.any fun event => event.id = eventId && scope event) := by
    intro category
    by_cases hid : (category.eventId : Int) = eventId
    · simp only [← hid, Int.ofNat_inj, eq_comm (a := category.eventId)]
    · simp only [hid, decide_false, Bool.false_and]
  simp only [hscope] at hperm
  refine ⟨arranged, hperm, fun params => ?_⟩
  have hpage : paginate r .ticketCategory filters params = _ := hpage params
  have hshown : ∀ category, ticketCategoryShown (ticketCategories.record category) =
      ticketCategoryResponse category := fun _ => rfl
  rw [← showAs_respond hshown]
  by_cases hsent : bindable r.now .ticketCategory filters ∧ FitsOffset params.offset
  · rw [listedOf_eq (hpage.trans (if_pos hsent)), if_pos hsent, hexists]
    by_cases hbehind : arranged.length ≤ params.offset
    · simp only [hbehind, if_true, true_and]
      by_cases hbindable : bindable r.now .event event = true
      · rw [if_pos hbindable, if_neg (not_not.mpr hbindable), Except.bind]
        cases r.db.events.any fun event => event.id = eventId && scope event <;> rfl
      · rw [if_neg hbindable, if_pos hbindable]
        rfl
    · have hlength : arranged.length ≠ 0 := by omega
      simp only [hbehind, if_false, false_and, hlength]
  · unfold listedOf
    rw [hpage.trans (if_neg hsent), if_neg hsent]
    rfl

theorem serves_listedOf (hasks : call.asksFor r = some (eventId, scope))
    (hserve : ∀ params, call.serve r params =
      (listedOf r params eventId event filters).map (showAs .ticketCategory))
    (hmatching : call.matching r = (r.db.ticketCategories.filter fun category =>
      selects category && category.eventId = eventId).map
        fun category => (ticketCategoryResponse category).map .ticketCategory)
    (hevent : ReadsAll r.now (records r.db) .event [] Record.event event fun event =>
      event.id = eventId && scope event)
    (hfilters : ReadsAll r.now (records r.db) .ticketCategory [categoryEvent] Record.ticketCategory
      filters fun category => selects category && (category.eventId = eventId &&
        r.db.events.any fun event => category.eventId = event.id && scope event))
    (hfits : call.Fits → fits event ∧ fits filters) : ∃ arranged, Serves r call arranged := by
  obtain ⟨arranged, hperm, hpages⟩ := listedOf_pages hevent hfilters
  have hserve := fun params => (hserve params).trans (hpages params)
  let shown := arranged.map fun category =>
    (ticketCategoryResponse category).map Shown.ticketCategory
  refine serves_of_guarded shown hasks (fun hany => ?_) fun hnone => ?_
  · simp only [hany, Bool.and_true] at hperm
    refine ⟨hmatching ▸ hperm.map _, fun params page hpage => ?_, fun params hcall hoffset => ?_⟩
    · rw [hserve] at hpage
      split_ifs at hpage
      exact hpage
    · obtain ⟨hevent, hfilters⟩ := hfits hcall
      rw [hserve, if_pos ⟨bindable_of_fits hfilters, hoffset⟩,
        if_neg fun h => h.2 (bindable_of_fits hevent), if_neg fun h => by simp [hany] at h]
  · have hnil : arranged = [] := by
      simp only [hnone, Bool.and_false, List.filter_false] at hperm
      exact hperm.eq_nil
    have hbehind : ∀ params : PaginationParams, arranged.length ≤ params.offset := fun params => by
      rw [hnil]
      exact Nat.zero_le _
    refine ⟨fun params page hpage => ?_, fun params hcall hoffset => ?_⟩
    · rw [hserve] at hpage
      split_ifs at hpage with _ _ hpresent
      exact hpresent ⟨hbehind params, hnone⟩
    · obtain ⟨hevent, hfilters⟩ := hfits hcall
      rw [hserve, if_pos ⟨bindable_of_fits hfilters, hoffset⟩,
        if_neg fun h => h.2 (bindable_of_fits hevent), if_pos ⟨hbehind params, hnone⟩]

theorem reads_eventId (userPath : List (Step Model)) (eventId : Int) :
    Reads r.now (records r.db) .ticketCategory userPath Record.ticketCategory
      ("event_id", .one (.int eventId)) fun category => category.eventId = eventId :=
  reads_integer TicketCategory.eventId (by simp [keys]) rfl (fun _ => rfl) eventId

theorem reads_id (eventId : Int) : Reads r.now (records r.db) .event [] Record.event
    ("id", .one (.int eventId)) fun event => event.id = eventId :=
  reads_integer Event.id (by simp [keys]) rfl (fun _ => rfl) eventId

theorem serves_publicTicketCategories (eventId : Int) (p : TicketCategoryFilterParams) :
    ∃ arranged, Serves r (.publicTicketCategories eventId p) arranged := by
  have hstatus : Reads r.now (records r.db) .ticketCategory [categoryEvent] Record.ticketCategory
      ("event__status", .one (.text EventStatus.upcoming.value)) fun category =>
        r.db.events.any fun event =>
          category.eventId = event.id && event.status r.now = .upcoming :=
    .of_column ["event"] "status" .eq (by simp [keys]) rfl rfl rfl (.inr rfl) fun category =>
      any_categoryEvent r.now category fun _ => decide_eq_decide.mpr upcoming_iff
  have hupcoming : encodes (.text EventStatus.upcoming.value) = true := by decide
  refine serves_listedOf rfl (fun _ => rfl) rfl
    (.append (.of_kwarg (reads_id eventId)) (.of_kwarg reads_status))
    (.append (reads_ticketCategory r.db p) (.append (.of_kwarg (reads_eventId _ eventId))
      (.of_kwarg hstatus))) fun hcall => ?_
  obtain ⟨hid, hname⟩ := hcall
  have hid : encodes (.int eventId) = true := decide_eq_true hid
  constructor
  · show fits ([kwarg "id" _] ++ [kwarg "status" _]) = true
    simp only [fits_append, fits_kwarg, hid, hupcoming, Bool.and_self]
  · show fits (_ ++ ([kwarg "event_id" _] ++ [kwarg "event__status" _])) = true
    simp only [fits_append, fits_kwarg, fits_ticketCategory, hname, hid, hupcoming, Bool.and_self]

theorem serves_ticketCategoriesOfUser (eventId : Int) (userId : Nat)
    (p : TicketCategoryFilterParams) :
    ∃ arranged, Serves r (.ticketCategoriesOfUser eventId userId p) arranged := by
  have howner : Reads r.now (records r.db) .ticketCategory [categoryEvent] Record.ticketCategory
      ("event__user_id", .one (.int userId)) fun category =>
        r.db.events.any fun event => category.eventId = event.id && event.userId = userId :=
    .of_column ["event"] "user_id" .eq (by simp [keys]) rfl rfl rfl (.inr rfl) fun category =>
      any_categoryEvent r.now category fun event => decide_ofNat event.userId userId
  refine serves_listedOf rfl (fun _ => rfl) rfl
    (.append (.of_kwarg (reads_id eventId)) (.of_kwarg (reads_owner userId)))
    (.append (reads_ticketCategory r.db p) (.append (.of_kwarg (reads_eventId _ eventId))
      (.of_kwarg howner))) fun hcall => ?_
  obtain ⟨hid, huser, hname⟩ := hcall
  have hid : encodes (.int eventId) = true := decide_eq_true hid
  have huser : encodes (.int userId) = true := decide_eq_true huser
  constructor
  · show fits ([kwarg "id" _] ++ [kwarg "user_id" _]) = true
    simp only [fits_append, fits_kwarg, hid, huser, Bool.and_self]
  · show fits (_ ++ ([kwarg "event_id" _] ++ [kwarg "event__user_id" _])) = true
    simp only [fits_append, fits_kwarg, fits_ticketCategory, hname, hid, huser, Bool.and_self]

end TicketCategories

/-- What a listing answers is a page of exactly its rows as the response schema shows them; asked
with values that the driver can encode it does answer, unless the schema does not take a row on
the page, or the event it is asked for is not there for the caller. -/
theorem listings_exact (r : Snapshot) (call : ListingCall) :
    ∃ arranged, Serves r call arranged := by
  cases call with
  | eventsForModeration p => exact serves_moderation p
  | publicEvents p => exact serves_publicEvents p
  | eventsOfUser userId p => exact serves_eventsOfUser userId p
  | ordersOfUser userId p => exact serves_orders userId p
  | orderItemsOfUser userId p => exact serves_orderItems userId p
  | ticketsOfUser userId p => exact serves_tickets userId p
  | ticketsOfEvent userId eventId p => exact serves_ticketsOfEvent userId eventId p
  | publicTicketCategories eventId p => exact serves_publicTicketCategories eventId p
  | ticketCategoriesOfUser eventId userId p => exact serves_ticketCategoriesOfUser eventId userId p

end Serve

/-! ## What is on some page -/

def Shows (r : Snapshot) (call : ListingCall) (shown : Shown) : Prop :=
  ∃ params page, call.serve r params = .ok page ∧ shown ∈ page.results

section Shows

variable {r : Snapshot} {call : ListingCall} {arranged : List (Option Shown)} {shown : Shown}

theorem eq_map_of_mapM {α : Type} {results : List α} {xs : List (Option α)}
    (h : xs.mapM id = some results) : xs = results.map some := by
  induction xs generalizing results with
  | nil =>
      cases h
      rfl
  | cons x xs ih =>
      rw [List.mapM_cons] at h
      obtain ⟨a, rfl, hrest⟩ := Option.bind_eq_some_iff.mp h
      obtain ⟨as, has, hresults⟩ := Option.bind_eq_some_iff.mp hrest
      rw [ih has, ← Option.some.inj hresults]
      rfl

theorem Serves.matching_of_shows (hserves : Serves r call arranged) (h : Shows r call shown) :
    some shown ∈ call.matching r := by
  obtain ⟨params, page, hpage, hshown⟩ := h
  have hright := (hserves.right params page hpage).2
  unfold pageShown at hright
  split at hright
  · rename_i results hresults
    cases hright
    have hmem : some shown ∈ results.map some := List.mem_map_of_mem hshown
    rw [← eq_map_of_mapM hresults] at hmem
    exact hserves.perm.subset (List.mem_of_mem_drop (List.mem_of_mem_take hmem))
  · cases hright

/-- The table is not longer than an OFFSET can say. -/
theorem Serves.shows_of_matching (hserves : Serves r call arranged) (hfits : call.Fits)
    (hrefusal : call.refusal r = none)
    (hlength : (call.matching r).length ≤ 9223372036854775807)
    (h : some shown ∈ call.matching r) : Shows r call shown := by
  obtain ⟨n, hn, hshown⟩ := List.mem_iff_getElem.mp (hserves.perm.mem_iff.mpr h)
  have hoffset : FitsOffset n := by
    rw [hserves.perm.length_eq] at hn
    exact (hn.trans_le hlength).le
  let params : PaginationParams := ⟨1, n, le_refl 1, by decide⟩
  have hpage : ((arranged.drop n).take 1).mapM id = some [shown] := by
    rw [List.drop_eq_getElem_cons hn, hshown]
    rfl
  have hserve : call.serve r params = .ok (paginateRaw [shown]
      (if arranged.length ≤ n then 0 else arranged.length) 1) := by
    rw [hserves.answered params hfits hoffset, hrefusal]
    show pageShown arranged params = _
    unfold pageShown
    rw [hpage]
  exact ⟨params, _, hserve, List.mem_singleton_self shown⟩

theorem events_length (r : Snapshot) : r.db.events.length ≤ 2147483648 := by
  have hids : (r.db.events.map fun event => event.id) ⊆ List.range 2147483648 := by
    intro id hid
    obtain ⟨event, hevent, rfl⟩ := List.mem_map.mp hid
    have hmax : ((event.id : Nat) : Int) ≤ 2147483647 :=
      (r.ids .event (.event event) (List.mem_map_of_mem hevent)).2
    rw [List.mem_range]
    omega
  have hlength := (r.keys.events.subperm hids).length_le
  rwa [List.length_map, List.length_range] at hlength

theorem length_matching_le {rows : List Event} {selected : Event → Bool}
    {showing : Event → Option Shown} (h : rows.length ≤ 2147483648) :
    ((rows.filter selected).map showing).length ≤ 9223372036854775807 := by
  rw [List.length_map]
  exact (List.length_filter_le _ _).trans (h.trans (by decide))

theorem shows_moderation {event : Event} (hevent : event ∈ r.db.events)
    (hstate : event.state = .onModeration) {p : EventFilterParams} (hfits : p.Fits)
    (hselects : p.selects event) :
    Shows r (.eventsForModeration p) (.event (eventResponse r.now event 0)) := by
  obtain ⟨arranged, hserves⟩ := serves_moderation (r := r) p
  refine hserves.shows_of_matching hfits rfl (length_matching_le (events_length r)) ?_
  refine List.mem_map.mpr ⟨event, List.mem_filter.mpr ⟨hevent, ?_⟩, rfl⟩
  rw [hselects, decide_eq_true hstate]
  rfl

theorem shows_public {event : Event} (hevent : event ∈ r.db.events)
    (hstatus : event.status r.now = .upcoming) {p : UpcomingEventsFilterParams}
    (hfits : p.toEventFilterParams.Fits) (hselects : p.selects event) :
    Shows r (.publicEvents p) (.event (eventResponse r.now event (r.views event.id))) := by
  obtain ⟨arranged, hserves⟩ := serves_publicEvents (r := r) p
  refine hserves.shows_of_matching hfits rfl (length_matching_le (events_length r)) ?_
  refine List.mem_map.mpr ⟨event, List.mem_filter.mpr ⟨hevent, ?_⟩, rfl⟩
  rw [hselects, decide_eq_true hstatus]
  rfl

theorem upcoming_of_shows {p : UpcomingEventsFilterParams} {response : EventResponse}
    (h : Shows r (.publicEvents p) (.event response)) :
    ∃ event ∈ r.db.events, event.status r.now = .upcoming ∧
      eventResponse r.now event (r.views event.id) = response := by
  obtain ⟨arranged, hserves⟩ := serves_publicEvents (r := r) p
  obtain ⟨event, hevent, hresponse⟩ := List.mem_map.mp (hserves.matching_of_shows h)
  obtain ⟨hevent, hselected⟩ := List.mem_filter.mp hevent
  refine ⟨event, hevent, of_decide_eq_true (Bool.and_eq_true_iff.mp hselected).1, ?_⟩
  exact Shown.event.inj (Option.some.inj hresponse)

end Shows

end TicketBooking.App.Listings
