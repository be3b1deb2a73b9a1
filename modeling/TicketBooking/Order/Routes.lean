import TicketBooking.Http.Idempotency
import TicketBooking.Order.Service
/-!
# The idempotent order routes

`POST /orders` and `PATCH /orders/{order_id}/pay` behind `idempotent_endpoint`.
The wrapper's key is made of the header alone, and it fails on every response its
route function returns, so a request with a key calls the function twice, and once
where another request with the key holds the lock.
-/

namespace TicketBooking.Order.Routes

open TicketBooking.App.Exceptions
open TicketBooking.Database.Shared TicketBooking.Database.Tables
open TicketBooking.Http.Idempotency TicketBooking.Library
open TicketBooking.Library.Sessions
open TicketBooking.Order.Booking TicketBooking.Order.Service
open TicketBooking.Order.Transactions
open TicketBooking.Tasks.Scheduling

/-! ## Requests and responses -/

/-- The route with its path parameter, body and authenticated user. -/
inductive Route
  | create (body : OrderCreateSchema) (userId : Option Nat)
  | payOrder (orderId : Nat)

structure Request where
  idempotencyKey : Option String
  route : Route

structure OrderItemResponse where
  id : Nat
  categoryId : Nat
  quantity : Nat
  orderId : Nat
  deriving DecidableEq, Repr

structure OrderResponse where
  id : Nat
  userId : Option Nat
  anonymousEmail : Option String
  status : OrderStatus
  items : List OrderItemResponse
  deriving DecidableEq, Repr

/-- `OrderResponseSchema.model_validate`. -/
def orderResponse (order : Order) (items : List OrderItem) : OrderResponse where
  id := order.id
  userId := order.userId
  anonymousEmail := order.anonymousEmail
  status := order.status
  items := items.map fun item => ⟨item.id, item.categoryId, item.quantity, item.orderId⟩

inductive Returned
  | order (response : OrderResponse)
  | none
  deriving DecidableEq, Repr

/-- A response body: nothing, the JSON text of a value, or an error detail. -/
inductive Body
  | empty
  | json (value : Returned)
  | detail (message : String)
  deriving DecidableEq, Repr

structure Response where
  statusCode : Nat
  body : Body
  deriving DecidableEq, Repr

def declaredStatus : Route → Nat
  | .create _ _ => 201
  | .payOrder _ => 204

def bodyAllowed (statusCode : Nat) : Bool :=
  ¬ (statusCode < 200 ∨ statusCode ∈ [204, 205, 304])

/-- FastAPI gives the route function its parameters by name. -/
def arguments : Route → Arguments
  | .create _ _ => .routed ["request", "body", "service", "user_id"]
  | .payOrder _ => .routed ["request", "order_id", "service"]

/-- Neither route returns a `Response` or takes one. -/
def encoding (route : Route) : Encoding Returned Returned where
  arguments := arguments route
  statusCode _ := resolveStatusCode none none (some (declaredStatus route))
  content returned := some returned

def errorResponse (e : AppException) : Response :=
  match e.statusCode with
  | some statusCode => ⟨statusCode, .detail e.message⟩
  | none => ⟨500, .detail "Internal Server Error"⟩

def send (route : Route) : Reply Returned Returned AppException → Response
  | .replayed payload => ⟨payload.statusCode, .json payload.content⟩
  | .responded returned =>
      ⟨declaredStatus route,
        if bodyAllowed (declaredStatus route) then .json returned else .empty⟩
  | .unavailable => ⟨503, .detail "Service temporarily overloaded"⟩
  | .raised e => errorResponse e

/-! ## The endpoints -/

/-- One call of the route function.  No exception of the services is a cache
error. -/
def handler (route : Route) (broker : Broker) (s : Store) : Except AppException Returned × Store :=
  match route with
  | .create body userId =>
      match create s ⟨body, userId⟩ broker with
      | (.ok (order, items), s') => (.ok (.order (orderResponse order items)), s')
      | (.error e, s') => (.error e, s')
  | .payOrder orderId =>
      match confirmPayment s orderId broker with
      | (.ok _, s') => (.ok .none, s')
      | (.error e, s') => (.error e, s')

def kind : AppException → Raised := fun _ => .exception

abbrev Cache := List (String × Payload Returned)

/-- Serve one request.  `broker` is what the task manager does in the first and
in the second call of the route function, and `held` says whether another request
holds the lock of the key. -/
def serve (request : Request) (broker : Nat → Broker) (held : Bool) (s : Store) (cache : Cache) :
    Response × Store × Cache :=
  let answer := idempotentEndpoint (encoding request.route) kind
    (fun attempt s => handler request.route (broker attempt) s)
    (getIdempotencyKey request.idempotencyKey) held cache s
  (send request.route answer.1, answer.2)

section Serve

variable {request : Request} {broker : Nat → Broker} {held : Bool} {s : Store} {cache : Cache}
  {key : String}

theorem encoding_storing (route : Route) (returned : Returned) :
    (encoding route).storing returned = .failed := by
  apply Encoding.storing_of_clash
  cases route <;> rfl

theorem encoding_extractRequest (route : Route) : (encoding route).arguments.extractRequest := by
  cases route <;> rfl

/-- With the lock free the route function is called twice. -/
theorem serve_free (hkey : getIdempotencyKey request.idempotencyKey = some key)
    (h : Dict.get (getIdempotencyCacheKey key) cache = none) :
    serve request broker false s cache =
      (send request.route (.ofHandler (handler request.route (broker 1)
        (handler request.route (broker 0) s).2).1),
        (handler request.route (broker 1) (handler request.route (broker 0) s).2).2, cache) := by
  have hrequest := encoding_extractRequest request.route
  unfold serve
  rw [hkey]
  cases hanswer : (handler request.route (broker 0) s).1 with
  | ok returned =>
      rw [idempotentEndpoint_failed hrequest h hanswer (encoding_storing request.route returned)]
  | error e => rw [idempotentEndpoint_raised hrequest h hanswer rfl]

theorem serve_held (hkey : getIdempotencyKey request.idempotencyKey = some key)
    (h : Dict.get (getIdempotencyCacheKey key) cache = none) :
    serve request broker true s cache =
      (send request.route (.ofHandler (handler request.route (broker 0) s).1),
        (handler request.route (broker 0) s).2, cache) := by
  unfold serve
  rw [hkey, idempotentEndpoint_busy (encoding_extractRequest request.route) h]

/-- A request that finds the lock taken is served like one that does not exactly when
a second call of its route function would answer the same and change nothing. -/
theorem serve_held_iff (hkey : getIdempotencyKey request.idempotencyKey = some key)
    (h : Dict.get (getIdempotencyCacheKey key) cache = none) :
    serve request broker true s cache = serve request broker false s cache ↔
      let first := handler request.route (broker 0) s
      let second := handler request.route (broker 1) first.2
      send request.route (.ofHandler first.1) = send request.route (.ofHandler second.1) ∧
        first.2 = second.2 := by
  rw [serve_held hkey h, serve_free hkey h, Prod.mk.injEq, Prod.mk.injEq]
  simp

end Serve

/-! ## A payment and an order under one key -/

def shop : Store :=
  { db := { orders := [⟨1, none, some "ann@example.com", .pending⟩],
            ticketCategories := [⟨1, 1, "floor", 10, 2⟩] },
    seq := { orders := 2 } }

def requests (later : Bool) : Request :=
  ⟨some "k", if later then .create onePlace.data none else .payOrder 1⟩

def clock (attempt : Nat) : Broker := some (attempt, attempt)

/-- While the payment holds the lock of the key, the order of the other guest asks for
it.  One order is placed; without the payment there would be two. -/
theorem order_depends_on_payment :
    (requests false).route ≠ (requests true).route ∧
      (∃ w, (arrivals Bool Returned Returned).steps
          (idempotentStep fun i => encoding (requests i).route)
          [(false, .run), (false, .run), (true, .run)] = some w ∧
        w.shared.owner = some false ∧ w.pc true = .wantsLock) ∧
      (serve (requests true) clock true shop []).2.1.db.orders.length = 2 ∧
      (serve (requests true) clock false shop []).2.1.db.orders.length = 3 ∧
      serve (requests true) clock true shop [] ≠ serve (requests true) clock false shop [] := by
  have hkey : getIdempotencyKey (requests true).idempotencyKey = some "k" := by
    change getIdempotencyKey (some "k") = some "k"
    decide +kernel
  have honce : (handler (requests true).route (clock 0) shop).2.db.orders.length = 2 := by
    decide +kernel
  have htwice : (handler (requests true).route (clock 1)
      (handler (requests true).route (clock 0) shop).2).2.db.orders.length = 3 := by
    decide +kernel
  refine ⟨?_, ⟨_, rfl, rfl, rfl⟩, ?_, ?_, ?_⟩
  · intro h
    cases h
  · rwa [serve_held hkey rfl]
  · rwa [serve_free hkey rfl]
  · rw [ne_eq, serve_held_iff hkey rfl]
    rintro ⟨-, hsame⟩
    rw [← hsame, honce] at htwice
    cases htwice

end TicketBooking.Order.Routes
