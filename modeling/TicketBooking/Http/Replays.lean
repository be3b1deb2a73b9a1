import TicketBooking.Http.Idempotency
import TicketBooking.Library.Json
/-!
# Replayed responses

What `idempotent_endpoint` stores of a handled request and what a later request with
the same key is answered from it, beside what FastAPI sent the first time.  The
values a handler returns, and their JSON texts, are parameters.
-/

namespace TicketBooking.Http.Replays

open TicketBooking.Http.Idempotency TicketBooking.Library

/-! ## Handled requests -/

@[ext]
structure Response where
  statusCode : Nat
  body : ByteArray

instance : DecidableEq Response := fun r r' =>
  decidable_of_iff (r.statusCode = r'.statusCode ∧ r.body.data = r'.body.data) <| by
    rw [Response.ext_iff, ByteArray.ext_iff]

/-- The JSON text of a value; no JSON text is empty. -/
structure JsonEncoder (V : Type) where
  text : V → String
  text_ne : ∀ v, text v ≠ ""

/-- A streamed response has no `body`. -/
inductive Returned (V : Type)
  | value (v : V)
  | response (r : Response)
  | streamed (r : Response)

/-- The declared status, and how the handler is called. -/
structure Route where
  statusCode : Option Nat
  arguments : Arguments
  deriving DecidableEq, Repr

/-- What a handler returned, and the status its request has set on the injected
response, which has none of its own. -/
structure Handled (V : Type) where
  returned : Returned V
  injected : Option Nat := none

variable {V : Type} (json : JsonEncoder V) (route : Route)

/-! ## What is stored -/

/-- The status of a returned response. -/
def Returned.statusCode : Returned V → Option Nat
  | .value _ => none
  | .response r => some r.statusCode
  | .streamed r => some r.statusCode

def statusCode (h : Handled V) : Option Nat :=
  resolveStatusCode h.returned.statusCode
    (if route.arguments.extractResponseArg then some h.injected else none) route.statusCode

/-- The text of a body; `none` when there is none or it is not UTF-8. -/
def content (h : Handled V) : Option String :=
  match h.returned with
  | .value v => some (json.text v)
  | .response r => String.fromUTF8? r.body
  | .streamed _ => none

def encoding : Encoding (Handled V) String where
  arguments := route.arguments
  statusCode := statusCode route
  content := content json

/-- `_prepare_cache_payload`. -/
def payloadText (payload : Payload String) : String :=
  Json.dumps [("status_code", .number payload.statusCode), ("content", .text payload.content)]

def restoreResponse (cachedStr : String) : Option Response :=
  match Json.loads cachedStr with
  | none => none
  | some data =>
      match Dict.get "content" data, Dict.get "status_code" data with
      | some (.text content), some (.number statusCode) => some ⟨statusCode, content.toUTF8⟩
      | _, _ => none

/-! ## What is sent -/

def isBodyAllowedForStatusCode (statusCode : Nat) : Bool :=
  ¬ (statusCode < 200 ∨ statusCode ∈ [204, 205, 304])

/-- A status that is zero counts as none. -/
def Handled.setStatus (h : Handled V) : Option Nat := h.injected.filter fun n => n ≠ 0

def sentStatus (h : Handled V) : Nat :=
  match h.returned with
  | .response r => r.statusCode
  | .streamed r => r.statusCode
  | .value _ => h.setStatus.getD (route.statusCode.getD 200)

/-- What FastAPI sends for a handled request. -/
def send (h : Handled V) : Response :=
  match h.returned with
  | .response r => r
  | .streamed r => r
  | .value v =>
      ⟨sentStatus route h,
        if isBodyAllowedForStatusCode (sentStatus route h) then (json.text v).toUTF8
        else ByteArray.empty⟩

/-- The answer to a request; exceptions are answered by their handlers. -/
def sent {E : Type} : Reply (Handled V) String E → Option Response
  | .replayed payload => restoreResponse (payloadText payload)
  | .responded h => some (send json route h)
  | .unavailable =>
      some ⟨503, (Json.dumps [("detail", .text "Service temporarily overloaded")]).toUTF8⟩
  | .raised _ => none

/-! ## Storing and restoring -/

/-- A response is restored from the text it is stored as. -/
theorem restoreResponse_payloadText (payload : Payload String) :
    restoreResponse (payloadText payload) =
      some ⟨payload.statusCode, payload.content.toUTF8⟩ := by
  unfold restoreResponse payloadText
  rw [Json.loads_dumps]
  simp [Dict.get]

theorem fromUTF8?_eq_some {body : ByteArray} {text : String} :
    String.fromUTF8? body = some text ↔ text.toUTF8 = body := by
  unfold String.fromUTF8?
  constructor
  · intro h
    split at h
    · cases h
      rfl
    · cases h
  · rintro rfl
    have hvalid : text.toUTF8.IsValidUTF8 := text.isValidUTF8
    rw [dif_pos hvalid]
    rfl

theorem toUTF8_ne_empty {text : String} (h : text ≠ "") : text.toUTF8 ≠ ByteArray.empty := by
  intro hempty
  exact h (String.toByteArray_inj.mp hempty)

/-! ## A later request -/

section Later

variable {E S : Type} (kind : E → Raised)

/-- A later request with the key, whatever its handler, is replayed the response the
first one was sent. -/
def Replayed (handler : Nat → S → Except E (Handled V) × S) (idempotencyKey : String)
    (cache : List (String × Payload String)) (s : S) : Prop :=
  let first := idempotentEndpoint (encoding json route) kind handler (some idempotencyKey) false
    cache s
  ∀ (later : Nat → S → Except E (Handled V) × S) (held : Bool) (s' : S), ∃ payload,
    (idempotentEndpoint (encoding json route) kind later (some idempotencyKey) held first.2.2
      s').1 = .replayed payload ∧
      sent json route (.replayed payload : Reply (Handled V) String E) = sent json route first.1

/-- The handler is given the request by position and nothing by the names `request`
and `response`; a response argument has a status, and without one no status is set
but the declared one; the status allows a body; and the body of a returned response
can be read back as a text. -/
def Replayable (h : Handled V) : Prop :=
  route.arguments.extractRequest ∧ ¬ route.arguments.clash ∧
    match h.returned with
    | .response r => r.body.IsValidUTF8
    | .streamed _ => False
    | .value _ =>
        (if route.arguments.extractResponseArg then h.setStatus ≠ none
          else ∀ n ∈ h.setStatus, n = route.statusCode.getD 200) ∧
        isBodyAllowedForStatusCode (sentStatus route h)

variable {json route kind} {handler : Nat → S → Except E (Handled V) × S} {idempotencyKey : String}
  {cache : List (String × Payload String)} {s : S}

theorem not_replayed {encoding : Encoding (Handled V) String}
    (hfresh : Dict.get (getIdempotencyCacheKey idempotencyKey) cache = none)
    (payload : Payload String) :
    (idempotentEndpoint encoding kind handler (some idempotencyKey) true cache s).1 ≠
      .replayed payload := by
  have hhandler : ∀ answer : Except E (Handled V),
      (Reply.ofHandler answer : Reply (Handled V) String E) ≠ .replayed payload := by
    intro answer
    cases answer <;> rintro ⟨⟩
  by_cases hrequest : encoding.arguments.extractRequest
  · rw [idempotentEndpoint_busy hrequest hfresh]
    exact hhandler _
  · rw [idempotentEndpoint_bypass hrequest]
    exact hhandler _

theorem not_replayed_of_unstored
    (hunstored : Dict.get (getIdempotencyCacheKey idempotencyKey)
      (idempotentEndpoint (encoding json route) kind handler (some idempotencyKey) false cache
        s).2.2 = none) :
    ¬ Replayed json route kind handler idempotencyKey cache s := by
  intro h
  obtain ⟨payload, hreplayed, -⟩ := h handler true s
  exact not_replayed hunstored payload hreplayed

section Handled

variable {h : Handled V}
  (hfresh : Dict.get (getIdempotencyCacheKey idempotencyKey) cache = none)
  (hhandled : (handler 0 s).1 = .ok h)

include hfresh hhandled

/-- What is stored is replayed, which is what was sent or not. -/
theorem replayed_iff_send {payload : Payload String}
    (hrequest : route.arguments.extractRequest)
    (hstoring : (encoding json route).storing h = .stored payload) :
    Replayed json route kind handler idempotencyKey cache s ↔
      send json route h = ⟨payload.statusCode, payload.content.toUTF8⟩ := by
  have hsent : ∀ payload : Payload String,
      sent json route (.replayed payload : Reply (Handled V) String E) =
        some ⟨payload.statusCode, payload.content.toUTF8⟩ := restoreResponse_payloadText
  have hlater : ∀ (later : Nat → S → Except E (Handled V) × S) held s',
      (idempotentEndpoint (encoding json route) kind later (some idempotencyKey) held
        (Dict.set (getIdempotencyCacheKey idempotencyKey) payload cache) s').1 =
          .replayed payload := by
    intro later held s'
    rw [idempotentEndpoint_hit hrequest (by rw [Dict.get_set, if_pos rfl])]
  unfold Replayed
  rw [idempotentEndpoint_stored hrequest hfresh hhandled hstoring]
  constructor
  · intro hreplayed
    obtain ⟨replayed, hpayload, hsame⟩ := hreplayed handler false s
    rw [hlater, Reply.replayed.injEq] at hpayload
    rw [← hpayload, hsent] at hsame
    exact (Option.some.inj hsame).symm
  · intro hsend first later held s'
    refine ⟨payload, hlater later held s', ?_⟩
    rw [hsent]
    exact congrArg some hsend.symm

/-- A later request is replayed the response of the first one when that is stored
whole. -/
theorem replayed_iff_stored :
    Replayed json route kind handler idempotencyKey cache s ↔
      route.arguments.extractRequest ∧ ∃ payload,
        (encoding json route).storing h = .stored payload ∧
          send json route h = ⟨payload.statusCode, payload.content.toUTF8⟩ := by
  constructor
  · intro hreplayed
    have hrequest : route.arguments.extractRequest := by
      by_contra hrequest
      have hbypass : ¬ (encoding json route).arguments.extractRequest := hrequest
      refine not_replayed_of_unstored ?_ hreplayed
      rw [idempotentEndpoint_bypass hbypass]
      exact hfresh
    refine ⟨hrequest, ?_⟩
    cases hstoring : (encoding json route).storing h with
    | stored payload =>
        have hsend := (replayed_iff_send hfresh hhandled hrequest hstoring).mp hreplayed
        exact ⟨payload, rfl, hsend⟩
    | skipped =>
        refine absurd hreplayed (not_replayed_of_unstored ?_)
        rw [idempotentEndpoint_skipped hrequest hfresh hhandled hstoring]
        exact hfresh
    | failed =>
        refine absurd hreplayed (not_replayed_of_unstored ?_)
        rw [idempotentEndpoint_failed hrequest hfresh hhandled hstoring]
        exact hfresh
  · rintro ⟨hrequest, payload, hstoring, hsend⟩
    exact (replayed_iff_send hfresh hhandled hrequest hstoring).mpr hsend

end Handled

theorem statusCode_value_iff {h : Handled V} {v : V} (hreturned : h.returned = .value v)
    (hsuccess : 200 ≤ sentStatus route h) :
    statusCode route h = some (sentStatus route h) ↔
      if route.arguments.extractResponseArg then h.setStatus ≠ none
      else ∀ n ∈ h.setStatus, n = route.statusCode.getD 200 := by
  simp only [statusCode, resolveStatusCode, Returned.statusCode, sentStatus, hreturned]
    at hsuccess ⊢
  by_cases hparam : route.arguments.extractResponseArg
  · simp only [if_pos hparam]
    unfold Handled.setStatus at hsuccess ⊢
    cases hinjected : h.injected with
    | none => simp
    | some n =>
        by_cases hzero : n = 0
        · subst hzero
          rw [hinjected] at hsuccess
          simp only [Option.filter_some, ne_eq, not_true_eq_false, decide_false, Bool.false_eq_true,
            if_false, Option.getD_none, iff_false, Option.some.injEq] at hsuccess ⊢
          omega
        · simp [Option.filter, hzero]
  · simp only [if_neg hparam]
    cases h.setStatus with
    | none => simp
    | some n => simp [eq_comm]

theorem sendable_iff {h : Handled V} (hclash : ¬ route.arguments.clash)
    (hstatus : 200 ≤ sentStatus route h ∧ sentStatus route h < 300) :
    (∃ payload, (encoding json route).storing h = .stored payload ∧
      send json route h = ⟨payload.statusCode, payload.content.toUTF8⟩) ↔
      match h.returned with
      | .response r => r.body.IsValidUTF8
      | .streamed _ => False
      | .value _ =>
          (if route.arguments.extractResponseArg then h.setStatus ≠ none
            else ∀ n ∈ h.setStatus, n = route.statusCode.getD 200) ∧
          isBodyAllowedForStatusCode (sentStatus route h) := by
  simp only [Encoding.storing_eq_stored, encoding, hclash, Bool.false_eq_true, not_false_eq_true,
    true_and]
  cases hreturned : h.returned with
  | response r =>
      have hcache : shouldCache r.statusCode := by
        simpa [shouldCache, sentStatus, hreturned] using hstatus
      have hbody : r.body.IsValidUTF8 ↔ ∃ text, String.fromUTF8? r.body = some text := by
        constructor
        · intro hvalid
          exact ⟨String.fromUTF8 r.body hvalid, dif_pos hvalid⟩
        · rintro ⟨text, htext⟩
          rw [← fromUTF8?_eq_some.mp htext]
          exact text.isValidUTF8
      simp only [statusCode, resolveStatusCode, Returned.statusCode, content, send, hreturned,
        hbody]
      constructor
      · rintro ⟨payload, ⟨-, -, htext⟩, -⟩
        exact ⟨payload.content, htext⟩
      · rintro ⟨text, htext⟩
        exact ⟨⟨r.statusCode, text⟩, ⟨rfl, hcache, htext⟩, by rw [fromUTF8?_eq_some.mp htext]⟩
  | streamed r => simp [content, hreturned]
  | value v =>
      have hcache : shouldCache (sentStatus route h) := by simpa [shouldCache] using hstatus
      have hiff := statusCode_value_iff hreturned hstatus.1
      have hcontent : content json h = some (json.text v) := by
        simp only [content, hreturned]
      have hsend : send json route h = ⟨sentStatus route h,
          if isBodyAllowedForStatusCode (sentStatus route h) then (json.text v).toUTF8
          else ByteArray.empty⟩ := by
        simp only [send, hreturned]
      rw [← hiff, hsend, hcontent]
      constructor
      · rintro ⟨⟨status, text⟩, ⟨hresolve, -, htext⟩, hsame⟩
        cases htext
        rw [Response.mk.injEq] at hsame
        refine ⟨by rw [hresolve, hsame.1], ?_⟩
        by_contra hforbidden
        rw [if_neg hforbidden] at hsame
        exact toUTF8_ne_empty (json.text_ne v) hsame.2.symm
      · rintro ⟨hresolve, hallowed⟩
        exact ⟨⟨sentStatus route h, json.text v⟩, ⟨hresolve, hcache, rfl⟩, by rw [if_pos hallowed]⟩

end Later

/-! ## The two idempotent routes -/

def orderJson : JsonEncoder Nat where
  text id := "\x7b\"id\": " ++ toString id ++ "\x7d"
  text_ne id h := by simpa using congrArg String.toList h

def create (_ : Nat) (next : Nat) : Except Empty (Handled Nat) × Nat :=
  (.ok { returned := .value next }, next + 1)

/-- `create` when it is called by position. -/
def createByPosition : Route := ⟨some 201, ⟨[.request, .other, .other, .other], []⟩⟩

/-- The same as FastAPI calls it. -/
def createOrder : Route := ⟨some 201, .routed ["request", "body", "service", "user_id"]⟩

def firstOrder := idempotentEndpoint (encoding orderJson createOrder) Empty.elim create (some "key")
  false [] 1

def laterOrder := idempotentEndpoint (encoding orderJson createOrder) Empty.elim create (some "key")
  false firstOrder.2.2 firstOrder.2.1

end TicketBooking.Http.Replays
