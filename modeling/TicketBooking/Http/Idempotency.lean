import TicketBooking.Library.Dict
import TicketBooking.Library.Sessions
/-!
# Idempotent endpoints

`idempotent_endpoint`: the key a request carries, the cache entry and the lock
that belong to it, and the statements of the wrapper for the requests that
share one key.  The handler is any program that may commit, then returns or
raises; what the wrapper needs to know of its call are the arguments, and of a
returned value the status code and the text it is stored as.
-/

namespace TicketBooking.Http.Idempotency

open TicketBooking.Library TicketBooking.Library.Sessions

/-! ## Keys -/

/-- The characters `str.strip` removes from a header value. -/
def isSpace (c : Char) : Bool :=
  (9 ≤ c.val ∧ c.val ≤ 13) ∨ (28 ≤ c.val ∧ c.val ≤ 32) ∨ c.val = 133 ∨ c.val = 160

def strip (s : String) : String :=
  String.ofList ((s.toList.dropWhile isSpace).reverse.dropWhile isSpace).reverse

/-- `None` when the request carries no usable key. -/
def getIdempotencyKey (header : Option String) : Option String :=
  match header with
  | none => none
  | some rawKey =>
      if rawKey = "" then none
      else if (strip rawKey).toLower ∈ ["", "none", "null"] then none
      else some (strip rawKey)

def getIdempotencyCacheKey (idempotencyKey : String) : String :=
  "idempotency:" ++ idempotencyKey

/-! ## Arguments -/

/-- An argument given by position, as the wrapper tells them apart. -/
inductive Argument
  | request
  | response
  | other
  deriving DecidableEq, Repr

/-- A call of a wrapped function.  What it is given under the names `request` and
`response` are the request and the response FastAPI injects. -/
structure Arguments where
  args : List Argument
  keywords : List String
  deriving DecidableEq, Repr

namespace Arguments

/-- FastAPI passes a route function every argument by its name. -/
def routed (parameters : List String) : Arguments := ⟨[], parameters⟩

def extractRequest (arguments : Arguments) : Bool :=
  "request" ∈ arguments.keywords ∨ .request ∈ arguments.args

def extractResponseArg (arguments : Arguments) : Bool :=
  "response" ∈ arguments.keywords ∨ .response ∈ arguments.args

/-- `_resolve_status_code(response, request, *args, **kwargs)` is given one of its
own parameters twice, which raises a `TypeError`. -/
def clash (arguments : Arguments) : Bool :=
  "response" ∈ arguments.keywords ∨ "request" ∈ arguments.keywords

theorem routed_clash {parameters : List String} (h : (routed parameters).extractRequest) :
    (routed parameters).clash := by
  simp only [routed, extractRequest, List.not_mem_nil, or_false, decide_eq_true_eq] at h
  simp [routed, clash, h]

end Arguments

/-! ## Stored responses -/

/-- A status carried by a returned `Response`, else that of a response argument,
which may be `None`, else the one the route declares. -/
def resolveStatusCode (returned : Option Nat) (responseArg : Option (Option Nat))
    (declared : Option Nat) : Option Nat :=
  match returned, responseArg with
  | some statusCode, _ => some statusCode
  | none, some statusCode => statusCode
  | none, none => some (declared.getD 200)

def shouldCache (statusCode : Nat) : Bool :=
  200 ≤ statusCode ∧ statusCode < 300

structure Payload (C : Type) where
  statusCode : Nat
  content : C
  deriving DecidableEq, Repr

/-- What the wrapper asks of a call and of a value `R` the handler returned: the
status code, which may be `None`, and the text; no text when encoding raises. -/
structure Encoding (R C : Type) where
  arguments : Arguments
  statusCode : R → Option Nat
  content : R → Option C

/-- A returned value is stored or not, or one of the steps to it raises. -/
inductive Storing (C : Type)
  | stored (payload : Payload C)
  | skipped
  | failed

variable {R C : Type}

def Encoding.storing (encoding : Encoding R C) (returned : R) : Storing C :=
  if encoding.arguments.clash then .failed
  else
    match encoding.statusCode returned with
    -- `_should_cache(None)`
    | none => .failed
    | some statusCode =>
        if shouldCache statusCode then
          match encoding.content returned with
          | some content => .stored ⟨statusCode, content⟩
          | none => .failed
        else .skipped

theorem Encoding.storing_of_clash {encoding : Encoding R C} (h : encoding.arguments.clash)
    (returned : R) : encoding.storing returned = .failed := by
  rw [Encoding.storing, if_pos h]

theorem Encoding.storing_eq_stored {encoding : Encoding R C} {returned : R} {payload : Payload C} :
    encoding.storing returned = .stored payload ↔
      ¬ encoding.arguments.clash ∧ encoding.statusCode returned = some payload.statusCode ∧
        shouldCache payload.statusCode ∧ encoding.content returned = some payload.content := by
  unfold Encoding.storing
  constructor
  · intro h
    split_ifs at h with hclash
    split at h
    · cases h
    · rename_i statusCode hstatus
      split_ifs at h with hcache
      split at h
      · rename_i content hcontent
        cases h
        exact ⟨hclash, hstatus, hcache, hcontent⟩
      · cases h
  · rintro ⟨hclash, hstatus, hcache, hcontent⟩
    simp only [if_neg hclash, hstatus, if_pos hcache, hcontent]

/-! ## The wrapper -/

/-- How the wrapper's `except` clauses tell exceptions apart.  Inside the Redis
lock a `RedisError` becomes a `CacheUnavailableError`. -/
inductive Raised
  | cacheUnavailable
  | exception
  | baseException
  deriving DecidableEq, Repr

inductive Result (R C : Type)
  | replayed (payload : Payload C)
  | responded (returned : R)
  | unavailable
  | raised (kind : Raised)

/-- What follows the release of the lock. -/
inductive Next (R C : Type)
  | done (result : Result R C)
  | rerun

inductive Pc (R C : Type)
  | arrived
  | wantsLock
  | locked
  | running (committed : Bool)
  | storing (payload : Payload C) (returned : R)
  | releasing (next : Next R C)
  /-- A call of the handler without the lock. -/
  | direct (committed : Bool)
  | finished (result : Result R C)

/-- What the handler and the clock do. -/
inductive Act (R : Type)
  | run
  | commit
  | returns (returned : R)
  | raises (kind : Raised)
  | lockExpires

/-- The cache entry and the lock of one key, and which requests have begun and
committed a run of the handler. -/
structure Slot (ι C : Type) where
  entry : Option (Payload C) := none
  owner : Option ι := none
  begun : List ι := []
  committed : List ι := []

namespace Slot

variable {ι : Type}

def acquire (i : ι) (s : Slot ι C) : Slot ι C := { s with owner := some i }

/-- The lock is released by its token: only its holder frees it. -/
def release [DecidableEq ι] (i : ι) (s : Slot ι C) : Slot ι C :=
  { s with owner := if s.owner = some i then none else s.owner }

def begin (i : ι) (s : Slot ι C) : Slot ι C := { s with begun := s.begun ++ [i] }

def commit (i : ι) (s : Slot ι C) : Slot ι C := { s with committed := s.committed ++ [i] }

def store (payload : Payload C) (s : Slot ι C) : Slot ι C := { s with entry := some payload }

end Slot

def afterReturn (encoding : Encoding R C) (returned : R) : Pc R C :=
  match encoding.storing returned with
  | .stored payload => .storing payload returned
  | .skipped => .releasing (.done (.responded returned))
  | .failed => .releasing .rerun

def afterRaise : Raised → Next R C
  | .cacheUnavailable => .done .unavailable
  | .exception => .rerun
  | .baseException => .done (.raised .baseException)

/-- Every request has a handler and arguments of its own. -/
def idempotentStep {ι : Type} [DecidableEq ι] (encoding : ι → Encoding R C) :
    Protocol ι (Slot ι C) Empty (Pc R C) (Act R)
  | i, s, .arrived, .run =>
      if (encoding i).arguments.extractRequest then
        match s.entry with
        | some payload => some (.stay, .finished (.replayed payload))
        | none => some (.stay, .wantsLock)
      else some (.emit (Slot.begin i), .direct false)
  | i, s, .wantsLock, .run =>
      match s.owner with
      | none => some (.emit (Slot.acquire i), .locked)
      -- `TimeoutError` or the 409: `except Exception` calls the handler
      | some _ => some (.emit (Slot.begin i), .direct false)
  | i, s, .locked, .run =>
      match s.entry with
      | some payload => some (.stay, .releasing (.done (.replayed payload)))
      | none => some (.emit (Slot.begin i), .running false)
  | i, _, .running false, .commit => some (.emit (Slot.commit i), .running true)
  | i, _, .running _, .returns returned => some (.stay, afterReturn (encoding i) returned)
  | _, _, .running _, .raises kind => some (.stay, .releasing (afterRaise kind))
  | _, _, .storing payload returned, .run =>
      some (.emit (Slot.store payload), .releasing (.done (.responded returned)))
  | i, _, .releasing (.done result), .run => some (.emit (Slot.release i), .finished result)
  | i, _, .releasing .rerun, .run =>
      some (.emit fun s => (s.release i).begin i, .direct false)
  | i, _, .direct false, .commit => some (.emit (Slot.commit i), .direct true)
  | _, _, .direct _, .returns returned => some (.stay, .finished (.responded returned))
  | _, _, .direct _, .raises kind => some (.stay, .finished (.raised kind))
  | i, _, .locked, .lockExpires => some (.emit (Slot.release i), .locked)
  | i, _, .running committed, .lockExpires => some (.emit (Slot.release i), .running committed)
  | i, _, .storing payload returned, .lockExpires =>
      some (.emit (Slot.release i), .storing payload returned)
  | i, _, .releasing next, .lockExpires => some (.emit (Slot.release i), .releasing next)
  | _, _, _, _ => none

inductive WrapperStep {ι : Type} [DecidableEq ι] (encoding : ι → Encoding R C) (i : ι)
    (s : Slot ι C) : Pc R C → Act R → Effect (Slot ι C) Empty → Pc R C → Prop
  | bypass (hrequest : ¬ (encoding i).arguments.extractRequest) :
      WrapperStep encoding i s .arrived .run (.emit (Slot.begin i)) (.direct false)
  | hit {payload : Payload C} (hrequest : (encoding i).arguments.extractRequest)
      (hentry : s.entry = some payload) :
      WrapperStep encoding i s .arrived .run .stay (.finished (.replayed payload))
  | miss (hrequest : (encoding i).arguments.extractRequest) (hentry : s.entry = none) :
      WrapperStep encoding i s .arrived .run .stay .wantsLock
  | acquire (howner : s.owner = none) :
      WrapperStep encoding i s .wantsLock .run (.emit (Slot.acquire i)) .locked
  | busy {j : ι} (howner : s.owner = some j) :
      WrapperStep encoding i s .wantsLock .run (.emit (Slot.begin i)) (.direct false)
  | hitLocked {payload : Payload C} (hentry : s.entry = some payload) :
      WrapperStep encoding i s .locked .run .stay (.releasing (.done (.replayed payload)))
  | begin (hentry : s.entry = none) :
      WrapperStep encoding i s .locked .run (.emit (Slot.begin i)) (.running false)
  | commit :
      WrapperStep encoding i s (.running false) .commit (.emit (Slot.commit i)) (.running true)
  | returns {committed : Bool} {returned : R} :
      WrapperStep encoding i s (.running committed) (.returns returned) .stay
        (afterReturn (encoding i) returned)
  | raises {committed : Bool} {kind : Raised} :
      WrapperStep encoding i s (.running committed) (.raises kind) .stay
        (.releasing (afterRaise kind))
  | store {payload : Payload C} {returned : R} :
      WrapperStep encoding i s (.storing payload returned) .run (.emit (Slot.store payload))
        (.releasing (.done (.responded returned)))
  | release {result : Result R C} :
      WrapperStep encoding i s (.releasing (.done result)) .run (.emit (Slot.release i))
        (.finished result)
  | releaseRerun :
      WrapperStep encoding i s (.releasing .rerun) .run (.emit fun s => (s.release i).begin i)
        (.direct false)
  | recommit :
      WrapperStep encoding i s (.direct false) .commit (.emit (Slot.commit i)) (.direct true)
  | rereturns {committed : Bool} {returned : R} :
      WrapperStep encoding i s (.direct committed) (.returns returned) .stay
        (.finished (.responded returned))
  | reraises {committed : Bool} {kind : Raised} :
      WrapperStep encoding i s (.direct committed) (.raises kind) .stay
        (.finished (.raised kind))
  | expireLocked :
      WrapperStep encoding i s .locked .lockExpires (.emit (Slot.release i)) .locked
  | expireRunning {committed : Bool} :
      WrapperStep encoding i s (.running committed) .lockExpires (.emit (Slot.release i))
        (.running committed)
  | expireStoring {payload : Payload C} {returned : R} :
      WrapperStep encoding i s (.storing payload returned) .lockExpires (.emit (Slot.release i))
        (.storing payload returned)
  | expireReleasing {next : Next R C} :
      WrapperStep encoding i s (.releasing next) .lockExpires (.emit (Slot.release i))
        (.releasing next)

theorem idempotentStep_cases {ι : Type} [DecidableEq ι] {encoding : ι → Encoding R C} {i : ι}
    {s : Slot ι C} {pc pc' : Pc R C} {a : Act R} {eff : Effect (Slot ι C) Empty}
    (h : idempotentStep encoding i s pc a = some (eff, pc')) :
    WrapperStep encoding i s pc a eff pc' := by
  fun_cases idempotentStep encoding i s pc a
  all_goals simp only [idempotentStep] at h
  all_goals try simp only [*] at h
  all_goals cases h
  all_goals constructor <;> assumption

/-- The requests that carry one key, none of them served yet. -/
def arrivals (ι R C : Type) : World ι (Slot ι C) Empty (Pc R C) :=
  World.start {} fun _ => .arrived

/-! ## One request at a time -/

/-- What the wrapper answers; `E` are the exceptions of the handler. -/
inductive Reply (R C E : Type)
  | replayed (payload : Payload C)
  | responded (returned : R)
  | unavailable
  | raised (e : E)
  deriving DecidableEq, Repr

def Reply.ofHandler {E : Type} : Except E R → Reply R C E
  | .ok returned => .responded returned
  | .error e => .raised e

/-- The wrapper for one request.  `handler` is given the number of calls made
before, and `held` says whether another request holds the lock of the key. -/
def idempotentEndpoint {E S : Type} (encoding : Encoding R C) (kind : E → Raised)
    (handler : Nat → S → Except E R × S) (idempotencyKey : Option String) (held : Bool)
    (cache : List (String × Payload C)) (s : S) : Reply R C E × S × List (String × Payload C) :=
  let answer := handler 0 s
  match if encoding.arguments.extractRequest then idempotencyKey else none with
  | none => (.ofHandler answer.1, answer.2, cache)
  | some idempotencyKey =>
      let cacheKey := getIdempotencyCacheKey idempotencyKey
      match Dict.get cacheKey cache with
      | some payload => (.replayed payload, s, cache)
      | none =>
          if held then (.ofHandler answer.1, answer.2, cache)
          else
            let rerun := handler 1 answer.2
            match answer.1 with
            | .ok returned =>
                match encoding.storing returned with
                | .stored payload =>
                    (.responded returned, answer.2, Dict.set cacheKey payload cache)
                | .skipped => (.responded returned, answer.2, cache)
                | .failed => (.ofHandler rerun.1, rerun.2, cache)
            | .error e =>
                match kind e with
                | .cacheUnavailable => (.unavailable, answer.2, cache)
                | .baseException => (.raised e, answer.2, cache)
                | .exception => (.ofHandler rerun.1, rerun.2, cache)

section Endpoint

variable {E S : Type} {encoding : Encoding R C} {kind : E → Raised}
  {handler : Nat → S → Except E R × S} {idempotencyKey : String} {held : Bool}
  {cache : List (String × Payload C)} {s : S}

/-- A wrapped function that is not given the request is called as it is. -/
theorem idempotentEndpoint_bypass (hrequest : ¬ encoding.arguments.extractRequest)
    (idempotencyKey : Option String) :
    idempotentEndpoint encoding kind handler idempotencyKey held cache s =
      (.ofHandler (handler 0 s).1, (handler 0 s).2, cache) := by
  simp only [idempotentEndpoint, if_neg hrequest]

theorem idempotentEndpoint_hit {payload : Payload C}
    (hrequest : encoding.arguments.extractRequest)
    (h : Dict.get (getIdempotencyCacheKey idempotencyKey) cache = some payload) :
    idempotentEndpoint encoding kind handler (some idempotencyKey) held cache s =
      (.replayed payload, s, cache) := by
  simp only [idempotentEndpoint, if_pos hrequest, h]

section Miss

variable (hrequest : encoding.arguments.extractRequest)
  (h : Dict.get (getIdempotencyCacheKey idempotencyKey) cache = none)

include hrequest h

theorem idempotentEndpoint_busy :
    idempotentEndpoint encoding kind handler (some idempotencyKey) true cache s =
      (.ofHandler (handler 0 s).1, (handler 0 s).2, cache) := by
  simp only [idempotentEndpoint, if_pos hrequest, h, if_true]

theorem idempotentEndpoint_stored {returned : R} {payload : Payload C}
    (hreturned : (handler 0 s).1 = .ok returned)
    (hstoring : encoding.storing returned = .stored payload) :
    idempotentEndpoint encoding kind handler (some idempotencyKey) false cache s =
      (.responded returned, (handler 0 s).2,
        Dict.set (getIdempotencyCacheKey idempotencyKey) payload cache) := by
  simp only [idempotentEndpoint, if_pos hrequest, h, hreturned, hstoring, Bool.false_eq_true,
    if_false]

theorem idempotentEndpoint_skipped {returned : R} (hreturned : (handler 0 s).1 = .ok returned)
    (hstoring : encoding.storing returned = .skipped) :
    idempotentEndpoint encoding kind handler (some idempotencyKey) false cache s =
      (.responded returned, (handler 0 s).2, cache) := by
  simp only [idempotentEndpoint, if_pos hrequest, h, hreturned, hstoring, Bool.false_eq_true,
    if_false]

theorem idempotentEndpoint_failed {returned : R} (hreturned : (handler 0 s).1 = .ok returned)
    (hstoring : encoding.storing returned = .failed) :
    idempotentEndpoint encoding kind handler (some idempotencyKey) false cache s =
      (.ofHandler (handler 1 (handler 0 s).2).1, (handler 1 (handler 0 s).2).2, cache) := by
  simp only [idempotentEndpoint, if_pos hrequest, h, hreturned, hstoring, Bool.false_eq_true,
    if_false]

theorem idempotentEndpoint_raised {e : E} (hraised : (handler 0 s).1 = .error e)
    (hkind : kind e = .exception) :
    idempotentEndpoint encoding kind handler (some idempotencyKey) false cache s =
      (.ofHandler (handler 1 (handler 0 s).2).1, (handler 1 (handler 0 s).2).2, cache) := by
  simp only [idempotentEndpoint, if_pos hrequest, h, hraised, hkind, Bool.false_eq_true, if_false]

end Miss

end Endpoint

def Reply.result {E : Type} (kind : E → Raised) : Reply R C E → Result R C
  | .replayed payload => .replayed payload
  | .responded returned => .responded returned
  | .unavailable => .unavailable
  | .raised e => .raised (kind e)

section Alone

variable {ι E S : Type} [DecidableEq ι] {encoding : ι → Encoding R C} {i : ι}

def Slot.held (i : ι) (s : Slot ι C) : Slot ι C := (s.acquire i).begin i

theorem alone_begin {s : Slot ι C} (hrequest : (encoding i).arguments.extractRequest)
    (howner : s.owner = none) (hentry : s.entry = none) :
    Alone (idempotentStep encoding) i s .arrived (s.held i) (.running false) := by
  have harrived : idempotentStep encoding i s .arrived .run = some (.stay, .wantsLock) := by
    simp only [idempotentStep, if_pos hrequest, hentry]
  have hwants : idempotentStep encoding i s .wantsLock .run =
      some (.emit (Slot.acquire i), .locked) := by
    simp only [idempotentStep, howner]
  have hlocked : idempotentStep encoding i (s.acquire i) .locked .run =
      some (.emit (Slot.begin i), .running false) := by
    simp only [idempotentStep, Slot.acquire, hentry]
  exact .step .run harrived (.step .run hwants (.step .run hlocked .refl))

theorem alone_release {s : Slot ι C} (howner : s.owner = some i) (result : Result R C) :
    Alone (idempotentStep encoding) i s (.releasing (.done result)) { s with owner := none }
      (.finished result) := by
  have hrelease : s.release i = { s with owner := none } := by
    unfold Slot.release
    rw [if_pos howner]
  rw [← hrelease]
  exact .step .run rfl .refl

theorem alone_direct (encoding : ι → Encoding R C) (s : Slot ι C) (kind : E → Raised)
    (answer : Except E R) :
    Alone (idempotentStep encoding) i s (.direct false) s
      (.finished ((Reply.ofHandler answer : Reply R C E).result kind)) := by
  cases answer with
  | ok returned => exact .step (.returns returned) rfl .refl
  | error e => exact .step (.raises (kind e)) rfl .refl

theorem alone_rerun (encoding : ι → Encoding R C) {s : Slot ι C} (howner : s.owner = some i)
    (kind : E → Raised) (answer : Except E R) :
    ∃ s', Alone (idempotentStep encoding) i s (.releasing .rerun) s'
        (.finished ((Reply.ofHandler answer : Reply R C E).result kind)) ∧
      s'.owner = none ∧ s'.entry = s.entry := by
  have hfree : ((s.release i).begin i).owner = none := by
    simp [Slot.release, Slot.begin, howner]
  exact ⟨_, .step .run rfl (alone_direct encoding _ kind answer), hfree, rfl⟩

theorem alone_running (encoding : ι → Encoding R C) (kind : E → Raised)
    (handler : Nat → S → Except E R × S) {idempotencyKey : String}
    {cache : List (String × Payload C)} {s : S} {slot : Slot ι C}
    (hrequest : (encoding i).arguments.extractRequest) (howner : slot.owner = some i)
    (hget : Dict.get (getIdempotencyCacheKey idempotencyKey) cache = none)
    (hentry : slot.entry = none) :
    ∃ slot', Alone (idempotentStep encoding) i slot (.running false) slot' (.finished
        ((idempotentEndpoint (encoding i) kind handler (some idempotencyKey) false cache
          s).1.result kind)) ∧
      slot'.owner = none ∧ slot'.entry = Dict.get (getIdempotencyCacheKey idempotencyKey)
        (idempotentEndpoint (encoding i) kind handler (some idempotencyKey) false cache s).2.2 := by
  have hunchanged : slot.entry = Dict.get (getIdempotencyCacheKey idempotencyKey) cache :=
    hentry.trans hget.symm
  cases hanswer : (handler 0 s).1 with
  | ok returned =>
      have hreturns : idempotentStep encoding i slot (.running false) (.returns returned) =
          some (.stay, afterReturn (encoding i) returned) := rfl
      cases hstoring : (encoding i).storing returned with
      | stored payload =>
          rw [afterReturn, hstoring] at hreturns
          rw [idempotentEndpoint_stored hrequest hget hanswer hstoring]
          have howned : (slot.store payload).owner = some i := howner
          refine ⟨_, .step _ hreturns (.step .run rfl (alone_release howned _)), rfl, ?_⟩
          simp [Slot.store, Dict.get_set]
      | skipped =>
          rw [afterReturn, hstoring] at hreturns
          rw [idempotentEndpoint_skipped hrequest hget hanswer hstoring]
          exact ⟨_, .step _ hreturns (alone_release howner _), rfl, hunchanged⟩
      | failed =>
          rw [afterReturn, hstoring] at hreturns
          obtain ⟨slot', hrerun, hfree, hsame⟩ := alone_rerun encoding howner kind
            (handler 1 (handler 0 s).2).1
          rw [idempotentEndpoint_failed hrequest hget hanswer hstoring]
          exact ⟨slot', .step _ hreturns hrerun, hfree, hsame.trans hunchanged⟩
  | error e =>
      have hraises : idempotentStep encoding i slot (.running false) (.raises (kind e)) =
          some (.stay, .releasing (afterRaise (kind e))) := rfl
      cases hkind : kind e with
      | cacheUnavailable =>
          rw [hkind] at hraises
          simp only [idempotentEndpoint, if_pos hrequest, hget, hanswer, hkind, Bool.false_eq_true,
            if_false]
          exact ⟨_, .step _ hraises (alone_release howner _), rfl, hunchanged.trans hget⟩
      | baseException =>
          rw [hkind] at hraises
          simp only [idempotentEndpoint, if_pos hrequest, hget, hanswer, hkind, Bool.false_eq_true,
            if_false, Reply.result]
          exact ⟨_, .step _ hraises (alone_release howner _), rfl, hunchanged.trans hget⟩
      | exception =>
          rw [hkind] at hraises
          obtain ⟨slot', hrerun, hfree, hsame⟩ := alone_rerun encoding howner kind
            (handler 1 (handler 0 s).2).1
          rw [idempotentEndpoint_raised hrequest hget hanswer hkind]
          exact ⟨slot', .step _ hraises hrerun, hfree, hsame.trans hunchanged⟩

/-- The wrapper for one request is a session of the concurrent one that runs alone. -/
theorem idempotentEndpoint_alone (kind : E → Raised) (handler : Nat → S → Except E R × S)
    (idempotencyKey : String) {held : Bool} (cache : List (String × Payload C)) (s : S)
    {slot : Slot ι C} (howner : slot.owner.isSome = held)
    (hentry : slot.entry = Dict.get (getIdempotencyCacheKey idempotencyKey) cache) :
    ∃ slot', Alone (idempotentStep encoding) i slot .arrived slot' (.finished
        ((idempotentEndpoint (encoding i) kind handler (some idempotencyKey) held cache
          s).1.result kind)) ∧
      slot'.owner = slot.owner ∧ slot'.entry = Dict.get (getIdempotencyCacheKey idempotencyKey)
        (idempotentEndpoint (encoding i) kind handler (some idempotencyKey) held cache s).2.2 := by
  by_cases hrequest : (encoding i).arguments.extractRequest
  swap
  · have hbypass : idempotentStep encoding i slot .arrived .run =
        some (.emit (Slot.begin i), .direct false) := by
      simp only [idempotentStep, if_neg hrequest]
    rw [idempotentEndpoint_bypass hrequest]
    exact ⟨_, .step .run hbypass (alone_direct encoding _ kind _), rfl, hentry⟩
  cases hget : Dict.get (getIdempotencyCacheKey idempotencyKey) cache with
  | some payload =>
      rw [hget] at hentry
      have hhit : idempotentStep encoding i slot .arrived .run =
          some (.stay, .finished (.replayed payload)) := by
        simp only [idempotentStep, if_pos hrequest, hentry]
      rw [idempotentEndpoint_hit hrequest hget]
      exact ⟨slot, .step .run hhit .refl, rfl, hentry.trans hget.symm⟩
  | none =>
      rw [hget] at hentry
      cases howned : slot.owner with
      | some j =>
          rw [howned] at howner
          subst howner
          have hmiss : idempotentStep encoding i slot .arrived .run = some (.stay, .wantsLock) := by
            simp only [idempotentStep, if_pos hrequest, hentry]
          have hbusy : idempotentStep encoding i slot .wantsLock .run =
              some (.emit (Slot.begin i), .direct false) := by
            simp only [idempotentStep, howned]
          rw [Option.isSome_some, idempotentEndpoint_busy hrequest hget]
          exact ⟨slot.begin i, .step .run hmiss (.step .run hbusy (alone_direct encoding _ kind _)),
            howned, hentry.trans hget.symm⟩
      | none =>
          rw [howned] at howner
          subst howner
          obtain ⟨slot', hrun, hfree, hsame⟩ := alone_running encoding kind handler
            (s := s) hrequest (rfl : (slot.held i).owner = some i) hget hentry
          exact ⟨slot', (alone_begin hrequest howned hentry).trans hrun, hfree, hsame⟩

end Alone

end TicketBooking.Http.Idempotency
