import TicketBooking.Catalog.Listing
import TicketBooking.Catalog.Transactions
import TicketBooking.Http.Freshness
import TicketBooking.Library.Runs
/-!
# The two cached listings of categories

`GET /admin/categories` and `GET /events/categories` cache the same listing under
two tags; `POST /admin/categories` gives the first of them a new version.  The
requests run one after the other, on either cache manager.  The digest of a query,
how its parameters are read, and how the database orders values are parameters.
-/

namespace TicketBooking.Catalog.CachedListing

open TicketBooking.App.Exceptions (AppException)
open TicketBooking.Catalog.Editing TicketBooking.Catalog.Listing TicketBooking.Catalog.Transactions
open TicketBooking.Database.Shared TicketBooking.Database.Tables
open TicketBooking.Http TicketBooking.Http.Caching TicketBooking.Http.Freshness
open TicketBooking.Library TicketBooking.Library.Runs TicketBooking.Library.Sessions
open TicketBooking.Query.Comparisons TicketBooking.Query.Sorting

abbrev Page := PaginatedResponse EventCategoryResponse

/-! ## The endpoints -/

inductive Endpoint
  | adminCategories
  | eventCategories
  deriving DecidableEq, Repr

def Endpoint.path : Endpoint → String
  | .adminCategories => "/admin/categories"
  | .eventCategories => "/events/categories"

def Endpoint.cacheTag : Endpoint → CacheTag
  | .adminCategories => .adminEventCategories
  | .eventCategories => .eventCategories

def Endpoint.tag (endpoint : Endpoint) : Tag := endpoint.cacheTag.tag

theorem tag_injective {e e' : Endpoint} (h : e.tag = e'.tag) : e = e' := by
  cases e <;> cases e' <;> first | rfl | exact absurd h (by decide)

/-- The items of a query, `request.query_params.items()`. -/
abbrev QueryParams := List (String × String)

section Requests

variable (manager : Manager) (md5 : String → QueryHash)
  (parse : QueryParams → Option EventCategoryFilterParams)
  (precedes : Option Value → Option Value → Bool)

def queryHash (endpoint : Endpoint) (query : QueryParams) : QueryHash :=
  md5 (rawQueryKey endpoint.path query)

/-- The database's clock and the one of the service in milliseconds. -/
structure Instant where
  now : Int
  millis : Nat
  deriving DecidableEq, Repr

/-- `get_all_categories` and `get_categories` of the routes. -/
def readCall (endpoint : Endpoint) (query : QueryParams) (p : EventCategoryFilterParams)
    (now : Int) : ReadCall Store Page AppException where
  tags := [endpoint.tag]
  queryHash := queryHash md5 endpoint query
  handler := fun s => EventService.getCategories precedes now s.db p
  service := AppException.isService

def createCategory (s : Store) (data : EventCategoryCreateSchema) (now : Int) :
    Store × CategoryPc :=
  solo (fun (_ : Unit) s pc a => categoryStep s pc a) () (.run now) 6 s (.start data)

/-- A query that cannot be read is refused before the route; `none` when the clock
goes backwards. -/
def getStep (endpoint : Endpoint) (query : QueryParams) (at_ : Instant) (s : Site Store Page) :
    Option (Site Store Page) :=
  match parse query with
  | none => some s
  | some p =>
      match cachedEndpoint manager (readCall md5 precedes endpoint query p at_.now) at_.millis s
        with
      | (s', .responded _) => some s'
      | (s', .raised _) => some s'
      | _ => none

def postStep (data : EventCategoryCreateSchema) (at_ : Instant) (s : Site Store Page) :
    Option (Site Store Page) :=
  match createCategory s.db data at_.now with
  | (db, .finished (.ok _)) =>
      match invalidatesCache (E := AppException) manager [Endpoint.adminCategories.tag]
          at_.millis (s.commit fun _ => db) with
      | (s', .invalidated _ _) => some s'
      | _ => none
  | (db, .finished (.error _)) => some { s with db := db }
  | _ => none

inductive Op
  | get (endpoint : Endpoint) (query : QueryParams) (at_ : Instant)
  | post (data : EventCategoryCreateSchema) (at_ : Instant)
  | evict (key : String)

def step (s : Site Store Page) : Op → Option (Site Store Page)
  | .get endpoint query at_ => getStep manager md5 parse precedes endpoint query at_ s
  | .post data at_ => postStep manager data at_ s
  | .evict key => some (s.evict key)

def respond (endpoint : Endpoint) (query : QueryParams) (at_ : Instant) (s : Site Store Page) :
    Option (Except AppException Page) :=
  match parse query with
  | none => none
  | some p =>
      match (cachedEndpoint manager (readCall md5 precedes endpoint query p at_.now) at_.millis
          s).2 with
      | .responded r => some (.ok r.body)
      | .raised e => some (.error e)
      | _ => none

def created (s : Site Store Page) (data : EventCategoryCreateSchema) (now : Int) :
    Option EventCategory :=
  match (createCategory s.db data now).2 with
  | .finished (.ok category) => some category
  | _ => none

end Requests

/-! ## The condition -/

/-- Queries that are read differently have different digests. -/
def Distinct (md5 : String → QueryHash) (parse : QueryParams → Option EventCategoryFilterParams)
    (queries : List QueryParams) : Prop :=
  ∀ endpoint, ∀ q ∈ queries, ∀ q' ∈ queries,
    queryHash md5 endpoint q = queryHash md5 endpoint q' → parse q = parse q'

/-- Nothing older than commit `n` is cached under version `v` of `t`. -/
def NoneOlder (s : Site Store Page) (t : Tag) (v : Version) (n : Nat) : Prop :=
  ∀ entry ∈ s.cache, StoredFresh t v n entry.2

instance (s : Site Store Page) (t : Tag) (v : Version) (n : Nat) :
    Decidable (NoneOlder s t v n) :=
  inferInstanceAs (Decidable (∀ entry ∈ s.cache, StoredFresh t v n entry.2))

/-- When a category is created, no listing is cached under the version that
`/events/categories` has, and none under the one `/admin/categories` gets, as they are
read back; when a listing finds no version, nothing older than the last creation is
cached under the version it makes, as it is made or as it is read back. -/
def Clean (manager : Manager) (queries : List QueryParams) (s : Site Store Page) : Op → Prop
  | .get endpoint query at_ =>
      query ∈ queries ∧
        (s.version endpoint.tag = none →
          NoneOlder s endpoint.tag (.str at_.millis) s.commits ∧
            NoneOlder s endpoint.tag (manager.readBack at_.millis) s.commits)
  | .post data at_ =>
      created s data at_.now ≠ none →
        NoneOlder s Endpoint.adminCategories.tag (manager.readBack at_.millis) (s.commits + 1) ∧
          ∀ v ∈ s.version Endpoint.eventCategories.tag,
            NoneOlder s Endpoint.eventCategories.tag (manager.readBack v) (s.commits + 1)
  | .evict _ => True

instance (manager : Manager) (queries : List QueryParams) (s : Site Store Page) :
    (op : Op) → Decidable (Clean manager queries s op)
  | .get endpoint query at_ => inferInstanceAs (Decidable (query ∈ queries ∧
      (s.version endpoint.tag = none →
        NoneOlder s endpoint.tag (.str at_.millis) s.commits ∧
          NoneOlder s endpoint.tag (manager.readBack at_.millis) s.commits)))
  | .post data at_ => inferInstanceAs (Decidable (created s data at_.now ≠ none →
      NoneOlder s Endpoint.adminCategories.tag (manager.readBack at_.millis) (s.commits + 1) ∧
        ∀ v ∈ s.version Endpoint.eventCategories.tag,
          NoneOlder s Endpoint.eventCategories.tag (manager.readBack v) (s.commits + 1)))
  | .evict _ => inferInstanceAs (Decidable True)

/-! ## The invariant -/

section Invariant

variable {manager : Manager} {md5 : String → QueryHash}
  {parse : QueryParams → Option EventCategoryFilterParams}
  {precedes : Option Value → Option Value → Bool} {queries : List QueryParams}

/-- A cached response belongs to a query of the run, and is the present listing if
it has seen every commit. -/
structure Entry (md5 : String → QueryHash) (parse : QueryParams → Option EventCategoryFilterParams)
    (precedes : Option Value → Option Value → Bool) (queries : List QueryParams)
    (s : Site Store Page) (key : String) (r : Response Page) : Prop where
  le : r.asOf ≤ s.commits
  query : ∃ endpoint, ∃ q ∈ queries, ∃ p v, parse q = some p ∧ r.under = [(endpoint.tag, v)] ∧
    key = cacheKey r.under (queryHash md5 endpoint q) ∧
    (r.asOf = s.commits → categoryListing precedes s.db.db p = .ok r.body)

structure Coherent (manager : Manager) (md5 : String → QueryHash)
    (parse : QueryParams → Option EventCategoryFilterParams)
    (precedes : Option Value → Option Value → Bool) (queries : List QueryParams)
    (s : Site Store Page) : Prop where
  entries : ∀ key r, (key, Stored.response r) ∈ s.cache → Entry md5 parse precedes queries s key r
  current : ∀ endpoint v, s.version (Endpoint.tag endpoint) = some v →
    NoneOlder s endpoint.tag (manager.readBack v) s.commits

theorem Entry.of_eq {s s' : Site Store Page} {key : String} {r : Response Page}
    (h : Entry md5 parse precedes queries s key r) (hdb : s'.db.db = s.db.db)
    (hcommits : s'.commits = s.commits) : Entry md5 parse precedes queries s' key r where
  le := by rw [hcommits]; exact h.le
  query := by rw [hcommits, hdb]; exact h.query

/-- An entry that is older than the present state says nothing of it. -/
theorem Entry.of_lt {s s' : Site Store Page} {key : String} {r : Response Page}
    (h : Entry md5 parse precedes queries s key r) (hlt : s.commits < s'.commits) :
    Entry md5 parse precedes queries s' key r where
  le := h.le.trans hlt.le
  query := by
    obtain ⟨endpoint, q, hq, p, v, hparse, hunder, hkey, -⟩ := h.query
    refine ⟨endpoint, q, hq, p, v, hparse, hunder, hkey, fun hasOf => ?_⟩
    have hle := h.le
    omega

/-- A version is written under which nothing is outdated. -/
theorem Coherent.setVersion {s : Site Store Page}
    (h : Coherent manager md5 parse precedes queries s) {t : Tag} {v : Nat}
    (hfresh : NoneOlder s t (manager.readBack v) s.commits) :
    Coherent manager md5 parse precedes queries (s.setVersion t v) where
  entries := by
    intro key r hmem
    rcases Dict.of_mem_set hmem with heq | hmem
    · cases heq
    · exact (h.entries key r hmem).of_eq rfl rfl
  current := by
    intro endpoint u hu entry hentry
    rw [Site.version_setVersion] at hu
    rcases Dict.of_mem_set hentry with rfl | hentry
    · trivial
    · split_ifs at hu with ht
      · cases hu
        rw [← ht]
        exact hfresh entry hentry
      · exact h.current endpoint u hu entry hentry

theorem Coherent.store {s : Site Store Page} (h : Coherent manager md5 parse precedes queries s)
    {endpoint : Endpoint} {q : QueryParams} (hq : q ∈ queries) {p : EventCategoryFilterParams}
    (hparse : parse q = some p) (v : Version) {page : Page}
    (hpage : categoryListing precedes s.db.db p = .ok page) :
    Coherent manager md5 parse precedes queries
      (s.store (cacheKey [(endpoint.tag, v)] (queryHash md5 endpoint q))
        ⟨page, s.commits, [(endpoint.tag, v)]⟩) where
  entries := by
    intro key r hmem
    rcases Dict.of_mem_set hmem with heq | hmem
    · cases heq
      exact ⟨le_rfl, endpoint, q, hq, p, v, hparse, rfl, rfl, fun _ => hpage⟩
    · exact (h.entries key r hmem).of_eq rfl rfl
  current := by
    intro endpoint' u hu entry hentry
    rw [Site.version_store] at hu
    rcases Dict.of_mem_set hentry with rfl | hentry
    · exact fun _ => le_rfl
    · exact h.current endpoint' u hu entry hentry

theorem Coherent.evict {s : Site Store Page} (h : Coherent manager md5 parse precedes queries s)
    (key : String) : Coherent manager md5 parse precedes queries (s.evict key) where
  entries := fun key' r hmem => (h.entries key' r (Dict.mem_of_mem_erase hmem)).of_eq rfl rfl
  current := fun endpoint v hv entry hentry =>
    h.current endpoint v (Site.version_of_evict hv) entry (Dict.mem_of_mem_erase hentry)

/-- How a read has ended: with the present listing, or as the service raised. -/
def Ended (precedes : Option Value → Option Value → Bool) (s : Site Store Page)
    (p : EventCategoryFilterParams) : Pc Store Page AppException → Prop
  | .responded r => categoryListing precedes s.db.db p = .ok r.body
  | .raised e => categoryListing precedes s.db.db p = .error e
  | _ => False

/-- A listing served under a version that nothing outdated is under is the present one. -/
theorem serve_current {s : Site Store Page} (h : Coherent manager md5 parse precedes queries s)
    (hdistinct : Distinct md5 parse queries) {endpoint : Endpoint} {q : QueryParams}
    (hq : q ∈ queries) {p : EventCategoryFilterParams} (hparse : parse q = some p) {v : Version}
    (hv : NoneOlder s endpoint.tag v s.commits) (now : Int) :
    ∃ s' pc, serve (readCall md5 precedes endpoint q p now) [(endpoint.tag, v)] s = (s', pc) ∧
      Coherent manager md5 parse precedes queries s' ∧ s'.db = s.db ∧ Ended precedes s p pc := by
  unfold serve
  cases hlookup : s.lookup (cacheKey [(endpoint.tag, v)]
      (readCall md5 precedes endpoint q p now).queryHash) with
  | some r =>
      -- the key names the endpoint, the version and the digest
      have hmem := Site.mem_of_lookup hlookup
      obtain ⟨hle, endpoint', q', hq', p', v', hparse', hunder, hkey, hlisting⟩ :=
        h.entries _ r hmem
      obtain ⟨hunder', hhash⟩ := cacheKey_injective hkey
      rw [hunder, List.cons.injEq, Prod.mk.injEq] at hunder'
      obtain ⟨⟨htag, rfl⟩, -⟩ := hunder'
      cases tag_injective htag
      have hsame : parse q = parse q' := hdistinct endpoint q hq q' hq' hhash
      rw [hparse, hparse', Option.some.injEq] at hsame
      have hfresh : s.commits ≤ r.asOf := by
        refine hv _ hmem ?_
        rw [hunder]
        exact List.mem_singleton_self _
      exact ⟨s, .responded r, rfl, h, rfl, hsame ▸ hlisting (le_antisymm hle hfresh)⟩
  | none =>
      have hhandler : (readCall md5 precedes endpoint q p now).handler s.db =
          categoryListing precedes s.db.db p := getCategories_eq precedes now p s.db.db
      rw [hhandler]
      cases hlisting : categoryListing precedes s.db.db p with
      | ok page => exact ⟨_, _, rfl, h.store hq hparse v hlisting, rfl, hlisting⟩
      | error e => exact ⟨_, _, rfl, h, rfl, hlisting⟩

/-- The version a read takes is current from then on. -/
theorem takeVersion_current {s : Site Store Page}
    (h : Coherent manager md5 parse precedes queries s) {endpoint : Endpoint} {ms : Nat}
    (hfresh : s.version endpoint.tag = none →
      NoneOlder s endpoint.tag (.str ms) s.commits ∧
        NoneOlder s endpoint.tag (manager.readBack ms) s.commits) :
    Coherent manager md5 parse precedes queries (takeVersion manager endpoint.tag ms s).2 ∧
      (takeVersion manager endpoint.tag ms s).2.db = s.db ∧
      NoneOlder (takeVersion manager endpoint.tag ms s).2 endpoint.tag
        (takeVersion manager endpoint.tag ms s).1
        (takeVersion manager endpoint.tag ms s).2.commits := by
  unfold takeVersion
  cases hversion : s.version endpoint.tag with
  | some v => exact ⟨h, rfl, h.current endpoint v hversion⟩
  | none =>
      have htick : Coherent manager md5 parse precedes queries (s.tick ms) :=
        ⟨fun key r hmem => (h.entries key r hmem).of_eq rfl rfl, h.current⟩
      refine ⟨htick.setVersion (hfresh hversion).2, rfl, fun entry hentry => ?_⟩
      rcases Dict.of_mem_set hentry with rfl | hentry
      · trivial
      · exact (hfresh hversion).1 entry hentry

theorem get_current {s : Site Store Page} (h : Coherent manager md5 parse precedes queries s)
    (hdistinct : Distinct md5 parse queries) {endpoint : Endpoint} {q : QueryParams} {at_ : Instant}
    (hclean : Clean manager queries s (.get endpoint q at_)) {p : EventCategoryFilterParams}
    (hparse : parse q = some p) (hclock : s.version endpoint.tag = none → s.clock ≤ at_.millis) :
    ∃ s' pc, cachedEndpoint manager (readCall md5 precedes endpoint q p at_.now) at_.millis s =
        (s', pc) ∧
      Coherent manager md5 parse precedes queries s' ∧ s'.db = s.db ∧ Ended precedes s p pc := by
  obtain ⟨htaken, hdb, hversion⟩ := takeVersion_current h hclean.2
  obtain ⟨s', pc, hserve, hs', hdb', hended⟩ :=
    serve_current htaken hdistinct hclean.1 hparse hversion at_.now
  refine ⟨s', pc, ?_, hs', hdb'.trans hdb, ?_⟩
  · rw [cachedEndpoint_eq rfl hclock, hserve]
  · unfold Ended at hended ⊢
    rw [hdb] at hended
    exact hended

/-! ## Creating a category -/

def CreatedAt (db₀ : Database.Tables.Db) (s : Store) : CategoryPc → Prop
  | .finished (.ok category) => s.db = insertEventCategory category db₀
  | _ => s.db = db₀

theorem createdAt_step {db₀ : Database.Tables.Db} {s : Store} {pc pc' : CategoryPc} {now : Int}
    {eff : Effect Store Row} (h : CreatedAt db₀ s pc)
    (hP : categoryStep s pc (.run now) = some (eff, pc')) : CreatedAt db₀ (eff.apply s) pc' := by
  cases pc with
  | finished result => cases hP
  | inserted category =>
      cases hP
      exact congrArg (insertEventCategory category) h
  | start data =>
      simp only [categoryStep] at hP
      repeat' split at hP
      all_goals cases hP; exact h
  | parentRead data parentId =>
      simp only [categoryStep] at hP
      split at hP
      all_goals cases hP; exact h
  | checked data =>
      cases hP
      exact h
  | inserting category =>
      cases hP
      exact h
  | keyed category =>
      simp only [categoryStep] at hP
      split at hP
      all_goals cases hP; exact h

theorem solo_createdAt {db₀ : Database.Tables.Db} {now : Int} (n : Nat) {s : Store}
    {pc : CategoryPc} (h : CreatedAt db₀ s pc) :
    CreatedAt db₀ (solo (fun (_ : Unit) s pc a => categoryStep s pc a) () (.run now) n s pc).1
      (solo (fun (_ : Unit) s pc a => categoryStep s pc a) () (.run now) n s pc).2 := by
  induction n generalizing s pc with
  | zero => exact h
  | succ n ih =>
      cases hP : categoryStep s pc (.run now) with
      | none =>
          rw [solo_of_none hP]
          exact h
      | some next =>
          rw [solo_step hP]
          exact ih (createdAt_step h hP)

theorem createCategory_db (s : Store) (data : EventCategoryCreateSchema) (now : Int) :
    CreatedAt s.db (createCategory s data now).1 (createCategory s data now).2 :=
  solo_createdAt 6 rfl

/-! ## Steps -/

theorem Coherent.failed {s : Site Store Page} (h : Coherent manager md5 parse precedes queries s)
    {db : Store} (hdb : db.db = s.db.db) :
    Coherent manager md5 parse precedes queries { s with db := db } where
  entries := fun key r hmem => (h.entries key r hmem).of_eq hdb rfl
  current := h.current

theorem Coherent.created {s : Site Store Page} (h : Coherent manager md5 parse precedes queries s)
    {db : Store} {ms : Nat}
    (hadmin : NoneOlder s Endpoint.adminCategories.tag (manager.readBack ms) (s.commits + 1))
    (hevents : ∀ v ∈ s.version Endpoint.eventCategories.tag,
      NoneOlder s Endpoint.eventCategories.tag (manager.readBack v) (s.commits + 1)) :
    Coherent manager md5 parse precedes queries
      (((s.commit fun _ => db).tick ms).announce Endpoint.adminCategories.tag ms
        (s.commits + 1)) where
  entries := by
    intro key r hmem
    rcases Dict.of_mem_set hmem with heq | hmem
    · cases heq
    · exact (h.entries key r hmem).of_lt (Nat.lt_succ_self _)
  current := by
    intro endpoint v hv entry hentry
    rw [Site.version_announce, Site.version_setVersion] at hv
    rcases Dict.of_mem_set hentry with rfl | hentry
    · trivial
    · split_ifs at hv with htag
      · cases hv
        rw [← htag]
        exact hadmin entry hentry
      · cases endpoint with
        | adminCategories => exact absurd rfl htag
        | eventCategories => exact hevents v hv entry hentry

theorem Coherent.get {s s' : Site Store Page} (h : Coherent manager md5 parse precedes queries s)
    (hdistinct : Distinct md5 parse queries) {endpoint : Endpoint} {q : QueryParams} {at_ : Instant}
    (hclean : Clean manager queries s (.get endpoint q at_))
    (hs : getStep manager md5 parse precedes endpoint q at_ s = some s') :
    Coherent manager md5 parse precedes queries s' ∧ s'.db = s.db := by
  unfold getStep at hs
  cases hparse : parse q with
  | none =>
      rw [hparse] at hs
      cases hs
      exact ⟨h, rfl⟩
  | some p =>
      rw [hparse] at hs
      dsimp only at hs
      by_cases hclock : s.version endpoint.tag = none → s.clock ≤ at_.millis
      · obtain ⟨s₁, pc, hget, hs₁, hdb, hended⟩ := get_current h hdistinct hclean hparse hclock
        rw [hget] at hs
        cases pc <;> first | (cases hs; exact ⟨hs₁, hdb⟩) | cases hended
      · rw [Classical.not_imp] at hclock
        rw [cachedEndpoint_of_past rfl hclock.1 hclock.2] at hs
        cases hs

theorem postStep_cases {s s' : Site Store Page} {data : EventCategoryCreateSchema} {at_ : Instant}
    (hs : postStep manager data at_ s = some s') :
    (∃ category db, created s data at_.now = some category ∧
      db.db = insertEventCategory category s.db.db ∧
      s' = ((s.commit fun _ => db).tick at_.millis).announce Endpoint.adminCategories.tag
        at_.millis (s.commits + 1)) ∨
    (∃ db, created s data at_.now = none ∧ db.db = s.db.db ∧ s' = { s with db := db }) := by
  have hdb := createCategory_db s.db data at_.now
  unfold postStep at hs
  unfold created
  cases hcreate : createCategory s.db data at_.now with
  | mk db pc =>
      rw [hcreate] at hs hdb
      cases pc with
      | finished result =>
          cases result with
          | ok category =>
              refine .inl ⟨category, db, rfl, hdb, ?_⟩
              dsimp only at hs
              by_cases hclock : s.clock ≤ at_.millis
              · rw [invalidatesCache_eq (s := s.commit fun _ => db) hclock] at hs
                cases hs
                rfl
              · rw [invalidatesCache_of_past (s := s.commit fun _ => db) hclock] at hs
                cases hs
          | error e =>
              cases hs
              exact .inr ⟨db, rfl, hdb, rfl⟩
      | _ => cases hs

theorem Coherent.post {s s' : Site Store Page} (h : Coherent manager md5 parse precedes queries s)
    {data : EventCategoryCreateSchema} {at_ : Instant}
    (hclean : Clean manager queries s (.post data at_))
    (hs : postStep manager data at_ s = some s') :
    Coherent manager md5 parse precedes queries s' := by
  rcases postStep_cases hs with ⟨category, db, hcreated, -, rfl⟩ | ⟨db, -, hdb, rfl⟩
  · obtain ⟨hadmin, hevents⟩ := hclean (by rw [hcreated]; exact Option.some_ne_none _)
    exact h.created hadmin hevents
  · exact h.failed hdb

theorem Coherent.step {s s' : Site Store Page} (h : Coherent manager md5 parse precedes queries s)
    (hdistinct : Distinct md5 parse queries) {op : Op} (hclean : Clean manager queries s op)
    (hs : step manager md5 parse precedes s op = some s') :
    Coherent manager md5 parse precedes queries s' := by
  cases op with
  | get endpoint q at_ => exact (h.get hdistinct hclean hs).1
  | post data at_ => exact h.post hclean hs
  | evict key =>
      cases hs
      exact h.evict key

/-- No request removes a category. -/
theorem categories_step {s s' : Site Store Page} (h : Coherent manager md5 parse precedes queries s)
    (hdistinct : Distinct md5 parse queries) {op : Op} (hclean : Clean manager queries s op)
    (hs : CachedListing.step manager md5 parse precedes s op = some s') :
    s.db.db.eventCategories ⊆ s'.db.db.eventCategories := by
  cases op with
  | get endpoint q at_ =>
      rw [(h.get hdistinct hclean hs).2]
      exact fun _ hmem => hmem
  | post data at_ =>
      rcases postStep_cases hs with ⟨category, db, -, hdb, rfl⟩ | ⟨db, -, hdb, rfl⟩
      · show _ ⊆ db.db.eventCategories
        rw [hdb]
        exact List.subset_append_left _ _
      · show _ ⊆ db.db.eventCategories
        rw [hdb]
        exact fun _ hmem => hmem
  | evict key =>
      cases hs
      exact fun _ hmem => hmem

/-! ## Runs -/

theorem coherent_empty {s : Site Store Page} (h : s.cache = []) :
    Coherent manager md5 parse precedes queries s where
  entries := by
    rw [h]
    intro key r hmem
    cases hmem
  current := by
    intro endpoint v _ entry hentry
    rw [h] at hentry
    cases hentry

theorem coherent_run {s₀ s : Site Store Page} (hempty : s₀.cache = [])
    (hdistinct : Distinct md5 parse queries)
    (hrun : Run (step manager md5 parse precedes) (Clean manager queries) s₀ s) :
    Coherent manager md5 parse precedes queries s :=
  hrun.invariant (fun _ _ _ h hclean hs => h.step hdistinct hclean hs) (coherent_empty hempty)

theorem categories_run {s s' : Site Store Page} (h : Coherent manager md5 parse precedes queries s)
    (hdistinct : Distinct md5 parse queries)
    (hrun : Run (step manager md5 parse precedes) (Clean manager queries) s s') :
    s.db.db.eventCategories ⊆ s'.db.db.eventCategories := by
  refine (hrun.invariant (I := fun t => Coherent manager md5 parse precedes queries t ∧
    s.db.db.eventCategories ⊆ t.db.db.eventCategories) (fun t u op ht hclean hs => ?_)
    ⟨h, fun _ hmem => hmem⟩).2
  exact ⟨ht.1.step hdistinct hclean hs,
    fun _ hmem => categories_step ht.1 hdistinct hclean hs (ht.2 hmem)⟩

theorem respond_current {s : Site Store Page} (h : Coherent manager md5 parse precedes queries s)
    (hdistinct : Distinct md5 parse queries) {endpoint : Endpoint} {q : QueryParams} {at_ : Instant}
    (hclean : Clean manager queries s (.get endpoint q at_)) {p : EventCategoryFilterParams}
    (hparse : parse q = some p) (hclock : s.clock ≤ at_.millis) :
    respond manager md5 parse precedes endpoint q at_ s =
      some (categoryListing precedes s.db.db p) := by
  obtain ⟨s', pc, hget, -, -, hended⟩ := get_current h hdistinct hclean hparse fun _ => hclock
  unfold respond
  rw [hparse]
  dsimp only
  rw [hget]
  cases pc with
  | responded r => exact congrArg some (Eq.symm hended)
  | raised e => exact congrArg some (Eq.symm hended)
  | _ => cases hended

/-- Both listings are the present one after every run, and a category that is
created stays in the database they are computed on. -/
theorem listings_current {s₀ s : Site Store Page} (hempty : s₀.cache = [])
    (hdistinct : Distinct md5 parse queries)
    (hrun : Run (step manager md5 parse precedes) (Clean manager queries) s₀ s) {q : QueryParams}
    {p : EventCategoryFilterParams} (hparse : parse q = some p) :
    (∀ endpoint at_, Clean manager queries s (.get endpoint q at_) → s.clock ≤ at_.millis → ∀ now,
      respond manager md5 parse precedes endpoint q at_ s =
        some (EventService.getCategories precedes now s.db.db p)) ∧
    ∀ t u data at_ category, Run (step manager md5 parse precedes) (Clean manager queries) s₀ t →
      Clean manager queries t (.post data at_) → created t data at_.now = some category →
      step manager md5 parse precedes t (.post data at_) = some u →
      Run (step manager md5 parse precedes) (Clean manager queries) u s →
      category ∈ s.db.db.eventCategories := by
  refine ⟨fun endpoint at_ hclean hclock now => ?_, ?_⟩
  · rw [getCategories_eq]
    exact respond_current (coherent_run hempty hdistinct hrun) hdistinct hclean hparse hclock
  · intro t u data at_ category ht hclean hcreated hpost hu
    have hcoherent := (coherent_run hempty hdistinct ht).step hdistinct hclean hpost
    refine categories_run hcoherent hdistinct hu ?_
    rcases postStep_cases hpost with ⟨category', db, hcreated', hdb, rfl⟩ | ⟨db, hnone, -, -⟩
    · rw [hcreated, Option.some.injEq] at hcreated'
      show category ∈ db.db.eventCategories
      rw [hdb, hcreated']
      exact List.mem_append_right _ (List.mem_singleton_self _)
    · rw [hcreated] at hnone
      cases hnone

end Invariant

/-! ## A catalogue -/

def digest (text : String) : QueryHash :=
  if text = "/admin/categories?" then ⟨"e10a56cf49a95e19f8ecabf0f5f84d56", by decide⟩
  else ⟨"1ef810de67828db03e95430e81c86405", by decide⟩

def readNothing (query : QueryParams) : Option EventCategoryFilterParams :=
  if query = [] then some {} else none

def anyOrder : Option Value → Option Value → Bool := fun _ _ => true

def catalogue : Site Store Page where
  db := { db := { eventCategories := [⟨1, "music", none⟩] }, seq := { eventCategories := 2 } }

def music : EventCategoryResponse := ⟨1, "music", none, none, none⟩
def jazz : EventCategoryResponse := ⟨2, "jazz", none, none, none⟩

def withJazz : EventCategoryCreateSchema := ⟨"jazz", none⟩

/-- The public listing is forgotten before the creation, and both list the new
category. -/
def forgotten : List Op :=
  [.get .adminCategories [] ⟨0, 5⟩, .get .eventCategories [] ⟨0, 5⟩,
    .get .eventCategories [] ⟨0, 5⟩, .evict (getVersionKey Endpoint.eventCategories.tag),
    .post withJazz ⟨0, 6⟩]

theorem listings_current_catalogue :
    ∃ s, Run (step .redis digest readNothing anyOrder) (Clean .redis [[]]) catalogue s ∧
      ∀ endpoint, respond .redis digest readNothing anyOrder endpoint [] ⟨0, 7⟩ s =
        some (EventService.getCategories anyOrder 0 s.db.db {}) := by
  have hrun : ((runGuarded (step .redis digest readNothing anyOrder) (Clean .redis [[]]) catalogue
      forgotten).map fun s =>
        (decide (s.clock ≤ 7), decide (Clean .redis [[]] s (.get .adminCategories [] ⟨0, 7⟩)),
          decide (Clean .redis [[]] s (.get .eventCategories [] ⟨0, 7⟩)))) =
      some (true, true, true) := by
    decide
  obtain ⟨s, hs, hfacts⟩ := Option.map_eq_some_iff.mp hrun
  simp only [Prod.mk.injEq, decide_eq_true_eq] at hfacts
  obtain ⟨hclock, hadmin, hevents⟩ := hfacts
  have hdistinct : Distinct digest readNothing [[]] := by
    intro endpoint q hq q' hq' _
    rw [List.mem_singleton.mp hq, List.mem_singleton.mp hq']
  have hcurrent := (listings_current (q := []) (p := {}) rfl hdistinct (.of_runGuarded hs) rfl).1
  refine ⟨s, .of_runGuarded hs, fun endpoint => ?_⟩
  cases endpoint with
  | adminCategories => exact hcurrent _ _ hadmin hclock 0
  | eventCategories => exact hcurrent _ _ hevents hclock 0

/-- The public listing is read twice, which stores it under its version as it is read
back, the category created, and the public listing read again. -/
theorem created_category_hidden :
    ∃ s, Run (step .redis digest readNothing anyOrder) anyOp catalogue s ∧ catalogue.cache = [] ∧
      Distinct digest readNothing [[]] ∧
      respond .redis digest readNothing anyOrder .adminCategories [] ⟨0, 7⟩ s =
        some (EventService.getCategories anyOrder 0 s.db.db {}) ∧
      EventService.getCategories anyOrder 0 s.db.db {} = .ok ⟨2, 10, [music, jazz]⟩ ∧
      respond .redis digest readNothing anyOrder .eventCategories [] ⟨0, 7⟩ s =
        some (.ok ⟨1, 10, [music]⟩) := by
  have hrun : ((runAll (step .redis digest readNothing anyOrder) catalogue
      [.get .eventCategories [] ⟨0, 5⟩, .get .eventCategories [] ⟨0, 5⟩,
        .post withJazz ⟨0, 6⟩]).map fun s =>
        (respond .redis digest readNothing anyOrder .adminCategories [] ⟨0, 7⟩ s,
          EventService.getCategories anyOrder 0 s.db.db {},
          respond .redis digest readNothing anyOrder .eventCategories [] ⟨0, 7⟩ s)) =
      some (some (.ok ⟨2, 10, [music, jazz]⟩), .ok ⟨2, 10, [music, jazz]⟩,
        some (.ok ⟨1, 10, [music]⟩)) := by
    decide
  obtain ⟨s, hs, hfacts⟩ := Option.map_eq_some_iff.mp hrun
  simp only [Prod.mk.injEq] at hfacts
  obtain ⟨hadmin, hcurrent, hevents⟩ := hfacts
  refine ⟨s, .of_runAll hs, rfl, ?_, ?_, hcurrent, hevents⟩
  · intro endpoint q hq q' hq' _
    rw [List.mem_singleton.mp hq, List.mem_singleton.mp hq']
  · rw [hadmin, hcurrent]

end TicketBooking.Catalog.CachedListing
