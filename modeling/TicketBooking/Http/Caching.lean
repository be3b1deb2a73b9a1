import Mathlib.Data.List.Sort
import Mathlib.Data.String.Basic
import TicketBooking.Library.Dict
import TicketBooking.Library.Sessions
import TicketBooking.Library.Texts
/-!
# Cached endpoints

`cached_endpoint` and `invalidates_cache`: the keys of the cache, and the
statements of the two wrappers over the cache, the clock and the database.  A
response is stored under the versions its endpoint's tags had when the request
was looked up; a mutation gives its tags a new version, which is the present
millisecond.  A version that is read back from Redis is another text than the one
it was written as.
-/

namespace TicketBooking.Http.Caching

open TicketBooking.Library TicketBooking.Library.Sessions

/-! ## Keys -/

/-- A tag has no colon in it. -/
structure Tag where
  name : String
  plain : ':' ∉ name.toList
  deriving DecidableEq, Repr

inductive CacheTag
  | adminEventCategories
  | eventCategories
  | categoriesByEventId
  | upcomingEvents
  deriving DecidableEq, Repr

def CacheTag.value : CacheTag → String
  | .adminEventCategories => "admin_event_categories"
  | .eventCategories => "event_categories"
  | .categoriesByEventId => "category_by_event_id"
  | .upcomingEvents => "upcoming_events"

def CacheTag.tag (t : CacheTag) : Tag where
  name := t.value
  plain := by cases t <;> decide

/-- A digest in hexadecimal. -/
structure QueryHash where
  hex : String
  plain : ':' ∉ hex.toList
  deriving DecidableEq, Repr

/-- A version in milliseconds: the `str` it is made as, or the `bytes` it comes back
as from a client that does not decode its responses. -/
inductive Version
  | str (millis : Nat)
  | bytes (millis : Nat)
  deriving DecidableEq, Repr

namespace Version

def millis : Version → Nat
  | .str millis => millis
  | .bytes millis => millis

def text : Version → String
  | .str millis => toString millis
  | .bytes millis => "b'" ++ toString millis ++ "'"

end Version

/-- `CacheManagerFactory` takes the first one in tests and the second one else. -/
inductive Manager
  | inMemory
  | redis
  deriving DecidableEq, Repr

def Manager.readBack : Manager → Nat → Version
  | .inMemory, millis => .str millis
  | .redis, millis => .bytes millis

@[simp] theorem Manager.millis_readBack (manager : Manager) (millis : Nat) :
    (manager.readBack millis).millis = millis := by
  cases manager <;> rfl

def getVersionKey (tag : Tag) : String := tag.name ++ ":version"

/-- The versions of the tags in the order of their names. -/
def tagsVersions (tags : List Tag) (versions : List (Tag × Version)) : List (Tag × Version) :=
  (tags.insertionSort fun t t' => t.name ≤ t'.name).map fun t =>
    (t, (Dict.get t versions).getD (.str 0))

def versionPart (under : List (Tag × Version)) : String :=
  "_".intercalate (under.map fun tv => tv.1.name ++ ":" ++ tv.2.text)

def cacheKey (under : List (Tag × Version)) (queryHash : QueryHash) : String :=
  "cache:" ++ versionPart under ++ ":" ++ queryHash.hex

def getCompositeCacheKey (tags : List Tag) (versions : List (Tag × Version))
    (queryHash : QueryHash) : String :=
  cacheKey (tagsVersions tags versions) queryHash

theorem getVersionKey_injective {t t' : Tag} (h : getVersionKey t = getVersionKey t') : t = t' := by
  have hname : t.name = t'.name := String.append_left_inj _ |>.mp h
  cases t
  cases t'
  cases hname
  rfl

theorem underscore_notMem_text (v : Version) : '_' ∉ v.text.toList := by
  cases v <;> simp [Version.text]

theorem Version.text_injective : Function.Injective Version.text := by
  -- a number has no quote in it
  have hrepr : ∀ m n : Nat, (Version.str m).text ≠ (Version.bytes n).text := by
    intro m n h
    have hquote : '\'' ∈ (Version.str m).text.toList := by
      rw [h]
      simp [Version.text]
    exact absurd (Texts.isDigit_of_mem_repr hquote) (by decide)
  intro v v' h
  cases v with
  | str m =>
      cases v' with
      | str n => exact congrArg Version.str (Texts.repr_injective h)
      | bytes n => exact absurd h (hrepr m n)
  | bytes m =>
      cases v' with
      | str n => exact absurd h.symm (hrepr n m)
      | bytes n =>
          have hrest : toString m ++ "'" = toString n ++ "'" := by
            simpa [Version.text, String.append_assoc] using h
          exact congrArg Version.bytes
            (Texts.repr_injective (String.append_left_inj _ |>.mp hrest))

/-- The text of one tag's version, followed by more of the key or not, gives back
the tag and the version. -/
theorem version_inj {t t' : Tag} {v v' : Version} {rest rest' : List Char}
    (h : t.name.toList ++ ':' :: v.text.toList ++ '_' :: rest =
      t'.name.toList ++ ':' :: v'.text.toList ++ '_' :: rest') :
    t = t' ∧ v = v' ∧ rest = rest' := by
  rw [List.append_assoc, List.append_assoc, List.cons_append, List.cons_append] at h
  obtain ⟨hname, hrest⟩ := Texts.sep_append_inj t.plain t'.plain h
  obtain ⟨hversion, hrest⟩ := Texts.sep_append_inj (underscore_notMem_text v)
    (underscore_notMem_text v') hrest
  have hv : v = v' := Version.text_injective (String.toList_injective hversion)
  refine ⟨?_, hv, hrest⟩
  cases t
  cases t'
  cases String.toList_injective hname
  rfl

/-- The text of the versions with an underscore after the last one too. -/
def versionChars (under : List (Tag × Version)) : List Char :=
  under.flatMap fun tv => tv.1.name.toList ++ ':' :: tv.2.text.toList ++ ['_']

theorem versionChars_cons (tv : Tag × Version) (under : List (Tag × Version)) :
    versionChars (tv :: under) =
      tv.1.name.toList ++ ':' :: tv.2.text.toList ++ '_' :: versionChars under := by
  simp [versionChars]

theorem versionPart_cons (tv : Tag × Version) {under : List (Tag × Version)} (h : under ≠ []) :
    versionPart (tv :: under) = tv.1.name ++ ":" ++ tv.2.text ++ "_" ++ versionPart under := by
  unfold versionPart
  rw [List.map_cons, String.intercalate_cons_of_ne_nil (by simpa using h)]

theorem versionChars_eq {under : List (Tag × Version)} (h : under ≠ []) :
    versionChars under = (versionPart under).toList ++ ['_'] := by
  induction under with
  | nil => exact absurd rfl h
  | cons tv under ih =>
      by_cases hnil : under = []
      · subst hnil
        simp [versionChars, versionPart]
      · rw [versionChars_cons, ih hnil, versionPart_cons tv hnil]
        simp

theorem versionChars_injective {under under' : List (Tag × Version)}
    (h : versionChars under = versionChars under') : under = under' := by
  induction under generalizing under' with
  | nil =>
      cases under' with
      | nil => rfl
      | cons tv' under' => simp [versionChars] at h
  | cons tv under ih =>
      cases under' with
      | nil => simp [versionChars] at h
      | cons tv' under' =>
          rw [versionChars_cons, versionChars_cons] at h
          obtain ⟨htag, hversion, hrest⟩ := version_inj h
          rw [Prod.ext htag hversion, ih hrest]

theorem versionPart_injective {under under' : List (Tag × Version)}
    (h : versionPart under = versionPart under') : under = under' := by
  have hempty : ∀ {tvs : List (Tag × Version)}, versionPart tvs = "" → tvs = [] := by
    intro tvs htext
    by_contra hne
    have hchars := versionChars_eq hne
    rw [htext] at hchars
    obtain ⟨tv, tvs, rfl⟩ := List.exists_cons_of_ne_nil hne
    have hcolon : ':' ∈ versionChars (tv :: tvs) := by simp [versionChars_cons]
    rw [hchars] at hcolon
    exact absurd hcolon (by decide)
  by_cases hnil : under = []
  · subst hnil
    rw [hempty h.symm]
  · by_cases hnil' : under' = []
    · subst hnil'
      exact hempty h
    · refine versionChars_injective ?_
      rw [versionChars_eq hnil, versionChars_eq hnil', h]

/-- The key of a response determines the versions and the query it was stored
under. -/
theorem cacheKey_injective {under under' : List (Tag × Version)} {queryHash queryHash' : QueryHash}
    (h : cacheKey under queryHash = cacheKey under' queryHash') :
    under = under' ∧ queryHash = queryHash' := by
  obtain ⟨hpart, hhex⟩ := Texts.append_char_inj queryHash.plain queryHash'.plain h
  refine ⟨versionPart_injective (String.append_right_inj _ |>.mp hpart), ?_⟩
  cases queryHash
  cases queryHash'
  cases hhex
  rfl

/-- A version is never stored where a response is. -/
theorem getVersionKey_ne_cacheKey (tag : Tag) (under : List (Tag × Version))
    (queryHash : QueryHash) : getVersionKey tag ≠ cacheKey under queryHash := by
  intro h
  have hname : tag.name = "cache:" ++ versionPart under ∧ "version" = queryHash.hex :=
    Texts.append_char_inj (by decide) queryHash.plain
      (by rw [String.append_assoc]; exact h)
  refine tag.plain ?_
  rw [hname.1]
  simp

theorem mem_tagsVersions {tags : List Tag} {versions : List (Tag × Version)} {t : Tag} {v : Version}
    (ht : t ∈ tags) (hv : Dict.get t versions = some v) : (t, v) ∈ tagsVersions tags versions := by
  unfold tagsVersions
  refine List.mem_map.mpr ⟨t, (List.mem_insertionSort _).mpr ht, ?_⟩
  rw [hv]
  rfl

/-! ## The cache, the clock and the database -/

variable {D B E : Type}

/-- A response, the number of commits its database state had seen, and the
versions it is stored under. -/
structure Response (B : Type) where
  body : B
  asOf : Nat
  under : List (Tag × Version)
  deriving DecidableEq, Repr

inductive Stored (B : Type)
  | version (millis : Nat)
  | response (r : Response B)
  deriving DecidableEq, Repr

/-- The clock is its last reading in milliseconds.  The number of commits, and for
each tag the latest commit whose mutation has written its version, are kept for
the statements about the wrappers only. -/
structure Site (D B : Type) where
  cache : List (String × Stored B) := []
  clock : Nat := 0
  db : D
  commits : Nat := 0
  announced : Tag → Nat := fun _ => 0

namespace Site

def version (s : Site D B) (t : Tag) : Option Nat :=
  match Dict.get (getVersionKey t) s.cache with
  | some (.version v) => some v
  | _ => none

def lookup (s : Site D B) (key : String) : Option (Response B) :=
  match Dict.get key s.cache with
  | some (.response r) => some r
  | _ => none

def tick (now : Nat) (s : Site D B) : Site D B := { s with clock := now }

def setVersion (t : Tag) (v : Nat) (s : Site D B) : Site D B :=
  { s with cache := Dict.set (getVersionKey t) (.version v) s.cache }

def store (key : String) (r : Response B) (s : Site D B) : Site D B :=
  { s with cache := Dict.set key (.response r) s.cache }

/-- An entry expires or is evicted. -/
def evict (key : String) (s : Site D B) : Site D B := { s with cache := Dict.erase key s.cache }

def commit (write : D → D) (s : Site D B) : Site D B :=
  { s with db := write s.db, commits := s.commits + 1 }

/-- A mutation of commit `n` writes its version. -/
def announce (t : Tag) (v n : Nat) (s : Site D B) : Site D B :=
  { s.setVersion t v with
    announced := Function.update s.announced t (max (s.announced t) n) }

theorem version_setVersion (s : Site D B) (t t' : Tag) (v : Nat) :
    (s.setVersion t v).version t' = if t = t' then some v else s.version t' := by
  unfold version setVersion
  rw [Dict.get_set]
  by_cases h : t = t'
  · rw [if_pos (congrArg getVersionKey h), if_pos h]
  · rw [if_neg fun hkey => h (getVersionKey_injective hkey), if_neg h]

@[simp] theorem version_announce (s : Site D B) (t t' : Tag) (v n : Nat) :
    (s.announce t v n).version t' = (s.setVersion t v).version t' := rfl

theorem version_store (s : Site D B) (t : Tag) (under : List (Tag × Version))
    (queryHash : QueryHash) (r : Response B) :
    (s.store (cacheKey under queryHash) r).version t = s.version t := by
  unfold version store
  rw [Dict.get_set, if_neg fun hkey => getVersionKey_ne_cacheKey t under queryHash hkey.symm]

theorem version_of_evict {s : Site D B} {key : String} {t : Tag} {v : Nat}
    (h : (s.evict key).version t = some v) : s.version t = some v := by
  unfold version evict at h
  rw [Dict.get_erase] at h
  split_ifs at h
  exact h

theorem mem_of_lookup {s : Site D B} {key : String} {r : Response B} (h : s.lookup key = some r) :
    (key, .response r) ∈ s.cache := by
  unfold lookup at h
  split at h
  · rename_i r' hget
    cases h
    exact Dict.mem_of_get hget
  · cases h

theorem le_announced (s : Site D B) (t t' : Tag) (v n : Nat) :
    s.announced t' ≤ (s.announce t v n).announced t' := by
  by_cases h : t' = t
  · subst h
    simp [announce]
  · simp [announce, Function.update_of_ne h]

theorem announced_le {s : Site D B} {t : Tag} {n : Nat} {b : Nat} (h : ∀ t, s.announced t ≤ b)
    (hn : n ≤ b) (v : Nat) (t' : Tag) : (s.announce t v n).announced t' ≤ b := by
  by_cases ht : t' = t
  · subst ht
    simpa [announce] using ⟨h t', hn⟩
  · simpa [announce, Function.update_of_ne ht] using h t'

end Site

/-! ## The wrappers -/

/-- A call of a cached endpoint: its tags, the hash of the request, what the
endpoint computes from the database, and which of its exceptions are
`ServiceException`s. -/
structure ReadCall (D B E : Type) where
  tags : List Tag
  queryHash : QueryHash
  handler : D → Except E B
  service : E → Bool

/-- Versions that are written one by one carry their tags. -/
inductive Pc (D B E : Type)
  | called (call : ReadCall D B E)
  | versioning (call : ReadCall D B E) (versions : List (Tag × Version))
      (missing : List (Tag × Nat)) (todo : List (Tag × Option Version))
  | filling (call : ReadCall D B E) (versions : List (Tag × Version))
      (missing : List (Tag × Nat))
  | querying (call : ReadCall D B E) (versions : List (Tag × Version))
  | storing (call : ReadCall D B E) (r : Response B)
  | stored (call : ReadCall D B E) (r : Response B)
  | bypassing (call : ReadCall D B E)
  | responded (r : Response B)
  | raised (e : E)
  | mutating (tags : List Tag) (commit : Nat)
  | returned (tags : List Tag) (commit : Nat)
  | invalidating (commit : Nat) (done : List Tag) (todo : List (Tag × Nat))
  | invalidated (commit : Nat) (done : List Tag)
  | mutationRaised
  | storage

/-- `run now` is the next statement of a wrapper, at a time the clock is read; the
others are what a mutation's function, the cache and its storage do. -/
inductive Act (D : Type)
  | run (now : Nat)
  | commit (write : D → D)
  | returns
  | raises
  | fail
  | evict (key : String)

def cachingStep {ι : Type} (manager : Manager) :
    Protocol ι (Site D B) Empty (Pc D B E) (Act D)
  | _, s, .called call, .run _ =>
      some (.stay, .versioning call [] []
        (call.tags.map fun t => (t, (s.version t).map manager.readBack)))
  | _, _, .versioning call versions missing ((t, some v) :: todo), .run _ =>
      some (.stay, .versioning call (Dict.set t v versions) missing todo)
  | _, s, .versioning call versions missing ((t, none) :: todo), .run now =>
      if s.clock ≤ now then
        some (.emit (Site.tick now),
          .versioning call (Dict.set t (.str now) versions) (Dict.set t now missing) todo)
      else none
  | _, _, .versioning call versions missing [], .run _ =>
      some (.stay, .filling call versions missing)
  | _, _, .filling call versions ((t, v) :: missing), .run _ =>
      some (.emit (Site.setVersion t v), .filling call versions missing)
  | _, s, .filling call versions [], .run _ =>
      match s.lookup (getCompositeCacheKey call.tags versions call.queryHash) with
      | some r => some (.stay, .responded r)
      | none => some (.stay, .querying call versions)
  | _, s, .querying call versions, .run _ =>
      match call.handler s.db with
      | .ok body =>
          some (.stay, .storing call ⟨body, s.commits, tagsVersions call.tags versions⟩)
      | .error e => some (.stay, if call.service e then .raised e else .bypassing call)
  | _, _, .storing call r, .run _ =>
      some (.emit (Site.store (cacheKey r.under call.queryHash) r), .stored call r)
  | _, _, .stored _ r, .run _ => some (.stay, .responded r)
  -- the function is called without the cache
  | _, s, .bypassing call, .run _ =>
      match call.handler s.db with
      | .ok body => some (.stay, .responded ⟨body, s.commits, []⟩)
      | .error e => some (.stay, .raised e)
  | _, _, .called call, .fail => some (.stay, .bypassing call)
  | _, _, .filling call _ _, .fail => some (.stay, .bypassing call)
  | _, _, .storing call _, .fail => some (.stay, .bypassing call)
  | _, _, .stored call _, .fail => some (.stay, .bypassing call)
  | _, s, .mutating tags _, .commit write =>
      some (.emit (Site.commit write), .mutating tags (s.commits + 1))
  | _, _, .mutating tags n, .returns => some (.stay, .returned tags n)
  | _, _, .mutating _ _, .raises => some (.stay, .mutationRaised)
  | _, s, .returned tags n, .run now =>
      if s.clock ≤ now then
        some (.emit (Site.tick now),
          .invalidating n [] (Dict.ofList (fun t => t) (fun _ => now) tags))
      else none
  | _, _, .invalidating n done ((t, v) :: todo), .run _ =>
      some (.emit (Site.announce t v n), .invalidating n (t :: done) todo)
  | _, _, .invalidating n done [], .run _ => some (.stay, .invalidated n done)
  | _, _, .returned _ n, .fail => some (.stay, .invalidated n [])
  | _, _, .invalidating n done _, .fail => some (.stay, .invalidated n done)
  | _, _, .storage, .evict key => some (.emit (Site.evict key), .storage)
  | _, _, _, _ => none

/-- The statements of the wrappers. -/
inductive CachingStep (manager : Manager) (s : Site D B) :
    Pc D B E → Act D → Effect (Site D B) Empty → Pc D B E → Prop
  | getVersions {call : ReadCall D B E} {now : Nat} :
      CachingStep manager s (.called call) (.run now) .stay
        (.versioning call [] [] (call.tags.map fun t => (t, (s.version t).map manager.readBack)))
  | known {call : ReadCall D B E} {versions : List (Tag × Version)} {missing : List (Tag × Nat)}
      {t : Tag} {v : Version} {now : Nat} {todo : List (Tag × Option Version)} :
      CachingStep manager s (.versioning call versions missing ((t, some v) :: todo)) (.run now)
        .stay (.versioning call (Dict.set t v versions) missing todo)
  | stamp {call : ReadCall D B E} {versions : List (Tag × Version)} {missing : List (Tag × Nat)}
      {t : Tag} {now : Nat} {todo : List (Tag × Option Version)} (hclock : s.clock ≤ now) :
      CachingStep manager s (.versioning call versions missing ((t, none) :: todo)) (.run now)
        (.emit (Site.tick now))
        (.versioning call (Dict.set t (.str now) versions) (Dict.set t now missing) todo)
  | gathered {call : ReadCall D B E} {versions : List (Tag × Version)}
      {missing : List (Tag × Nat)} {now : Nat} :
      CachingStep manager s (.versioning call versions missing []) (.run now) .stay
        (.filling call versions missing)
  | fill {call : ReadCall D B E} {versions : List (Tag × Version)} {missing : List (Tag × Nat)}
      {t : Tag} {v now : Nat} :
      CachingStep manager s (.filling call versions ((t, v) :: missing)) (.run now)
        (.emit (Site.setVersion t v)) (.filling call versions missing)
  | hit {call : ReadCall D B E} {versions : List (Tag × Version)} {now : Nat} {r : Response B}
      (hlookup : s.lookup (getCompositeCacheKey call.tags versions call.queryHash) = some r) :
      CachingStep manager s (.filling call versions []) (.run now) .stay (.responded r)
  | miss {call : ReadCall D B E} {versions : List (Tag × Version)} {now : Nat}
      (hlookup : s.lookup (getCompositeCacheKey call.tags versions call.queryHash) = none) :
      CachingStep manager s (.filling call versions []) (.run now) .stay (.querying call versions)
  | query {call : ReadCall D B E} {versions : List (Tag × Version)} {now : Nat} {body : B}
      (hbody : call.handler s.db = .ok body) :
      CachingStep manager s (.querying call versions) (.run now) .stay
        (.storing call ⟨body, s.commits, tagsVersions call.tags versions⟩)
  | reraise {call : ReadCall D B E} {versions : List (Tag × Version)} {now : Nat} {e : E}
      (herror : call.handler s.db = .error e) :
      CachingStep manager s (.querying call versions) (.run now) .stay (.raised e)
  | retry {call : ReadCall D B E} {versions : List (Tag × Version)} {now : Nat} {e : E}
      (herror : call.handler s.db = .error e) :
      CachingStep manager s (.querying call versions) (.run now) .stay (.bypassing call)
  | store {call : ReadCall D B E} {r : Response B} {now : Nat} :
      CachingStep manager s (.storing call r) (.run now)
        (.emit (Site.store (cacheKey r.under call.queryHash) r)) (.stored call r)
  | respond {call : ReadCall D B E} {r : Response B} {now : Nat} :
      CachingStep manager s (.stored call r) (.run now) .stay (.responded r)
  | bypass {call : ReadCall D B E} {now : Nat} {body : B} (hbody : call.handler s.db = .ok body) :
      CachingStep manager s (.bypassing call) (.run now) .stay (.responded ⟨body, s.commits, []⟩)
  | bypassRaises {call : ReadCall D B E} {now : Nat} {e : E}
      (herror : call.handler s.db = .error e) :
      CachingStep manager s (.bypassing call) (.run now) .stay (.raised e)
  | fail {call : ReadCall D B E} {pc : Pc D B E} :
      CachingStep manager s pc .fail .stay (.bypassing call)
  | commit {tags : List Tag} {n : Nat} {write : D → D} :
      CachingStep manager s (.mutating tags n) (.commit write) (.emit (Site.commit write))
        (.mutating tags (s.commits + 1))
  | returns {tags : List Tag} {n : Nat} :
      CachingStep manager s (.mutating tags n) .returns .stay (.returned tags n)
  | raises {tags : List Tag} {n : Nat} :
      CachingStep manager s (.mutating tags n) .raises .stay .mutationRaised
  | newVersion {tags : List Tag} {n now : Nat} (hclock : s.clock ≤ now) :
      CachingStep manager s (.returned tags n) (.run now) (.emit (Site.tick now))
        (.invalidating n [] (Dict.ofList (fun t => t) (fun _ => now) tags))
  | announce {n : Nat} {done : List Tag} {t : Tag} {v now : Nat} {todo : List (Tag × Nat)} :
      CachingStep manager s (.invalidating n done ((t, v) :: todo)) (.run now)
        (.emit (Site.announce t v n)) (.invalidating n (t :: done) todo)
  | announced {n : Nat} {done : List Tag} {now : Nat} :
      CachingStep manager s (.invalidating n done []) (.run now) .stay (.invalidated n done)
  | failReturned {tags : List Tag} {n : Nat} :
      CachingStep manager s (.returned tags n) .fail .stay (.invalidated n [])
  | failInvalidating {n : Nat} {done : List Tag} {todo : List (Tag × Nat)} :
      CachingStep manager s (.invalidating n done todo) .fail .stay (.invalidated n done)
  | evict {key : String} :
      CachingStep manager s .storage (.evict key) (.emit (Site.evict key)) .storage

theorem cachingStep_cases {ι : Type} {manager : Manager} {i : ι} {s : Site D B}
    {pc pc' : Pc D B E} {a : Act D} {eff : Effect (Site D B) Empty}
    (h : cachingStep manager i s pc a = some (eff, pc')) : CachingStep manager s pc a eff pc' := by
  unfold cachingStep at h
  repeat' split at h
  all_goals cases h
  all_goals constructor <;> assumption

/-! ## One request at a time -/

/-- `generate_query_hash` of the path and the items of the query. -/
def rawQueryKey (path : String) (params : List (String × String)) : String :=
  path ++ "?" ++ "&".intercalate
    ((params.insertionSort fun a b => a.1 < b.1 ∨ a.1 = b.1 ∧ a.2 ≤ b.2).map fun kv =>
      kv.1 ++ "=" ++ kv.2)

/-- The separators are not escaped: a value can spell out another parameter. -/
example : rawQueryKey "/events/categories" [("name__icontains", "a&order_by=id")] =
    rawQueryKey "/events/categories" [("name__icontains", "a"), ("order_by", "id")] := by decide

/-- A request that no other overlaps, at the millisecond `ms`. -/
def cachedEndpoint (manager : Manager) (call : ReadCall D B E) (ms : Nat) (s : Site D B) :
    Site D B × Pc D B E :=
  solo (cachingStep manager) () (.run ms) 8 s (.called call)

/-- What follows the commit of a mutation that no other request overlaps. -/
def invalidatesCache (manager : Manager) (tags : List Tag) (ms : Nat) (s : Site D B) :
    Site D B × Pc D B E :=
  solo (cachingStep manager) () (.run ms) (tags.length + 2) s (.returned tags s.commits)

/-- The version a read of one tag is looked up under, and the cache with it. -/
def takeVersion (manager : Manager) (t : Tag) (ms : Nat) (s : Site D B) : Version × Site D B :=
  match s.version t with
  | some v => (manager.readBack v, s)
  | none => (.str ms, (s.tick ms).setVersion t ms)

def serve (call : ReadCall D B E) (under : List (Tag × Version)) (s : Site D B) :
    Site D B × Pc D B E :=
  match s.lookup (cacheKey under call.queryHash) with
  | some r => (s, .responded r)
  | none =>
      match call.handler s.db with
      | .ok body =>
          (s.store (cacheKey under call.queryHash) ⟨body, s.commits, under⟩,
            .responded ⟨body, s.commits, under⟩)
      | .error e => (s, .raised e)

section Single

variable {manager : Manager} {t : Tag} {call : ReadCall D B E} {ms : Nat} {s : Site D B}

theorem tagsVersions_single (t : Tag) (v : Version) : tagsVersions [t] [(t, v)] = [(t, v)] := by
  simp [tagsVersions, Dict.get]

theorem solo_filling (htags : call.tags = [t]) (v : Version) (n : Nat) :
    solo (cachingStep manager) () (.run ms) (n + 4) s (.filling call [(t, v)] []) =
      serve call [(t, v)] s := by
  have hunder : tagsVersions call.tags [(t, v)] = [(t, v)] := by
    rw [htags, tagsVersions_single]
  unfold serve
  cases hlookup : s.lookup (cacheKey [(t, v)] call.queryHash) with
  | some r =>
      have hhit : cachingStep manager () s (.filling call [(t, v)] []) (.run ms) =
          some (.stay, .responded r) := by
        simp only [cachingStep, getCompositeCacheKey, hunder, hlookup]
      rw [solo_step hhit, solo_of_none rfl]
      rfl
  | none =>
      have hmiss : cachingStep manager () s (.filling call [(t, v)] []) (.run ms) =
          some (.stay, .querying call [(t, v)]) := by
        simp only [cachingStep, getCompositeCacheKey, hunder, hlookup]
      rw [solo_step hmiss, Effect.apply_stay]
      cases hbody : call.handler s.db with
      | ok body =>
          have hquery : cachingStep manager () s (.querying call [(t, v)]) (.run ms) =
              some (.stay, .storing call ⟨body, s.commits, [(t, v)]⟩) := by
            simp only [cachingStep, hbody, hunder]
          rw [solo_step hquery, solo_step rfl, solo_step rfl, solo_of_none rfl]
          rfl
      | error e =>
          by_cases hservice : call.service e
          · have hraise : cachingStep manager () s (.querying call [(t, v)]) (.run ms) =
                some (.stay, .raised e) := by
              simp only [cachingStep, hbody, if_pos hservice]
            rw [solo_step hraise, solo_of_none rfl]
            rfl
          · have hretry : cachingStep manager () s (.querying call [(t, v)]) (.run ms) =
                some (.stay, .bypassing call) := by
              simp only [cachingStep, hbody, if_neg hservice]
            have hraise : cachingStep manager () s (.bypassing call) (.run ms) =
                some (.stay, .raised e) := by
              simp only [cachingStep, hbody]
            rw [solo_step hretry, Effect.apply_stay, solo_step hraise, solo_of_none rfl]
            rfl

theorem cachedEndpoint_eq (htags : call.tags = [t]) (hclock : s.version t = none → s.clock ≤ ms) :
    cachedEndpoint manager call ms s =
      serve call [(t, (takeVersion manager t ms s).1)] (takeVersion manager t ms s).2 := by
  have hcalled : cachingStep manager () s (.called call) (.run ms) =
      some (.stay, .versioning call [] [] [(t, (s.version t).map manager.readBack)]) := by
    simp only [cachingStep, htags, List.map_cons, List.map_nil]
  unfold cachedEndpoint takeVersion
  rw [solo_step hcalled, Effect.apply_stay]
  cases hversion : s.version t with
  | some v =>
      rw [solo_step rfl, solo_step rfl]
      exact solo_filling htags (manager.readBack v) 1
  | none =>
      have hstamp : cachingStep manager () s (.versioning call [] [] [(t, none)]) (.run ms) =
          some (.emit (Site.tick ms), .versioning call [(t, .str ms)] [(t, ms)] []) := by
        simp only [cachingStep, if_pos (hclock hversion)]
        rfl
      rw [Option.map_none, solo_step hstamp, solo_step rfl, solo_step rfl]
      exact solo_filling htags (.str ms) 0

theorem cachedEndpoint_of_past (htags : call.tags = [t]) (hversion : s.version t = none)
    (hclock : ¬ s.clock ≤ ms) :
    cachedEndpoint manager call ms s = (s, .versioning call [] [] [(t, none)]) := by
  have hcalled : cachingStep manager () s (.called call) (.run ms) =
      some (.stay, .versioning call [] [] [(t, none)]) := by
    simp only [cachingStep, htags, List.map_cons, List.map_nil, hversion, Option.map_none]
  have hstuck : cachingStep manager () s (.versioning call [] [] [(t, none)]) (.run ms) = none := by
    simp only [cachingStep, if_neg hclock]
  unfold cachedEndpoint
  rw [solo_step hcalled, Effect.apply_stay, solo_of_none hstuck]

theorem invalidatesCache_of_past {tags : List Tag} (hclock : ¬ s.clock ≤ ms) :
    invalidatesCache (E := E) manager tags ms s = (s, .returned tags s.commits) := by
  refine solo_of_none ?_ _
  simp only [cachingStep, if_neg hclock]

theorem invalidatesCache_eq (hclock : s.clock ≤ ms) :
    invalidatesCache (E := E) manager [t] ms s =
      ((s.tick ms).announce t ms s.commits, .invalidated s.commits [t]) := by
  have hversion : cachingStep manager () s (.returned [t] s.commits : Pc D B E) (.run ms) =
      some (.emit (Site.tick ms), .invalidating s.commits [] [(t, ms)]) := by
    simp only [cachingStep, if_pos hclock]
    rfl
  unfold invalidatesCache
  rw [List.length_singleton, solo_step hversion, solo_step rfl, solo_step rfl]
  rfl

end Single

end TicketBooking.Http.Caching
