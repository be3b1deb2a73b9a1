import Mathlib.Data.List.Nodup
import Mathlib.Logic.Equiv.Basic
import TicketBooking.Http.Caching
/-!
# Keys of queries

What `generate_query_hash` tells apart.  A query is the pairs of the query string,
decoded; the last value of a repeated name wins.  The digest is a parameter.
-/

namespace TicketBooking.Http.QueryKeys

open TicketBooking.Http.Caching TicketBooking.Library

/-- A GET request.  The path ends where the query starts. -/
structure Request where
  path : String
  query : List (String × String)
  plain : '?' ∉ path.toList
  deriving DecidableEq, Repr

/-- `request.query_params.items()`. -/
def Request.queryParams (r : Request) : List (String × String) :=
  Dict.ofList Prod.fst Prod.snd r.query

def Request.param (r : Request) (name : String) : Option String := Dict.get name r.queryParams

def generateQueryHash {Digest : Type} (md5 : String → Digest) (r : Request) : Digest :=
  md5 (rawQueryKey r.path r.queryParams)

/-- A handler cannot tell the two requests apart. -/
def SameQuery (r r' : Request) : Prop :=
  r.path = r'.path ∧ ∀ name, r.param name = r'.param name

/-- At most one parameter, without an equals sign of its own. -/
def Single (params : List (String × String)) : Prop :=
  params.length ≤ 1 ∧ ∀ kv ∈ params, '=' ∉ kv.1.toList ∧ '=' ∉ kv.2.toList

/-- No name contains a separator, and no value the one between the parameters. -/
def Plain (params : List (String × String)) : Prop :=
  ∀ kv ∈ params, '=' ∉ kv.1.toList ∧ '&' ∉ kv.1.toList ∧ '&' ∉ kv.2.toList

instance (params : List (String × String)) : Decidable (Single params) :=
  inferInstanceAs (Decidable (_ ∧ _))

instance (params : List (String × String)) : Decidable (Plain params) :=
  inferInstanceAs (Decidable (∀ kv ∈ params, _))

/-! ## The text of a query -/

def pairText (kv : String × String) : List Char := kv.1.toList ++ '=' :: kv.2.toList

/-- `params_str`, for pairs in their order. -/
def paramsText (pairs : List (String × String)) : List Char :=
  ['&'].intercalate (pairs.map pairText)

/-- `sorted(request.query_params.items())`. -/
def sortedParams (params : List (String × String)) : List (String × String) :=
  params.insertionSort fun a b => a.1 < b.1 ∨ a.1 = b.1 ∧ a.2 ≤ b.2

theorem toList_rawQueryKey (path : String) (params : List (String × String)) :
    (rawQueryKey path params).toList = path.toList ++ '?' :: paramsText (sortedParams params) := by
  have hpairs : (String.toList ∘ fun kv : String × String => kv.1 ++ "=" ++ kv.2) = pairText := by
    funext kv
    simp [pairText]
  rw [rawQueryKey, String.toList_append, String.toList_append, String.toList_intercalate,
    List.map_map, hpairs, List.append_assoc]
  rfl

theorem mem_sortedParams {params : List (String × String)} {kv : String × String} :
    kv ∈ sortedParams params ↔ kv ∈ params := List.mem_insertionSort _

theorem sortedParams_of_length_le_one {params : List (String × String)} (h : params.length ≤ 1) :
    sortedParams params = params := by
  match params with
  | [] => rfl
  | [kv] => rfl
  | _ :: _ :: _ =>
      simp only [List.length_cons] at h
      omega

theorem paramsText_cons (kv : String × String) {pairs : List (String × String)} (h : pairs ≠ []) :
    paramsText (kv :: pairs) = pairText kv ++ '&' :: paramsText pairs := by
  unfold paramsText
  rw [List.map_cons, List.intercalate_cons_of_ne_nil (by simpa using h)]
  simp

theorem count_pairText (kv : String × String) :
    (pairText kv).count '=' = kv.1.toList.count '=' + kv.2.toList.count '=' + 1 := by
  simp [pairText, List.count_append]
  omega

theorem length_le_count (pairs : List (String × String)) :
    pairs.length ≤ (paramsText pairs).count '=' := by
  induction pairs with
  | nil => simp
  | cons kv pairs ih =>
      by_cases hnil : pairs = []
      · subst hnil
        have hpair := count_pairText kv
        simp only [paramsText, List.map_cons, List.map_nil, List.intercalate_singleton,
          List.length_cons, List.length_nil]
        omega
      · have hpair := count_pairText kv
        rw [paramsText_cons kv hnil, List.count_append, List.count_cons_of_ne (by decide),
          List.length_cons]
        omega

theorem paramsText_eq_nil {pairs : List (String × String)} (h : paramsText pairs = []) :
    pairs = [] := by
  have hcount := length_le_count pairs
  rw [h, List.count_nil] at hcount
  exact List.eq_nil_of_length_eq_zero (by omega)

/-- The path and the text of the query are read off the key. -/
theorem rawQueryKey_inj {r r' : Request}
    (h : rawQueryKey r.path r.queryParams = rawQueryKey r'.path r'.queryParams) :
    r.path = r'.path ∧
      paramsText (sortedParams r.queryParams) = paramsText (sortedParams r'.queryParams) := by
  have hchars := congrArg String.toList h
  rw [toList_rawQueryKey, toList_rawQueryKey] at hchars
  obtain ⟨hpath, htext⟩ := Texts.sep_append_inj r.plain r'.plain hchars
  exact ⟨String.toList_injective hpath, htext⟩

theorem rawQueryKey_congr {path : String} {params params' : List (String × String)}
    (h : paramsText (sortedParams params) = paramsText (sortedParams params')) :
    rawQueryKey path params = rawQueryKey path params' := by
  apply String.toList_injective
  rw [toList_rawQueryKey, toList_rawQueryKey, h]

/-- Dictionaries with the same pairs are read alike. -/
theorem get_eq_of_sortedParams {params params' : List (String × String)}
    (hkeys : (params.map Prod.fst).Nodup) (hkeys' : (params'.map Prod.fst).Nodup)
    (h : sortedParams params = sortedParams params') (name : String) :
    Dict.get name params = Dict.get name params' := by
  have hmem : ∀ kv, kv ∈ params ↔ kv ∈ params' := by
    intro kv
    rw [← mem_sortedParams, h, mem_sortedParams]
  apply Option.ext
  intro value
  constructor
  · intro hget
    exact Dict.get_of_mem hkeys' ((hmem _).mp (Dict.mem_of_get hget))
  · intro hget
    exact Dict.get_of_mem hkeys ((hmem _).mpr (Dict.mem_of_get hget))

/-! ## Queries without separators -/

theorem pairText_injective {kv kv' : String × String} (hname : '=' ∉ kv.1.toList)
    (hname' : '=' ∉ kv'.1.toList) (h : pairText kv = pairText kv') : kv = kv' := by
  obtain ⟨hfst, hsnd⟩ := Texts.sep_append_inj hname hname' h
  exact Prod.ext (String.toList_injective hfst) (String.toList_injective hsnd)

theorem ampersand_notMem_pairText {kv : String × String} (hname : '&' ∉ kv.1.toList)
    (hvalue : '&' ∉ kv.2.toList) : '&' ∉ pairText kv := by
  intro h
  rcases List.mem_append.mp h with h | h
  · exact hname h
  · rcases List.mem_cons.mp h with h | h
    · exact absurd h (by decide)
    · exact hvalue h

theorem paramsText_injective {pairs pairs' : List (String × String)} (hpairs : Plain pairs)
    (hpairs' : Plain pairs') (h : paramsText pairs = paramsText pairs') : pairs = pairs' := by
  by_cases hnil : pairs = []
  · subst hnil
    exact (paramsText_eq_nil h.symm).symm
  by_cases hnil' : pairs' = []
  · subst hnil'
    exact paramsText_eq_nil h
  -- what stands between the ampersands are the pairs
  have hsplit : ∀ {ps : List (String × String)}, Plain ps → ps ≠ [] →
      (paramsText ps).splitOn '&' = ps.map pairText := by
    intro ps hps hne
    apply List.splitOn_intercalate '&' _ (by simpa using hne)
    intro text htext
    obtain ⟨kv, hkv, rfl⟩ := List.mem_map.mp htext
    exact ampersand_notMem_pairText (hps kv hkv).2.1 (hps kv hkv).2.2
  have htexts : pairs.map pairText = pairs'.map pairText := by
    rw [← hsplit hpairs hnil, ← hsplit hpairs' hnil', h]
  clear h hnil hnil' hsplit
  induction pairs generalizing pairs' with
  | nil => exact (List.map_eq_nil_iff.mp htexts.symm).symm
  | cons kv pairs ih =>
      cases pairs' with
      | nil => exact absurd htexts (by simp)
      | cons kv' pairs' =>
          rw [List.map_cons, List.map_cons, List.cons.injEq] at htexts
          have hkv : kv = kv' := pairText_injective (hpairs kv List.mem_cons_self).1
            (hpairs' kv' List.mem_cons_self).1 htexts.1
          have hrest : pairs = pairs' := ih (fun kv hkv => hpairs kv (List.mem_cons_of_mem _ hkv))
            (fun kv hkv => hpairs' kv (List.mem_cons_of_mem _ hkv)) htexts.2
          rw [hkv, hrest]

theorem plain_sortedParams {params : List (String × String)} (h : Plain params) :
    Plain (sortedParams params) := fun kv hkv => h kv (mem_sortedParams.mp hkv)

theorem nodup_queryParams (r : Request) : (r.queryParams.map Prod.fst).Nodup :=
  Dict.nodup_ofList r.query

theorem sameQuery_of_plain {r r' : Request} (hr : Plain r.queryParams) (hr' : Plain r'.queryParams)
    (h : rawQueryKey r.path r.queryParams = rawQueryKey r'.path r'.queryParams) :
    SameQuery r r' := by
  obtain ⟨hpath, htext⟩ := rawQueryKey_inj h
  have hsorted := paramsText_injective (plain_sortedParams hr) (plain_sortedParams hr') htext
  exact ⟨hpath, get_eq_of_sortedParams (nodup_queryParams r) (nodup_queryParams r') hsorted⟩

/-! ## One parameter -/

theorem eq_of_single {pairs pairs' : List (String × String)} (hsingle : Single pairs)
    (h : paramsText pairs = paramsText pairs') : pairs = pairs' := by
  match pairs, hsingle with
  | [], _ => exact (paramsText_eq_nil h.symm).symm
  | [kv], ⟨_, hplain⟩ =>
      obtain ⟨hname, hvalue⟩ := hplain kv List.mem_cons_self
      have hcount : (paramsText [kv]).count '=' = 1 := by
        have hpair := count_pairText kv
        rw [List.count_eq_zero_of_not_mem hname, List.count_eq_zero_of_not_mem hvalue] at hpair
        simpa [paramsText] using hpair
      have hlength := length_le_count pairs'
      rw [← h, hcount] at hlength
      match pairs', hlength with
      | [], _ => exact paramsText_eq_nil h
      | [kv'], _ =>
          have hpair : pairText kv = pairText kv' := by simpa [paramsText] using h
          have hpair' := count_pairText kv'
          rw [← hpair, count_pairText, List.count_eq_zero_of_not_mem hname,
            List.count_eq_zero_of_not_mem hvalue] at hpair'
          have hname' : '=' ∉ kv'.1.toList := List.count_eq_zero.mp (by omega)
          rw [pairText_injective hname hname' hpair]
  | _ :: _ :: _, ⟨hlength, _⟩ =>
      simp only [List.length_cons] at hlength
      omega

theorem sameQuery_of_single {r r' : Request} (hsingle : Single r.queryParams)
    (h : rawQueryKey r.path r.queryParams = rawQueryKey r'.path r'.queryParams) :
    SameQuery r r' := by
  obtain ⟨hpath, htext⟩ := rawQueryKey_inj h
  have hsorted := sortedParams_of_length_le_one hsingle.1
  have heq : sortedParams r.queryParams = sortedParams r'.queryParams :=
    eq_of_single (hsorted.symm ▸ hsingle) htext
  exact ⟨hpath, get_eq_of_sortedParams (nodup_queryParams r) (nodup_queryParams r') heq⟩

def Request.withParam (r : Request) (name value : String) : Request :=
  { r with query := [(name, value)] }

@[simp] theorem queryParams_withParam (r : Request) (name value : String) :
    (r.withParam name value).queryParams = [(name, value)] := rfl

theorem rawQueryKey_withParam {r : Request} {name value : String}
    (h : paramsText (sortedParams r.queryParams) = pairText (name, value)) :
    rawQueryKey r.path r.queryParams =
      rawQueryKey (r.withParam name value).path (r.withParam name value).queryParams := by
  apply rawQueryKey_congr
  rw [h, queryParams_withParam, sortedParams_of_length_le_one (by simp)]
  simp [paramsText]

/-- A parameter of `r` under another name tells the requests apart. -/
theorem not_sameQuery_withParam {r : Request} {kv : String × String} (hkv : kv ∈ r.queryParams)
    {name value : String} (hname : kv.1 ≠ name) : ¬ SameQuery r (r.withParam name value) := by
  intro hsame
  have hget : r.param kv.1 = some kv.2 := Dict.get_of_mem (nodup_queryParams r) hkv
  have hnone : (r.withParam name value).param kv.1 = none := by
    simp [Request.param, Dict.get, hname.symm]
  have hparam := hsame.2 kv.1
  rw [hget, hnone] at hparam
  cases hparam

/-- The parameters after the first one are read as part of its value. -/
theorem mistakable_of_two {r : Request} (h : 2 ≤ r.queryParams.length) :
    ∃ r', rawQueryKey r.path r.queryParams = rawQueryKey r'.path r'.queryParams ∧
      ¬ SameQuery r r' := by
  have hperm : (sortedParams r.queryParams).Perm r.queryParams := List.perm_insertionSort _ _
  have hkeys : ((sortedParams r.queryParams).map Prod.fst).Nodup :=
    (hperm.map Prod.fst).nodup_iff.mpr (nodup_queryParams r)
  rw [← hperm.length_eq] at h
  match hsorted : sortedParams r.queryParams, hkeys, h with
  | first :: second :: rest, hkeys, _ =>
      let value := first.2 ++ "&" ++ String.ofList (paramsText (second :: rest))
      refine ⟨r.withParam first.1 value, ?_, ?_⟩
      · apply rawQueryKey_withParam
        rw [hsorted, paramsText_cons first (by simp)]
        simp [pairText, value]
      · have hsecond : second ∈ r.queryParams := by
          rw [← mem_sortedParams, hsorted]
          simp
        apply not_sameQuery_withParam hsecond
        intro heq
        simp [heq] at hkeys

theorem mistakable_of_equals {r : Request} {kv : String × String} (hparams : r.queryParams = [kv])
    (h : '=' ∈ kv.1.toList ∨ '=' ∈ kv.2.toList) :
    ∃ r', rawQueryKey r.path r.queryParams = rawQueryKey r'.path r'.queryParams ∧
      ¬ SameQuery r r' := by
  have htext : paramsText (sortedParams r.queryParams) = kv.1.toList ++ '=' :: kv.2.toList := by
    rw [hparams, sortedParams_of_length_le_one (by simp)]
    simp [paramsText, pairText]
  have hkv : kv ∈ r.queryParams := by simp [hparams]
  -- another place to cut the text
  have hcut : ∃ name value : List Char, name ≠ kv.1.toList ∧
      kv.1.toList ++ '=' :: kv.2.toList = name ++ '=' :: value := by
    rcases h with h | h
    · obtain ⟨before, after, hname⟩ := List.append_of_mem h
      refine ⟨before, after ++ '=' :: kv.2.toList, ?_, by simp [hname]⟩
      intro heq
      simp [← heq] at hname
    · obtain ⟨before, after, hvalue⟩ := List.append_of_mem h
      refine ⟨kv.1.toList ++ '=' :: before, after, ?_, by simp [hvalue]⟩
      intro heq
      have hlength := congrArg List.length heq
      simp at hlength
  obtain ⟨name, value, hne, heq⟩ := hcut
  refine ⟨r.withParam (String.ofList name) (String.ofList value), ?_, ?_⟩
  · apply rawQueryKey_withParam
    rw [htext, heq]
    simp [pairText]
  · apply not_sameQuery_withParam hkv
    intro hname
    exact hne (by rw [hname, String.toList_ofList])

theorem mistakable_of_not_single {r : Request} (h : ¬ Single r.queryParams) :
    ∃ r', rawQueryKey r.path r.queryParams = rawQueryKey r'.path r'.queryParams ∧
      ¬ SameQuery r r' := by
  by_cases hlength : 2 ≤ r.queryParams.length
  · exact mistakable_of_two hlength
  have hone : r.queryParams.length = 1 := by
    by_contra hne
    have hnil : r.queryParams = [] := List.eq_nil_of_length_eq_zero (by omega)
    exact h (by simp [hnil, Single])
  obtain ⟨kv, hparams⟩ := List.length_eq_one_iff.mp hone
  apply mistakable_of_equals hparams
  by_contra hplain
  rw [not_or] at hplain
  exact h ⟨by omega, by simpa [hparams] using hplain⟩

/-! ## The keys that are told apart -/

section Digests

variable {Digest : Type} (md5 : String → Digest)

/-- A request whose key no other query shares has at most one parameter, without an
equals sign in it; and queries without separators do not share theirs. -/
theorem sameQuery_iff (hmd5 : Function.Injective md5) :
    (∀ r : Request,
      (∀ r', generateQueryHash md5 r = generateQueryHash md5 r' → SameQuery r r') ↔
        Single r.queryParams) ∧
      ∀ r r' : Request, Plain r.queryParams → Plain r'.queryParams →
        generateQueryHash md5 r = generateQueryHash md5 r' → SameQuery r r' := by
  refine ⟨fun r => ⟨fun h => ?_, fun hsingle r' hhash => ?_⟩, fun r r' hr hr' hhash => ?_⟩
  · by_contra hsingle
    obtain ⟨r', hkey, hdiffer⟩ := mistakable_of_not_single hsingle
    exact hdiffer (h r' (congrArg md5 hkey))
  · exact sameQuery_of_single hsingle (hmd5 hhash)
  · exact sameQuery_of_plain hr hr' (hmd5 hhash)

end Digests

/-- Public events at an address with a word in their title. -/
def separate : Request where
  path := "/api/v1/events"
  query := [("address", "Hall"), ("title__icontains", "jazz")]
  plain := by decide

/-- Public events at the address `Hall&title__icontains=jazz`. -/
def merged : Request where
  path := "/api/v1/events"
  query := [("address", "Hall&title__icontains=jazz")]
  plain := separate.plain

def sharedHash : QueryHash where
  hex := "91a69986eb0d36b1bcea1bed7aa9b3df"
  plain := by decide

def digest : String → String :=
  Equiv.swap "/api/v1/events?address=Hall&title__icontains=jazz" sharedHash.hex

/-- Two parameters are enough for another query to have the same key. -/
theorem separate_mistakable :
    generateQueryHash digest separate = sharedHash.hex ∧
      ¬ ∀ r', generateQueryHash digest separate = generateQueryHash digest r' →
        SameQuery separate r' :=
  ⟨by decide, fun h =>
    absurd (((sameQuery_iff digest (Equiv.injective _)).1 separate).mp h) (by decide)⟩

def echo (r : Request) : ReadCall Unit (List (String × String)) Empty where
  tags := [CacheTag.upcomingEvents.tag]
  queryHash := sharedHash
  handler := fun _ => .ok r.queryParams
  service := fun _ => true

def answered (s : Site Unit (List (String × String))) (r : Request) (ms : Nat) :
    Option (List (String × String)) :=
  match (cachedEndpoint .redis (echo r) ms s).2 with
  | .responded response => some response.body
  | _ => none

/-- The cache after the first request, sent once more to find the version of the tag. -/
def afterSeparate : Site Unit (List (String × String)) :=
  (cachedEndpoint .redis (echo separate) 5
    (cachedEndpoint .redis (echo separate) 5 { db := () }).1).1

/-- What is answered to the first request is served to the second one. -/
theorem merged_served_separate :
    generateQueryHash digest separate = sharedHash.hex ∧
      generateQueryHash digest merged = sharedHash.hex ∧ ¬ SameQuery separate merged ∧
      answered { db := () } merged 6 = some merged.queryParams ∧
      answered afterSeparate merged 6 = some separate.queryParams := by
  refine ⟨by decide, by decide, ?_, by decide, by decide⟩
  intro hsame
  exact absurd (hsame.2 "address") (by decide)

end TicketBooking.Http.QueryKeys
