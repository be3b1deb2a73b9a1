import Mathlib.Data.Finset.Image
import TicketBooking.Library.Texts
import TicketBooking.Views.Logs
/-!
# Counting views

`ViewableServiceMixin`: `increment_views` adds the visitor to an object's daily
HyperLogLog set, and when the set answers that the visitor is new to it adds one
to the cached counter and queues a message; `get_views` reads the counter and
counts rows of `view_logs` when there is none.  The cache and the queue do not
fail here, and a HyperLogLog set answers as a set.
-/

namespace TicketBooking.Views.Mixins

open TicketBooking.App.Exceptions
open TicketBooking.Library.Texts
open TicketBooking.Views.Logs

structure VisitorData where
  ipAddress : String
  userAgent : String
  deriving DecidableEq, Repr

/-- `Union[int, list[int]]`. -/
inductive ObjId
  | one (id : Int)
  | many (ids : List Int)
  deriving DecidableEq, Repr

/-- The keys of the mixin: counters, and HyperLogLog sets.  A set without
elements is a missing key. -/
structure ViewCache where
  counters : String → Option Nat
  visitors : String → Finset String

def ViewCache.empty : ViewCache where
  counters _ := none
  visitors _ := ∅

/-- Expiry or eviction of a key. -/
def ViewCache.evict (key : String) (cache : ViewCache) : ViewCache where
  counters := Function.update cache.counters key none
  visitors := Function.update cache.visitors key ∅

def getVisitorHash (md5 : String → String) (visitor : VisitorData) : String :=
  md5 (visitor.ipAddress ++ ":" ++ visitor.userAgent)

def visitorA : VisitorData := { ipAddress := "10.0.0.1", userAgent := "curl" }
def visitorB : VisitorData := { ipAddress := "10.0.0.2", userAgent := "curl" }

def twoDigests (fingerprint : String) : String :=
  if fingerprint = "10.0.0.1:curl" then "d3bc7f834ab8d79ed347c0e8bc250783"
  else "7225ae00f75b4f6bc260dfe6e436bcae"

def getCacheKey (modelName : String) (objId : Int) : String :=
  "views:" ++ modelName ++ ":" ++ toString objId

def getHllKey (modelName : String) (objId : Int) : String :=
  "views:" ++ modelName ++ ":" ++ toString objId ++ ":daily_hll"

/-- `PFADD` of one value to several keys, in a pipeline. -/
def pfadd (value : String) : List String → (String → Finset String) →
    List Bool × (String → Finset String)
  | [], sets => ([], sets)
  | key :: keys, sets =>
      let rest := pfadd value keys (Function.update sets key (insert value (sets key)))
      (decide (value ∉ sets key) :: rest.1, rest.2)

/-- `INCR` of several keys; an absent key counts from zero. -/
def incr (keys : List String) (counters : String → Option Nat) : String → Option Nat :=
  keys.foldl (fun counters key =>
    Function.update counters key (some ((counters key).getD 0 + 1))) counters

def uniqueIds (ids : List Int) (mask : List Bool) : List Int :=
  ((ids.zip mask).filter fun entry => entry.2).map Prod.fst

/-- The message `increment_views` sends, if any, and the cache it leaves. -/
def incrementViews (modelName visitorHash : String) (objId : ObjId) (cache : ViewCache) :
    Option ViewPayload × ViewCache :=
  match objId with
  | .many ids =>
      if ids = [] then (none, cache)
      else
        let added := pfadd visitorHash (ids.map (getHllKey modelName)) cache.visitors
        let unique := uniqueIds ids added.1
        if unique = [] then (none, { cache with visitors := added.2 })
        else
          (some { objectType := modelName, objectIds := unique, visitorHash := visitorHash },
            { counters := incr (unique.map (getCacheKey modelName)) cache.counters
              visitors := added.2 })
  | .one id =>
      if id = 0 then (none, cache)
      else
        let key := getHllKey modelName id
        let visitors := Function.update cache.visitors key (insert visitorHash (cache.visitors key))
        if visitorHash ∉ cache.visitors key then
          (some { objectType := modelName, objectIds := [id], visitorHash := visitorHash },
            { counters := incr [getCacheKey modelName id] cache.counters, visitors := visitors })
        else (none, { cache with visitors := visitors })

def logsOf (logs : List ViewLog) (modelName : String) (objId : Int) : List ViewLog :=
  logs.filter fun log => log.objectType = modelName ∧ log.objectId = objId

/-- The query is refused when the driver cannot encode an id. -/
def driverFailure : AppException := .other "DBAPIError"

def getViews (table : ViewLogs) (modelName : String) (objId : Int) (cache : ViewCache) :
    Except AppException Nat × ViewCache :=
  match cache.counters (getCacheKey modelName objId) with
  | some views => (.ok views, cache)
  | none =>
      if FitsColumn objId then
        let dbCount := (logsOf table.rows modelName objId).length
        (.ok dbCount, { cache with
          counters := Function.update cache.counters (getCacheKey modelName objId) (some dbCount) })
      else (.error driverFailure, cache)

/-- `missing_ids`: the ids without a cached value, each one once. -/
def missingIds (modelName : String) (ids : List Int) (cache : ViewCache) : List Int :=
  ids.eraseDups.filter fun oid => cache.counters (getCacheKey modelName oid) = none

def fill (table : ViewLogs) (modelName : String) (ids : List Int)
    (counters : String → Option Nat) : String → Option Nat :=
  ids.foldl (fun counters oid => Function.update counters (getCacheKey modelName oid)
    (some (logsOf table.rows modelName oid).length)) counters

def getViewsMany (table : ViewLogs) (modelName : String) (ids : List Int) (cache : ViewCache) :
    Except AppException (List (Int × Nat)) × ViewCache :=
  let missing := missingIds modelName ids cache
  let cached := ids.eraseDups.filterMap fun oid =>
    (cache.counters (getCacheKey modelName oid)).map fun views => (oid, views)
  if ∀ oid ∈ missing, FitsColumn oid then
    (.ok (cached ++ missing.map fun oid => (oid, (logsOf table.rows modelName oid).length)),
      { cache with counters := fill table modelName missing cache.counters })
  else (.error driverFailure, cache)

/-- An object's counter has a key of its own. -/
theorem getCacheKey_injective {modelName modelName' : String} {objId objId' : Int}
    (h : getCacheKey modelName objId = getCacheKey modelName' objId') :
    modelName = modelName' ∧ objId = objId' := by
  obtain ⟨hname, hid⟩ := append_char_inj (colon_notMem_toString objId)
    (colon_notMem_toString objId') h
  have hlist := congrArg String.toList hname
  rw [String.toList_append, String.toList_append] at hlist
  exact ⟨String.toList_injective (List.append_cancel_left hlist), toString_injective hid⟩

/-! ## What the pipelines do -/

theorem uniqueIds_cons (id : Int) (ids : List Int) (new : Bool) (mask : List Bool) :
    uniqueIds (id :: ids) (new :: mask) =
      if new then id :: uniqueIds ids mask else uniqueIds ids mask := by
  cases new <;> simp [uniqueIds]

theorem mem_uniqueIds {modelName visitorHash : String} {ids : List Int}
    {sets : String → Finset String} {id : Int}
    (h : id ∈ uniqueIds ids (pfadd visitorHash (ids.map (getHllKey modelName)) sets).1) :
    id ∈ ids ∧ visitorHash ∉ sets (getHllKey modelName id) := by
  induction ids generalizing sets with
  | nil => simp [uniqueIds] at h
  | cons oid ids ih =>
      have hlater : ∀ sets', id ∈ uniqueIds ids
            (pfadd visitorHash (ids.map (getHllKey modelName)) sets').1 →
          (∀ key, sets key ⊆ sets' key) →
          id ∈ oid :: ids ∧ visitorHash ∉ sets (getHllKey modelName id) := by
        intro sets' hid hsub
        obtain ⟨hmem, hnot⟩ := ih hid
        exact ⟨List.mem_cons_of_mem _ hmem, fun hin => hnot (hsub _ hin)⟩
      have hgrow : ∀ key, sets key ⊆ Function.update sets (getHllKey modelName oid)
          (insert visitorHash (sets (getHllKey modelName oid))) key := by
        intro key
        by_cases hkey : key = getHllKey modelName oid
        · rw [hkey, Function.update_self]
          exact Finset.subset_insert _ _
        · rw [Function.update_of_ne hkey]
      rw [List.map_cons, pfadd, uniqueIds_cons] at h
      split_ifs at h with hnew
      · rcases List.mem_cons.mp h with rfl | h
        · exact ⟨List.mem_cons_self, by simpa using hnew⟩
        · exact hlater _ h hgrow
      · exact hlater _ h hgrow

theorem nodup_uniqueIds (modelName visitorHash : String) (ids : List Int)
    (sets : String → Finset String) :
    (uniqueIds ids (pfadd visitorHash (ids.map (getHllKey modelName)) sets).1).Nodup := by
  induction ids generalizing sets with
  | nil => exact List.nodup_nil
  | cons oid ids ih =>
      rw [List.map_cons, pfadd, uniqueIds_cons]
      split_ifs with hnew
      · refine List.nodup_cons.mpr ⟨fun hmem => ?_, ih _⟩
        refine (mem_uniqueIds hmem).2 ?_
        rw [Function.update_self]
        exact Finset.mem_insert_self _ _
      · exact ih _

theorem incr_of_notMem {keys : List String} {key : String} (h : key ∉ keys)
    (counters : String → Option Nat) : incr keys counters key = counters key := by
  induction keys generalizing counters with
  | nil => rfl
  | cons k keys ih =>
      rw [List.mem_cons, not_or] at h
      rw [incr, List.foldl_cons]
      exact (ih h.2 _).trans (Function.update_of_ne h.1 _ _)

theorem incr_of_mem {keys : List String} (hnodup : keys.Nodup) {key : String} (h : key ∈ keys)
    (counters : String → Option Nat) :
    incr keys counters key = some ((counters key).getD 0 + 1) := by
  induction keys generalizing counters with
  | nil => cases h
  | cons k keys ih =>
      obtain ⟨hk, hkeys⟩ := List.nodup_cons.mp hnodup
      rw [incr, List.foldl_cons]
      rcases List.mem_cons.mp h with rfl | h
      · exact (incr_of_notMem hk _).trans (Function.update_self _ _ _)
      · refine (ih hkeys h _).trans ?_
        rw [Function.update_of_ne (ne_of_mem_of_not_mem h hk)]

theorem mem_missingIds {modelName : String} {ids : List Int} {cache : ViewCache} {oid : Int} :
    oid ∈ missingIds modelName ids cache ↔
      oid ∈ ids ∧ cache.counters (getCacheKey modelName oid) = none := by
  unfold missingIds
  rw [List.mem_filter, List.mem_eraseDups, decide_eq_true_eq]

theorem getViewsMany_counters (table : ViewLogs) (modelName : String) (ids : List Int)
    (cache : ViewCache) :
    (getViewsMany table modelName ids cache).2.counters =
      if ∀ oid ∈ missingIds modelName ids cache, FitsColumn oid then
        fill table modelName (missingIds modelName ids cache) cache.counters
      else cache.counters := by
  unfold getViewsMany
  simp only
  split_ifs <;> rfl

theorem fill_of_notMem {table : ViewLogs} {modelName : String} {ids : List Int} {key : String}
    (h : ∀ oid ∈ ids, key ≠ getCacheKey modelName oid) (counters : String → Option Nat) :
    fill table modelName ids counters key = counters key := by
  induction ids generalizing counters with
  | nil => rfl
  | cons oid ids ih =>
      rw [fill, List.foldl_cons]
      exact (ih (fun o ho => h o (List.mem_cons_of_mem _ ho)) _).trans
        (Function.update_of_ne (h oid List.mem_cons_self) _ _)

theorem fill_of_mem {table : ViewLogs} {modelName : String} {ids : List Int} {objId : Int}
    (h : objId ∈ ids) (counters : String → Option Nat) :
    fill table modelName ids counters (getCacheKey modelName objId) =
      some (logsOf table.rows modelName objId).length := by
  induction ids generalizing counters with
  | nil => cases h
  | cons oid ids ih =>
      rw [fill, List.foldl_cons]
      by_cases hmem : objId ∈ ids
      · exact ih hmem _
      · have hoid : objId = oid := (List.mem_cons.mp h).resolve_right hmem
        refine (fill_of_notMem (fun o ho heq => hmem ?_) _).trans ?_
        · exact (getCacheKey_injective heq).2 ▸ ho
        · rw [hoid, Function.update_self]

end TicketBooking.Views.Mixins
