import TicketBooking.Library.Dict
import TicketBooking.Views.Mixins
/-!
# Counts while the cache fails

`get_views` of one object and of a list when any of its cache calls raises
`CacheUnavailableError`, and when the lock of the object is held by another request.
-/

namespace TicketBooking.Views.Outages

open TicketBooking.App.Exceptions
open TicketBooking.Library
open TicketBooking.Views.Logs TicketBooking.Views.Mixins

/-! ## The cache -/

inductive Manager
  | redis
  | inMemory
  deriving DecidableEq, Repr

/-- What the lock of a manager raises when another request holds it. -/
def Manager.contended : Manager → AppException
  | .redis => .other "TimeoutError"
  | .inMemory => .other "HTTPException"

inductive Acquire
  | acquired
  | contended
  | unavailable
  deriving DecidableEq, Repr

/-- A `LockError` of the release is swallowed, another `RedisError` is not. -/
inductive Release
  | released
  | lockError
  | redisError
  deriving DecidableEq, Repr

/-- How the cache calls of one `get_views` end; `true` is `CacheUnavailableError`. -/
structure Outage where
  firstRead : Bool := false
  acquire : Acquire := .acquired
  secondRead : Bool := false
  write : Bool := false
  release : Release := .released
  deriving DecidableEq, Repr

inductive Raised
  | cacheUnavailable
  | other (e : AppException)
  deriving DecidableEq, Repr

def call {α : Type} (fails : Bool) (answer : α) : Except Raised α :=
  if fails then .error .cacheUnavailable else .ok answer

def withLock {α : Type} (manager : Manager) (outage : Outage) (body : Except Raised α) :
    Except Raised α :=
  match outage.acquire with
  | .unavailable => .error .cacheUnavailable
  | .contended => .error (.other manager.contended)
  | .acquired =>
      match outage.release with
      | .redisError => .error (.other (.other "RedisError"))
      | _ => body

/-! ## One object -/

section Counts

variable (table : ViewLogs) (modelName : String)

/-- `view_logs.filter(...).count()`. -/
def countRows (objId : Int) : Except AppException Nat :=
  if FitsColumn objId then .ok (logsOf table.rows modelName objId).length
  else .error driverFailure

/-- The statements under the lock; `counters` is what the second read finds. -/
def countUnderLock (objId : Int) (counters : String → Option Nat) (outage : Outage) :
    Except Raised Nat :=
  match call outage.secondRead (counters (getCacheKey modelName objId)) with
  | .error e => .error e
  | .ok (some views) => .ok views
  | .ok none =>
      match countRows table modelName objId with
      | .error e => .error (.other e)
      | .ok dbCount => (call outage.write ()).map fun _ => dbCount

/-- When the cache is unavailable the rows are counted without the lock. -/
def orCountRows (objId : Int) : Except Raised Nat → Except AppException Nat
  | .ok views => .ok views
  | .error .cacheUnavailable => countRows table modelName objId
  | .error (.other e) => .error e

/-- `get_views` of one object; `later` is what the cache holds under the lock. -/
def getViews (manager : Manager) (objId : Int) (counters later : String → Option Nat)
    (outage : Outage) : Except AppException Nat :=
  match call outage.firstRead (counters (getCacheKey modelName objId)) with
  | .ok (some views) => .ok views
  | _ =>
      orCountRows table modelName objId
        (withLock manager outage (countUnderLock table modelName objId later outage))

/-! ## A list of objects -/

/-- `final_counts` and `missing_ids` after the cache was read. -/
def readMany (ids : List Int) (counters : String → Option Nat) (outage : Outage) :
    List (Int × Nat) × List Int :=
  match call outage.firstRead fun oid => counters (getCacheKey modelName oid) with
  | .ok value =>
      (ids.eraseDups.filterMap fun oid => (value oid).map fun views => (oid, views),
        ids.eraseDups.filter fun oid => value oid = none)
  | .error _ => ([], ids)

/-- `counts_map` of the rows that are found. -/
def countOf (missing : List Int) (oid : Int) : Nat :=
  ((table.rows.filter fun log => log.objectType = modelName ∧ log.objectId ∈ missing).filter
    fun log => log.objectId = oid).length

/-- `get_views` of a list.  Whether the cache can be filled changes nothing for the
caller. -/
def getViewsMany (ids : List Int) (counters : String → Option Nat) (outage : Outage) :
    Except AppException (List (Int × Nat)) :=
  if ids = [] then .ok []
  else
    let (finalCounts, missing) := readMany modelName ids counters outage
    if missing = [] then .ok finalCounts
    else if ∀ oid ∈ missing, FitsColumn oid then
      .ok (Dict.update finalCounts
        (Dict.ofList (fun oid => oid) (countOf table modelName missing) missing))
    else .error driverFailure

/-! ## What is answered -/

def cachedRead (objId : Int) (counters later : String → Option Nat) (outage : Outage) :
    Option Nat :=
  match call outage.firstRead (counters (getCacheKey modelName objId)) with
  | .ok (some views) => some views
  | _ =>
      if outage.acquire = .acquired ∧ outage.secondRead = false then
        later (getCacheKey modelName objId)
      else none

def orRows (objId : Int) : Option Nat → Except AppException Nat
  | some views => .ok views
  | none => countRows table modelName objId

def answer (objId : Int) (counters later : String → Option Nat) (outage : Outage) :
    Except AppException Nat :=
  orRows table modelName objId (cachedRead modelName objId counters later outage)

/-- The lock is tried, and another request holds it or it cannot be given back. -/
def Refused (objId : Int) (counters : String → Option Nat) (outage : Outage) : Prop :=
  (outage.firstRead ∨ counters (getCacheKey modelName objId) = none) ∧
    (outage.acquire = .contended ∨ outage.acquire = .acquired ∧ outage.release = .redisError)

instance (objId : Int) (counters : String → Option Nat) (outage : Outage) :
    Decidable (Refused modelName objId counters outage) := inferInstanceAs (Decidable (_ ∧ _))

/-- The first read fails, and the one under the lock does not. -/
def Recovers (outage : Outage) : Prop :=
  outage.firstRead ∧ outage.acquire = .acquired ∧ outage.secondRead = false

variable {table modelName} {manager : Manager} {objId : Int} {counters later : String → Option Nat}
  {outage : Outage}

theorem getViews_of_hit {views : Nat} (hread : outage.firstRead = false)
    (hhit : counters (getCacheKey modelName objId) = some views) :
    getViews table modelName manager objId counters later outage =
      answer table modelName objId counters later outage := by
  simp only [getViews, answer, cachedRead, call, hread, hhit, Bool.false_eq_true, if_false, orRows]

theorem getViews_of_miss
    (hmiss : outage.firstRead ∨ counters (getCacheKey modelName objId) = none) :
    getViews table modelName manager objId counters later outage =
      orCountRows table modelName objId
        (withLock manager outage (countUnderLock table modelName objId later outage)) := by
  unfold getViews call
  cases hread : outage.firstRead with
  | true => rfl
  | false =>
      have hnone := hmiss.resolve_left (by simp [hread])
      simp only [hnone, Bool.false_eq_true, if_false]

theorem cachedRead_of_miss
    (hmiss : outage.firstRead ∨ counters (getCacheKey modelName objId) = none) :
    cachedRead modelName objId counters later outage =
      if outage.acquire = .acquired ∧ outage.secondRead = false then
        later (getCacheKey modelName objId)
      else none := by
  unfold cachedRead call
  cases hread : outage.firstRead with
  | true => rfl
  | false =>
      have hnone := hmiss.resolve_left (by simp [hread])
      simp only [hnone, Bool.false_eq_true, if_false]

/-- What happens under the lock comes to the value the second read returned, else the
number of rows. -/
theorem countUnderLock_answers :
    orCountRows table modelName objId (countUnderLock table modelName objId later outage) =
      orRows table modelName objId
        (if outage.secondRead = false then later (getCacheKey modelName objId) else none) := by
  unfold countUnderLock call
  cases outage.secondRead with
  | true => rfl
  | false =>
      simp only [Bool.false_eq_true, if_false, if_true]
      cases later (getCacheKey modelName objId) with
      | some views => rfl
      | none =>
          simp only [orRows]
          cases hcount : countRows table modelName objId with
          | error e => rfl
          | ok dbCount =>
              cases outage.write with
              | true => exact hcount
              | false => rfl

theorem countRows_ne {e : AppException} (he : e ≠ driverFailure) :
    countRows table modelName objId ≠ .error e := by
  unfold countRows
  split_ifs
  · exact nofun
  · intro h
    exact he (Except.error.inj h).symm

theorem orRows_ne {e : AppException} (he : e ≠ driverFailure) (read : Option Nat) :
    orRows table modelName objId read ≠ .error e := by
  cases read with
  | some views => exact nofun
  | none => exact countRows_ne he

/-- One object is answered unless its lock is refused. -/
theorem getViews_eq_answer_iff :
    getViews table modelName manager objId counters later outage =
        answer table modelName objId counters later outage ↔
      ¬ Refused modelName objId counters outage := by
  by_cases hmiss : outage.firstRead ∨ counters (getCacheKey modelName objId) = none
  · rw [getViews_of_miss hmiss, answer, cachedRead_of_miss hmiss]
    unfold Refused withLock
    cases outage.acquire with
    | unavailable => simp [orCountRows, orRows]
    | contended =>
        have hother : manager.contended ≠ driverFailure := by cases manager <;> decide
        simp only [hmiss, reduceCtorEq, false_and, if_false, true_and, true_or, not_true_eq_false,
          iff_false]
        exact fun h => orRows_ne hother none h.symm
    | acquired =>
        cases outage.release with
        | redisError =>
            simp only [hmiss, true_and, or_true, not_true_eq_false, iff_false]
            exact fun h => orRows_ne (by decide) _ h.symm
        | released => simp [countUnderLock_answers]
        | lockError => simp [countUnderLock_answers]
  · rw [not_or] at hmiss
    obtain ⟨views, hviews⟩ := Option.ne_none_iff_exists'.mp hmiss.2
    have hread : outage.firstRead = false := by simpa using hmiss.1
    have hnot : ¬ Refused modelName objId counters outage := by simp [Refused, hread, hviews]
    simp only [getViews_of_hit hread hviews, hnot, not_false_eq_true]

/-! ## A list and its objects -/

def firstValue (modelName : String) (objId : Int) (counters : String → Option Nat)
    (outage : Outage) : Option Nat :=
  if outage.firstRead then none else counters (getCacheKey modelName objId)

def rowCount (table : ViewLogs) (modelName : String) (objId : Int) : Nat :=
  (logsOf table.rows modelName objId).length

theorem countRows_of_fits (hfits : FitsColumn objId) :
    countRows table modelName objId = .ok (rowCount table modelName objId) := if_pos hfits

theorem countOf_eq {missing : List Int} (hmem : objId ∈ missing) :
    countOf table modelName missing objId = rowCount table modelName objId := by
  unfold countOf rowCount logsOf
  rw [List.filter_filter]
  congr 1
  apply List.filter_congr
  intro log _
  by_cases hid : log.objectId = objId
  · simp [hid, hmem]
  · simp [hid]

theorem get_filterMap {value : Int → Option Nat} {ids : List Int} (oid : Int) :
    Dict.get oid (ids.filterMap fun o => (value o).map fun views => (o, views)) =
      if oid ∈ ids then value oid else none := by
  induction ids with
  | nil => rfl
  | cons o ids ih =>
      rw [List.filterMap_cons]
      cases hvalue : value o with
      | none =>
          rw [Option.map_none, ih]
          by_cases ho : oid = o
          · subst ho
            simp [hvalue]
          · simp [ho]
      | some views =>
          rw [Option.map_some, Dict.get, ih]
          by_cases ho : o = oid
          · subst ho
            simp [hvalue]
          · simp [ho, Ne.symm ho]

theorem readMany_sorts (modelName : String) (ids : List Int) (counters : String → Option Nat)
    (outage : Outage) {oid : Int} (hmem : oid ∈ ids) :
    Dict.get oid (readMany modelName ids counters outage).1 =
        firstValue modelName oid counters outage ∧
      (oid ∈ (readMany modelName ids counters outage).2 ↔
        firstValue modelName oid counters outage = none) := by
  unfold readMany call firstValue
  cases outage.firstRead with
  | true => exact ⟨rfl, by simp [hmem]⟩
  | false =>
      simp only [Bool.false_eq_true, if_false]
      rw [get_filterMap, if_pos (List.mem_eraseDups.mpr hmem)]
      simp [hmem]

theorem of_mem_missing {ids : List Int} {oid : Int}
    (h : oid ∈ (readMany modelName ids counters outage).2) : oid ∈ ids := by
  unfold readMany call at h
  cases hread : outage.firstRead with
  | true => simpa [hread] using h
  | false =>
      simp only [hread, Bool.false_eq_true, if_false] at h
      exact List.mem_eraseDups.mp (List.mem_filter.mp h).1

/-- A list is never refused because of the cache. -/
theorem getViewsMany_cases (ids : List Int) (counters : String → Option Nat) (outage : Outage) :
    (∃ views, getViewsMany table modelName ids counters outage = .ok views) ∨
      getViewsMany table modelName ids counters outage = .error driverFailure := by
  unfold getViewsMany
  simp only
  split_ifs
  · exact .inl ⟨_, rfl⟩
  · exact .inl ⟨_, rfl⟩
  · exact .inl ⟨_, rfl⟩
  · exact .inr rfl

/-- Each object of a list has the value that was read, else the number of its rows. -/
theorem getViewsMany_eq (table : ViewLogs) (modelName : String) {ids : List Int}
    (hfits : ∀ oid ∈ ids, FitsColumn oid) (counters : String → Option Nat) (outage : Outage) :
    ∃ views, getViewsMany table modelName ids counters outage = .ok views ∧
      ∀ oid ∈ ids, Dict.get oid views =
        some ((firstValue modelName oid counters outage).getD (rowCount table modelName oid)) := by
  unfold getViewsMany
  by_cases hids : ids = []
  · subst hids
    exact ⟨[], rfl, by simp⟩
  rw [if_neg hids]
  have hmissing : ∀ oid ∈ (readMany modelName ids counters outage).2, FitsColumn oid :=
    fun oid hmem => hfits oid (of_mem_missing hmem)
  simp only
  split_ifs with hnil
  · refine ⟨_, rfl, fun oid hmem => ?_⟩
    obtain ⟨hget, hsort⟩ := readMany_sorts modelName ids counters outage hmem
    have hsome : firstValue modelName oid counters outage ≠ none := by
      rw [ne_eq, ← hsort, hnil]
      exact List.not_mem_nil
    obtain ⟨views, hviews⟩ := Option.ne_none_iff_exists'.mp hsome
    rw [hget, hviews]
    rfl
  · refine ⟨_, rfl, fun oid hmem => ?_⟩
    obtain ⟨hget, hsort⟩ := readMany_sorts modelName ids counters outage hmem
    rw [Dict.get_update _ _ (Dict.nodup_ofList _), Dict.get_ofList_id, hget]
    by_cases hin : oid ∈ (readMany modelName ids counters outage).2
    · rw [if_pos hin, countOf_eq hin, hsort.mp hin]
      rfl
    · rw [if_neg hin]
      obtain ⟨views, hviews⟩ := Option.ne_none_iff_exists'.mp (hin ∘ hsort.mpr)
      rw [hviews]
      rfl

/-- One object is answered as in a list when a cache that recovers in between holds the
number of its rows. -/
theorem answer_eq_iff (hfits : FitsColumn objId) :
    answer table modelName objId counters counters outage =
        .ok ((firstValue modelName objId counters outage).getD (rowCount table modelName objId)) ↔
      (Recovers outage → ∀ views ∈ counters (getCacheKey modelName objId),
        views = rowCount table modelName objId) := by
  unfold answer cachedRead call firstValue Recovers
  cases hread : outage.firstRead with
  | false =>
      cases hviews : counters (getCacheKey modelName objId) with
      | none => simp [orRows, countRows_of_fits hfits]
      | some views => simp [orRows]
  | true =>
      simp only [if_true, true_and, Option.getD_none]
      by_cases hsecond : outage.acquire = .acquired ∧ outage.secondRead = false
      · rw [if_pos hsecond]
        cases hviews : counters (getCacheKey modelName objId) with
        | none => simp [orRows, countRows_of_fits hfits]
        | some views => simp [orRows, hsecond]
      · rw [if_neg hsecond]
        simp only [orRows, countRows_of_fits hfits, true_iff]
        exact fun h => absurd h hsecond

theorem not_ok_of_refused {views : Nat} (h : Refused modelName objId counters outage) :
    getViews table modelName manager objId counters later outage ≠ .ok views := by
  rw [getViews_of_miss (h.1.imp id id)]
  unfold withLock
  rcases h.2 with hacquire | ⟨hacquire, hrelease⟩
  · rw [hacquire]
    exact nofun
  · rw [hacquire, hrelease]
    exact nofun

/-- One object is answered with the value a read returned, else with the number of its
rows, exactly when its lock is not refused.  A list is never refused, and has the same
count of an object in the same state exactly when, besides, a cache that recovers in
between holds the number of rows. -/
theorem getViews_counts_iff (table : ViewLogs) (modelName : String) (manager : Manager) :
    (∀ objId counters later outage,
      getViews table modelName manager objId counters later outage =
          answer table modelName objId counters later outage ↔
        ¬ Refused modelName objId counters outage) ∧
      (∀ ids counters outage,
        (∃ views, getViewsMany table modelName ids counters outage = .ok views) ∨
          getViewsMany table modelName ids counters outage = .error driverFailure) ∧
      ∀ ids counters outage, (∀ oid ∈ ids, FitsColumn oid) →
        ∃ views, getViewsMany table modelName ids counters outage = .ok views ∧
          ∀ oid ∈ ids, ∃ count, Dict.get oid views = some count ∧
            count = (firstValue modelName oid counters outage).getD
              (rowCount table modelName oid) ∧
            (getViews table modelName manager oid counters counters outage = .ok count ↔
              ¬ Refused modelName oid counters outage ∧
                (Recovers outage → ∀ n ∈ counters (getCacheKey modelName oid),
                  n = rowCount table modelName oid)) := by
  refine ⟨fun _ _ _ _ => getViews_eq_answer_iff, getViewsMany_cases,
    fun ids counters outage hfits => ?_⟩
  obtain ⟨views, hviews, hcounts⟩ := getViewsMany_eq table modelName hfits counters outage
  refine ⟨views, hviews, fun oid hmem => ⟨_, hcounts oid hmem, rfl, ?_⟩⟩
  by_cases hrefused : Refused modelName oid counters outage
  · simp only [hrefused, not_true_eq_false, false_and, iff_false]
    exact not_ok_of_refused hrefused
  · rw [getViews_eq_answer_iff.mpr hrefused, answer_eq_iff (hfits oid hmem)]
    simp only [hrefused, not_false_eq_true, true_and]

/-! ## A cache that does not fail -/

/-- Without failures one object is answered as by a cache that has none. -/
theorem getViews_up (cache : ViewCache) :
    getViews table modelName manager objId cache.counters cache.counters {} =
      (Mixins.getViews table modelName objId cache).1 := by
  have hnot : ¬ Refused modelName objId cache.counters {} := by simp [Refused]
  rw [getViews_eq_answer_iff.mpr hnot, answer, Mixins.getViews]
  cases hviews : cache.counters (getCacheKey modelName objId) with
  | some views => simp [cachedRead, call, hviews, orRows]
  | none =>
      simp only [cachedRead, call, hviews, Bool.false_eq_true, if_false, and_self, if_true, orRows,
        countRows]
      split_ifs <;> rfl

theorem keys_filterMap (value : Int → Option Nat) (ids : List Int) :
    (ids.filterMap fun o => (value o).map fun views => (o, views)).map Prod.fst =
      ids.filter fun o => value o ≠ none := by
  induction ids with
  | nil => rfl
  | cons o ids ih =>
      rw [List.filterMap_cons]
      cases hvalue : value o with
      | none =>
          rw [Option.map_none, List.filter_cons_of_neg (by simp [hvalue])]
          exact ih
      | some views =>
          rw [Option.map_some, List.filter_cons_of_pos (by simp [hvalue]), List.map_cons, ih]

theorem nodup_eraseDups (ids : List Int) : ids.eraseDups.Nodup := by
  induction hlength : ids.length using Nat.strong_induction_on generalizing ids with
  | _ n ih =>
      cases ids with
      | nil => exact List.nodup_nil
      | cons oid ids =>
          have hle := List.length_filter_le (fun o => !o == oid) ids
          rw [List.eraseDups_cons, List.nodup_cons, List.mem_eraseDups]
          refine ⟨by simp, ih _ ?_ _ rfl⟩
          rw [← hlength, List.length_cons]
          omega

/-- And so is a list. -/
theorem getViewsMany_up (ids : List Int) (cache : ViewCache) :
    getViewsMany table modelName ids cache.counters {} =
      (Mixins.getViewsMany table modelName ids cache).1 := by
  let value := fun oid => cache.counters (getCacheKey modelName oid)
  let cached := ids.eraseDups.filterMap fun o => (value o).map fun views => (o, views)
  have hread : readMany modelName ids cache.counters {} =
      (cached, missingIds modelName ids cache) := rfl
  have hnodup : ids.eraseDups.Nodup := nodup_eraseDups ids
  have hmissing : (missingIds modelName ids cache).Nodup := hnodup.filter _
  have hkeys : ((cached ++ (missingIds modelName ids cache).map fun oid =>
      (oid, countOf table modelName (missingIds modelName ids cache) oid)).map
        Prod.fst).Nodup := by
    rw [List.map_append, keys_filterMap, List.map_map, List.nodup_append]
    refine ⟨hnodup.filter _, by simpa [Function.comp_def] using hmissing, ?_⟩
    intro oid hcached oid' hmem heq
    subst heq
    have hnone := (mem_missingIds.mp (by simpa using hmem)).2
    simp [value, hnone] at hcached
  have hcounts : ((missingIds modelName ids cache).map fun oid =>
      (oid, countOf table modelName (missingIds modelName ids cache) oid)) =
        (missingIds modelName ids cache).map fun oid =>
          (oid, (logsOf table.rows modelName oid).length) :=
    List.map_congr_left fun oid hmem => by rw [countOf_eq hmem, rowCount]
  unfold getViewsMany Mixins.getViewsMany
  simp only [hread]
  by_cases hids : ids = []
  · subst hids
    rfl
  rw [if_neg hids]
  by_cases hnil : missingIds modelName ids cache = []
  · simp [hnil, cached, value]
  · rw [if_neg hnil, Dict.ofList_of_nodup _ hmissing, Dict.update_of_disjoint hkeys, hcounts]
    split_ifs <;> rfl

end Counts

/-! ## A lock that is held -/

def oneView : ViewLogs := ⟨[⟨"events", 1, "a"⟩], by decide⟩

/-- The counter of event 1 is missing, and its lock is held by another request. -/
theorem getViews_contended :
    (∀ manager, getViews oneView "events" manager 1 (fun _ => none) (fun _ => none)
        { acquire := .contended } = .error manager.contended) ∧
      answer oneView "events" 1 (fun _ => none) (fun _ => none) { acquire := .contended } = .ok 1 ∧
      getViewsMany oneView "events" [1] (fun _ => none) { acquire := .contended } =
        .ok [(1, 1)] := by
  refine ⟨fun manager => ?_, by decide, by decide⟩
  cases manager <;> decide

end TicketBooking.Views.Outages
