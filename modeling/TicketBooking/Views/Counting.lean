import Mathlib.Data.Finset.Card
import TicketBooking.Library.Runs
import TicketBooking.Views.Mixins
/-!
# Counters against the table

The view counting system over whole runs: visitors' requests, consumer batches,
readers of the counters, and keys that expire, in any order.  What an object's
counter stands for are the visitors whose view of it is recorded or queued; it
keeps to that as long as no operation counts a visitor who is among them already
or starts a counter without them.
-/

namespace TicketBooking.Views.Counting

open TicketBooking.Library.Runs
open TicketBooking.Views.Logs TicketBooking.Views.Mixins

structure ViewSystem where
  logs : ViewLogs
  queue : List ViewPayload
  cache : ViewCache

namespace ViewSystem

def start (logs : ViewLogs) : ViewSystem where
  logs := logs
  queue := []
  cache := .empty

def send (sent : Option ViewPayload × ViewCache) (s : ViewSystem) : ViewSystem where
  logs := s.logs
  queue := s.queue ++ sent.1.toList
  cache := sent.2

/-- The consumer takes a batch; its messages are gone from the queue whether or
not they could be stored. -/
def process (batch : List ViewPayload) (s : ViewSystem) : ViewSystem where
  logs := (processViewLogs s.logs batch).2
  queue := s.queue.diff batch
  cache := s.cache

def withCache (cache : ViewCache) (s : ViewSystem) : ViewSystem := { s with cache := cache }

@[simp] theorem withCache_logs (cache : ViewCache) (s : ViewSystem) :
    (s.withCache cache).logs = s.logs := rfl
@[simp] theorem withCache_queue (cache : ViewCache) (s : ViewSystem) :
    (s.withCache cache).queue = s.queue := rfl
@[simp] theorem withCache_cache (cache : ViewCache) (s : ViewSystem) :
    (s.withCache cache).cache = cache := rfl

end ViewSystem

inductive Op
  | incrementViews (modelName : String) (objId : ObjId) (visitor : VisitorData)
  | processBatch (batch : List ViewPayload)
  | getViews (modelName : String) (objId : ObjId)
  | evict (key : String)
  deriving DecidableEq, Repr

/-- The consumer may take any messages of the queue. -/
def viewStep (md5 : String → String) (s : ViewSystem) : Op → Option ViewSystem
  | .incrementViews modelName objId visitor =>
      some (s.send (incrementViews modelName (getVisitorHash md5 visitor) objId s.cache))
  | .processBatch batch => if batch.Subperm s.queue then some (s.process batch) else none
  | .getViews modelName (.one objId) =>
      some (s.withCache (getViews s.logs modelName objId s.cache).2)
  | .getViews modelName (.many ids) =>
      some (s.withCache (getViewsMany s.logs modelName ids s.cache).2)
  | .evict key => some (s.withCache (s.cache.evict key))

/-- The visitors of an object whose view is recorded or queued. -/
def viewers (s : ViewSystem) (modelName : String) (objId : Int) : Finset String :=
  ((logsOf (s.logs.rows ++ flatLogs s.queue) modelName objId).map ViewLog.visitorHash).toFinset

def requested : ObjId → List Int
  | .one id => if id = 0 then [] else [id]
  | .many ids => ids

def refilled (modelName : String) (cache : ViewCache) : ObjId → List Int
  | .one id => missingIds modelName [id] cache
  | .many ids => missingIds modelName ids cache

/-- A visitor new to an object's daily set is counted once: a counter that is
there does not cover the visitor yet, one that is not has nobody else to cover.
A batch fits the column.  A counter filled from the table misses no queued view. -/
def CountsOnce (md5 : String → String) (s : ViewSystem) : Op → Prop
  | .incrementViews modelName objId visitor =>
      ∀ id ∈ requested objId,
        getVisitorHash md5 visitor ∉ s.cache.visitors (getHllKey modelName id) →
        (s.cache.counters (getCacheKey modelName id) = none →
          viewers s modelName id ⊆ {getVisitorHash md5 visitor}) ∧
        (s.cache.counters (getCacheKey modelName id) ≠ none →
          getVisitorHash md5 visitor ∉ viewers s modelName id)
  | .processBatch batch => Fits batch
  | .getViews modelName objId =>
      (∀ id ∈ refilled modelName s.cache objId, FitsColumn id) →
        ∀ id ∈ refilled modelName s.cache objId,
          ∀ log ∈ logsOf (flatLogs s.queue) modelName id, log ∈ s.logs.rows
  | .evict _ => True

instance (md5 : String → String) (s : ViewSystem) (op : Op) : Decidable (CountsOnce md5 s op) :=
  match op with
  | .incrementViews _ objId _ => inferInstanceAs (Decidable (∀ id ∈ requested objId, _ → _ ∧ _))
  | .processBatch batch => inferInstanceAs (Decidable (Fits batch))
  | .getViews modelName objId =>
      inferInstanceAs (Decidable ((∀ id ∈ refilled modelName s.cache objId, FitsColumn id) →
        ∀ id ∈ refilled modelName s.cache objId,
          ∀ log ∈ logsOf (flatLogs s.queue) modelName id, log ∈ s.logs.rows))
  | .evict _ => inferInstanceAs (Decidable True)

/-- A counter is the number of the visitors recorded or queued. -/
def Counted (s : ViewSystem) : Prop :=
  ∀ modelName objId views, s.cache.counters (getCacheKey modelName objId) = some views →
    views = (viewers s modelName objId).card

/-! ## What the operations do -/

def viewOf (modelName : String) (objId : Int) (visitorHash : String) : ViewLog where
  objectType := modelName
  objectId := objId
  visitorHash := visitorHash

theorem mem_map_logsOf {logs : List ViewLog} {modelName visitorHash : String} {objId : Int} :
    visitorHash ∈ (logsOf logs modelName objId).map ViewLog.visitorHash ↔
      viewOf modelName objId visitorHash ∈ logs := by
  unfold logsOf
  simp only [List.mem_map, List.mem_filter, decide_eq_true_eq]
  constructor
  · rintro ⟨log, ⟨hlog, rfl, rfl⟩, rfl⟩
    exact hlog
  · intro h
    exact ⟨_, ⟨h, rfl, rfl⟩, rfl⟩

theorem mem_viewers {s : ViewSystem} {modelName visitorHash : String} {objId : Int} :
    visitorHash ∈ viewers s modelName objId ↔
      viewOf modelName objId visitorHash ∈ s.logs.rows ∨
        viewOf modelName objId visitorHash ∈ flatLogs s.queue := by
  rw [viewers, List.mem_toFinset, mem_map_logsOf, List.mem_append]

/-- Rows of one object differ in the visitor. -/
theorem nodup_visitors (table : ViewLogs) (modelName : String) (objId : Int) :
    ((logsOf table.rows modelName objId).map ViewLog.visitorHash).Nodup := by
  refine List.Nodup.map_on (fun log hlog log' hlog' heq => ?_) (table.unique.filter _)
  have hlog := (List.mem_filter.mp hlog).2
  have hlog' := (List.mem_filter.mp hlog').2
  simp only [decide_eq_true_eq] at hlog hlog'
  cases log
  cases log'
  simp_all

theorem length_logsOf (table : ViewLogs) (modelName : String) (objId : Int) :
    (logsOf table.rows modelName objId).length =
      ((logsOf table.rows modelName objId).map ViewLog.visitorHash).toFinset.card := by
  rw [List.toFinset_card_of_nodup (nodup_visitors table modelName objId), List.length_map]

/-- Where no view is queued beyond the table, the viewers are the rows' visitors. -/
theorem card_viewers {s : ViewSystem} {modelName : String} {objId : Int}
    (h : ∀ log ∈ logsOf (flatLogs s.queue) modelName objId, log ∈ s.logs.rows) :
    (viewers s modelName objId).card = (logsOf s.logs.rows modelName objId).length := by
  rw [length_logsOf]
  congr 1
  ext visitorHash
  rw [mem_viewers, List.mem_toFinset, mem_map_logsOf]
  refine or_iff_left_of_imp fun hqueued => h _ ?_
  exact List.mem_filter.mpr ⟨hqueued, by simp [viewOf]⟩

/-- An increment adds one to the counters of some distinct ids it was asked
about, whose sets did not have the visitor, and queues the visitor's view of them. -/
theorem incrementViews_spec (modelName visitorHash : String) (objId : ObjId) (cache : ViewCache) :
    ∃ unique : List Int, unique.Nodup ∧
      (∀ id ∈ unique, id ∈ requested objId ∧
        visitorHash ∉ cache.visitors (getHllKey modelName id)) ∧
      (incrementViews modelName visitorHash objId cache).2.counters =
        incr (unique.map (getCacheKey modelName)) cache.counters ∧
      flatLogs (incrementViews modelName visitorHash objId cache).1.toList =
        unique.map fun id => viewOf modelName id visitorHash := by
  cases objId with
  | many ids =>
      unfold incrementViews
      by_cases hids : ids = []
      · refine ⟨[], List.nodup_nil, by simp, ?_, ?_⟩ <;> simp [hids, incr, flatLogs]
      · refine ⟨_, nodup_uniqueIds modelName visitorHash ids cache.visitors,
          fun id hid => mem_uniqueIds hid, ?_, ?_⟩
        · simp only [hids, if_false]
          split_ifs with hunique
          · rw [hunique]
            rfl
          · rfl
        · simp only [hids, if_false]
          split_ifs with hunique
          · rw [hunique]
            rfl
          · exact List.append_nil _
  | one id =>
      unfold incrementViews
      by_cases hzero : id = 0
      · refine ⟨[], List.nodup_nil, by simp, ?_, ?_⟩ <;> simp [hzero, incr, flatLogs]
      · by_cases hnew : visitorHash ∉ cache.visitors (getHllKey modelName id)
        · refine ⟨[id], List.nodup_singleton id, ?_, ?_, ?_⟩
          · simp [requested, hzero, hnew]
          · simp only [hzero, hnew, if_false, not_false_eq_true, if_true, List.map_cons,
              List.map_nil]
          · simp only [hzero, hnew, if_false, not_false_eq_true, if_true]
            rfl
        · refine ⟨[], List.nodup_nil, by simp, ?_, ?_⟩ <;> simp [hzero, hnew, incr, flatLogs]

/-- A batch that fits moves its views from the queue to the table. -/
theorem viewers_processBatch {s : ViewSystem} {batch : List ViewPayload} (hfits : Fits batch)
    (hsub : batch.Subperm s.queue) (modelName : String) (objId : Int) :
    viewers (s.process batch) modelName objId = viewers s modelName objId := by
  have hperm : (batch ++ s.queue.diff batch).Perm s.queue :=
    List.subperm_append_diff_self_of_count_le (List.subperm_ext_iff.mp hsub)
  have hqueue : ∀ log, log ∈ flatLogs s.queue ↔
      log ∈ flatLogs batch ∨ log ∈ flatLogs (s.queue.diff batch) := by
    intro log
    rw [← List.mem_append, ← flatLogs_append, mem_flatLogs, mem_flatLogs]
    simp only [hperm.mem_iff]
  ext visitorHash
  rw [mem_viewers, mem_viewers, hqueue]
  simp only [ViewSystem.process, mem_processViewLogs, hfits, true_and]
  rw [or_assoc]

/-! ## Whole runs -/

variable {md5 : String → String}

theorem counted_start (logs : ViewLogs) : Counted (.start logs) := by
  intro modelName objId views h
  cases h

theorem mem_viewers_send {s : ViewSystem} {sent : Option ViewPayload × ViewCache}
    {unique : List Int} {modelName visitorHash : String}
    (hlogs : flatLogs sent.1.toList = unique.map fun id => viewOf modelName id visitorHash)
    {model hash : String} {id : Int} :
    hash ∈ viewers (s.send sent) model id ↔
      hash ∈ viewers s model id ∨ (modelName = model ∧ id ∈ unique ∧ visitorHash = hash) := by
  have hsent : viewOf model id hash ∈ flatLogs sent.1.toList ↔
      modelName = model ∧ id ∈ unique ∧ visitorHash = hash := by
    rw [hlogs, List.mem_map]
    simp only [viewOf, ViewLog.mk.injEq]
    constructor
    · rintro ⟨id', hid', rfl, rfl, rfl⟩
      exact ⟨rfl, hid', rfl⟩
    · rintro ⟨rfl, hid', rfl⟩
      exact ⟨id, hid', rfl, rfl, rfl⟩
  have hqueue : (s.send sent).queue = s.queue ++ sent.1.toList := rfl
  rw [mem_viewers, mem_viewers, or_assoc, ← hsent, hqueue, flatLogs_append, List.mem_append]
  rfl

theorem counted_increment {s : ViewSystem} {modelName : String} {objId : ObjId}
    {visitor : VisitorData} (h : Counted s)
    (hok : CountsOnce md5 s (.incrementViews modelName objId visitor)) :
    Counted (s.send (incrementViews modelName (getVisitorHash md5 visitor) objId s.cache)) := by
  obtain ⟨unique, hnodup, hunique, hcounters, hlogs⟩ :=
    incrementViews_spec modelName (getVisitorHash md5 visitor) objId s.cache
  have hkeys : (unique.map (getCacheKey modelName)).Nodup :=
    hnodup.map fun _ _ heq => (getCacheKey_injective heq).2
  intro model id views hviews
  simp only [ViewSystem.send, hcounters] at hviews
  by_cases hcounted : modelName = model ∧ id ∈ unique
  · obtain ⟨rfl, hid⟩ := hcounted
    obtain ⟨hmissing, hpresent⟩ := hok id (hunique id hid).1 (hunique id hid).2
    have hinsert : viewers (s.send
          (incrementViews modelName (getVisitorHash md5 visitor) objId s.cache)) modelName id =
        insert (getVisitorHash md5 visitor) (viewers s modelName id) := by
      ext hash
      rw [mem_viewers_send hlogs, Finset.mem_insert, or_comm]
      simp only [true_and, hid, eq_comm]
    rw [incr_of_mem hkeys (List.mem_map_of_mem hid)] at hviews
    rw [hinsert]
    cases hcounter : s.cache.counters (getCacheKey modelName id) with
    | none =>
        have hone : insert (getVisitorHash md5 visitor) (viewers s modelName id) =
            {getVisitorHash md5 visitor} :=
          Finset.Subset.antisymm
            (Finset.insert_subset (Finset.mem_singleton_self _) (hmissing hcounter))
            (Finset.singleton_subset_iff.mpr (Finset.mem_insert_self _ _))
        rw [hone, Finset.card_singleton]
        simpa [hcounter] using hviews.symm
    | some n =>
        have hnew := hpresent (by simp [hcounter])
        rw [Finset.card_insert_of_notMem hnew, ← h modelName id n hcounter]
        simpa [hcounter] using hviews.symm
  · have hkey : getCacheKey model id ∉ unique.map (getCacheKey modelName) := by
      intro hmem
      obtain ⟨id', hid', heq⟩ := List.mem_map.mp hmem
      obtain ⟨rfl, rfl⟩ := getCacheKey_injective heq
      exact hcounted ⟨rfl, hid'⟩
    rw [incr_of_notMem hkey] at hviews
    rw [h model id views hviews]
    congr 1
    ext hash
    rw [mem_viewers_send hlogs]
    exact (or_iff_left fun hnew => hcounted ⟨hnew.1, hnew.2.1⟩).symm

theorem counted_withCache {s : ViewSystem} {cache : ViewCache} (h : Counted s)
    (hcache : ∀ modelName objId views, cache.counters (getCacheKey modelName objId) = some views →
      s.cache.counters (getCacheKey modelName objId) = some views ∨
        (views = (logsOf s.logs.rows modelName objId).length ∧
          ∀ log ∈ logsOf (flatLogs s.queue) modelName objId, log ∈ s.logs.rows)) :
    Counted (s.withCache cache) := by
  intro modelName objId views hviews
  rcases hcache modelName objId views hviews with hold | ⟨hrows, hqueued⟩
  · exact h modelName objId views hold
  · rw [hrows]
    exact (card_viewers (s := s) hqueued).symm

theorem counted_getViews {s : ViewSystem} {modelName : String} {objId : Int} (h : Counted s)
    (hok : CountsOnce md5 s (.getViews modelName (.one objId))) :
    Counted (s.withCache (getViews s.logs modelName objId s.cache).2) := by
  refine counted_withCache h fun model id views hviews => ?_
  unfold getViews at hviews
  split at hviews
  · exact .inl hviews
  · rename_i hnone
    split_ifs at hviews with hfits
    · by_cases hkey : getCacheKey model id = getCacheKey modelName objId
      · obtain ⟨rfl, rfl⟩ := getCacheKey_injective hkey
        have hmissing : ∀ oid, oid ∈ missingIds model [id] s.cache ↔ oid = id := by
          intro oid
          rw [mem_missingIds, List.mem_singleton]
          exact and_iff_left_of_imp fun heq => heq ▸ hnone
        refine .inr ⟨?_, hok (fun oid hoid => (hmissing oid).mp hoid ▸ hfits) id
          ((hmissing id).mpr rfl)⟩
        simpa using hviews.symm
      · exact .inl (by simpa [Function.update_of_ne hkey] using hviews)
    · exact .inl hviews

theorem counted_getViewsMany {s : ViewSystem} {modelName : String} {ids : List Int}
    (h : Counted s) (hok : CountsOnce md5 s (.getViews modelName (.many ids))) :
    Counted (s.withCache (getViewsMany s.logs modelName ids s.cache).2) := by
  refine counted_withCache h fun model id views hviews => ?_
  rw [getViewsMany_counters] at hviews
  split_ifs at hviews with hfits
  · by_cases hmem : modelName = model ∧ id ∈ missingIds modelName ids s.cache
    · obtain ⟨rfl, hid⟩ := hmem
      rw [fill_of_mem hid] at hviews
      exact .inr ⟨by simpa using hviews.symm, hok hfits id hid⟩
    · rw [fill_of_notMem] at hviews
      · exact .inl hviews
      · intro oid hoid heq
        obtain ⟨rfl, rfl⟩ := getCacheKey_injective heq
        exact hmem ⟨rfl, hoid⟩
  · exact .inl hviews

/-- No operation that counts once makes a counter wrong. -/
theorem counted_step {s t : ViewSystem} (op : Op) (h : Counted s) (hok : CountsOnce md5 s op)
    (hs : viewStep md5 s op = some t) : Counted t := by
  cases op with
  | incrementViews modelName objId visitor =>
      cases hs
      exact counted_increment h hok
  | processBatch batch =>
      simp only [viewStep] at hs
      split_ifs at hs with hsub
      cases hs
      intro modelName objId views hviews
      rw [viewers_processBatch hok hsub]
      exact h modelName objId views hviews
  | getViews modelName objId =>
      cases objId with
      | one id =>
          cases hs
          exact counted_getViews h hok
      | many ids =>
          cases hs
          exact counted_getViewsMany h hok
  | evict key =>
      cases hs
      refine counted_withCache h fun modelName objId views hviews => .inl ?_
      by_cases hkey : getCacheKey modelName objId = key
      · simp [ViewCache.evict, hkey] at hviews
      · simpa [ViewCache.evict, Function.update_of_ne hkey] using hviews

theorem counted_run {logs : ViewLogs} {s : ViewSystem}
    (hrun : Run (viewStep md5) (CountsOnce md5) (.start logs) s) : Counted s :=
  hrun.invariant (fun _ _ op h hok hs => counted_step op h hok hs) (counted_start logs)

theorem counter_eq_rows {s : ViewSystem} (h : Counted s) (hqueue : s.queue = [])
    {modelName : String} {objId : Int} {views : Nat}
    (hviews : s.cache.counters (getCacheKey modelName objId) = some views) :
    views = (logsOf s.logs.rows modelName objId).length := by
  rw [h modelName objId views hviews]
  refine card_viewers fun log hlog => ?_
  simp [hqueue, flatLogs, logsOf] at hlog

/-- In every run whose operations count once, whenever nothing is queued
`get_views` answers the number of rows of the object, which is the number of its
distinct visitors. -/
theorem getViews_eq_rows {logs : ViewLogs} {s : ViewSystem}
    (hrun : Run (viewStep md5) (CountsOnce md5) (.start logs) s) (hqueue : s.queue = []) :
    (∀ modelName objId, FitsColumn objId →
      (getViews s.logs modelName objId s.cache).1 =
        .ok (logsOf s.logs.rows modelName objId).length) ∧
    (∀ modelName ids, (∀ oid ∈ ids, FitsColumn oid) →
      ∃ views, (getViewsMany s.logs modelName ids s.cache).1 = .ok views ∧
        (∀ oid ∈ ids, oid ∈ views.map Prod.fst) ∧
        ∀ entry ∈ views, entry.2 = (logsOf s.logs.rows modelName entry.1).length) ∧
    ∀ modelName objId, (logsOf s.logs.rows modelName objId).length =
      ((logsOf s.logs.rows modelName objId).map ViewLog.visitorHash).toFinset.card := by
  have hcounted := counted_run hrun
  refine ⟨fun modelName objId hfits => ?_, fun modelName ids hfits => ?_,
    fun modelName objId => length_logsOf s.logs modelName objId⟩
  · unfold getViews
    split
    · rename_i views hviews
      rw [counter_eq_rows hcounted hqueue hviews]
    · rw [if_pos hfits]
  · have hmissing : ∀ oid ∈ missingIds modelName ids s.cache, FitsColumn oid :=
      fun oid hoid => hfits oid (mem_missingIds.mp hoid).1
    unfold getViewsMany
    simp only [if_pos hmissing]
    refine ⟨_, rfl, fun oid hoid => ?_, fun entry hentry => ?_⟩
    · rw [List.map_append, List.mem_append]
      cases hcounter : s.cache.counters (getCacheKey modelName oid) with
      | none =>
          refine .inr (List.mem_map.mpr ⟨_, List.mem_map.mpr ⟨oid, ?_, rfl⟩, rfl⟩)
          exact mem_missingIds.mpr ⟨hoid, hcounter⟩
      | some views =>
          refine .inl (List.mem_map.mpr ⟨(oid, views), List.mem_filterMap.mpr ⟨oid, ?_, ?_⟩, rfl⟩)
          · exact List.mem_eraseDups.mpr hoid
          · rw [hcounter, Option.map_some]
    · rcases List.mem_append.mp hentry with hentry | hentry
      · obtain ⟨oid, _, hoid⟩ := List.mem_filterMap.mp hentry
        obtain ⟨views, hviews, rfl⟩ := Option.map_eq_some_iff.mp hoid
        exact counter_eq_rows hcounted hqueue hviews
      · obtain ⟨oid, _, rfl⟩ := List.mem_map.mp hentry
        rfl

def messageOf (visitor : VisitorData) : ViewPayload where
  objectType := "events"
  objectIds := [1]
  visitorHash := getVisitorHash twoDigests visitor

def countedTwice : List Op :=
  [.incrementViews "events" (.many [1]) visitorA, .processBatch [messageOf visitorA],
    .getViews "events" (.one 1), .incrementViews "events" (.many [1]) visitorB,
    .processBatch [messageOf visitorB]]

theorem countedTwice_isSome :
    (runGuarded (viewStep twoDigests) (CountsOnce twoDigests) (.start .empty)
      countedTwice).isSome := by
  decide

theorem getViews_eq_rows_countedTwice :
    ∃ s, runGuarded (viewStep twoDigests) (CountsOnce twoDigests) (.start .empty)
        countedTwice = some s ∧
      (getViews s.logs "events" 1 s.cache).1 = .ok (logsOf s.logs.rows "events" 1).length ∧
      (logsOf s.logs.rows "events" 1).length = 2 := by
  refine ⟨_, (Option.some_get countedTwice_isSome).symm, ?_, by decide⟩
  exact (getViews_eq_rows (Run.of_runGuarded (Option.some_get countedTwice_isSome).symm)
    (by decide)).1 "events" 1 (by decide)

def counterLost : List Op :=
  [.incrementViews "events" (.many [1]) visitorA, .processBatch [messageOf visitorA],
    .evict (getCacheKey "events" 1), .incrementViews "events" (.many [1]) visitorB,
    .processBatch [messageOf visitorB]]

theorem counterLost_isSome :
    (runAll (viewStep twoDigests) (.start .empty) counterLost).isSome := by
  decide

/-- After that, one view is counted where two are stored. -/
theorem getViews_counterLost :
    ¬ ∀ s, Run (viewStep twoDigests) anyOp (.start .empty) s → s.queue = [] →
      ∀ objId, FitsColumn objId → (getViews s.logs "events" objId s.cache).1 =
        .ok (logsOf s.logs.rows "events" objId).length := by
  intro h
  have hrows := h _ (Run.of_runAll (Option.some_get counterLost_isSome).symm) (by decide) 1
    (by decide)
  exact absurd hrows (by decide)

end TicketBooking.Views.Counting
