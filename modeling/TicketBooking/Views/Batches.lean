import Mathlib.Algebra.Ring.Nat
import TicketBooking.Views.Mixins
/-!
# Batches of view messages

The consumer hands `process_view_logs` the queued messages a batch at a time.
As long as the ids fit the column, neither the cut into batches nor their order
nor a redelivery shows in the table.  A request may carry any integers, though,
and one id outside the column costs every message of its batch.
-/

namespace TicketBooking.Views.Batches

open TicketBooking.App.Exceptions
open TicketBooking.Views.Logs TicketBooking.Views.Mixins

def deliver (table : ViewLogs) :
    List (List ViewPayload) → List (Except AppException Nat) × ViewLogs
  | [] => ([], table)
  | batch :: batches =>
      ((processViewLogs table batch).1 :: (deliver (processViewLogs table batch).2 batches).1,
        (deliver (processViewLogs table batch).2 batches).2)

/-- The batches bring these messages and no others, each at least once. -/
def Delivers (messages : List ViewPayload) (batches : List (List ViewPayload)) : Prop :=
  ∀ payload, payload ∈ batches.flatten ↔ payload ∈ messages

/-- A cut of the messages in some order, each part delivered one or more times
and in any order, delivers them. -/
theorem Delivers.of_cut {messages : List ViewPayload} {cut batches : List (List ViewPayload)}
    (hcut : cut.flatten.Perm messages) (hbatches : ∀ batch, batch ∈ batches ↔ batch ∈ cut) :
    Delivers messages batches := by
  intro payload
  rw [← hcut.mem_iff, List.mem_flatten, List.mem_flatten]
  simp only [hbatches]

theorem mem_deliver {table : ViewLogs} {batches : List (List ViewPayload)} {log : ViewLog} :
    log ∈ (deliver table batches).2.rows ↔
      log ∈ table.rows ∨ ∃ batch ∈ batches, Fits batch ∧ log ∈ flatLogs batch := by
  induction batches generalizing table with
  | nil => simp [deliver]
  | cons batch batches ih =>
      simp only [deliver]
      rw [ih, mem_processViewLogs, or_assoc]
      simp only [List.mem_cons, exists_eq_or_imp]

/-! ## Ids that fit -/

section Fitting

variable {messages : List ViewPayload} {batches : List (List ViewPayload)}

theorem fits_of_delivers (hfits : Fits messages) (h : Delivers messages batches)
    {batch : List ViewPayload} (hbatch : batch ∈ batches) : Fits batch := by
  intro log hlog
  obtain ⟨payload, hpayload, hin⟩ := mem_flatLogs.mp hlog
  have hmem : payload ∈ messages := (h payload).mp (List.mem_flatten.mpr ⟨batch, hbatch, hpayload⟩)
  exact hfits log (mem_flatLogs.mpr ⟨payload, hmem, hin⟩)

theorem mem_deliver_of_fits (hfits : Fits messages) (h : Delivers messages batches)
    {table : ViewLogs} {log : ViewLog} :
    log ∈ (deliver table batches).2.rows ↔ log ∈ table.rows ∨ log ∈ flatLogs messages := by
  rw [mem_deliver, or_congr_right]
  constructor
  · rintro ⟨batch, hbatch, _, hlog⟩
    obtain ⟨payload, hpayload, hin⟩ := mem_flatLogs.mp hlog
    exact mem_flatLogs.mpr
      ⟨payload, (h payload).mp (List.mem_flatten.mpr ⟨batch, hbatch, hpayload⟩), hin⟩
  · intro hlog
    obtain ⟨payload, hpayload, hin⟩ := mem_flatLogs.mp hlog
    obtain ⟨batch, hbatch, hmem⟩ := List.mem_flatten.mp ((h payload).mpr hpayload)
    exact ⟨batch, hbatch, fits_of_delivers hfits h hbatch, mem_flatLogs.mpr ⟨payload, hmem, hin⟩⟩

/-- Every batch succeeds, and the numbers returned add up to the rows added. -/
theorem deliver_counts {table : ViewLogs} {batches : List (List ViewPayload)}
    (hfits : ∀ batch ∈ batches, Fits batch) :
    table.rows <+: (deliver table batches).2.rows ∧
      ∃ counts : List Nat, (deliver table batches).1 = counts.map Except.ok ∧
        (deliver table batches).2.rows.length = table.rows.length + counts.sum := by
  induction batches generalizing table with
  | nil => exact ⟨List.prefix_rfl, [], rfl, rfl⟩
  | cons batch batches ih =>
      have hbatch : processViewLogs table batch =
          (.ok (table.insert (flatLogs batch)).2, (table.insert (flatLogs batch)).1) :=
        processViewLogs_of_fits (hfits batch List.mem_cons_self)
      obtain ⟨hkept, counts, hcounts, hlength⟩ := @ih (table.insert (flatLogs batch)).1
        fun b hb => hfits b (List.mem_cons_of_mem _ hb)
      simp only [deliver, hbatch]
      refine ⟨(table.prefix_insert _).trans hkept,
        (table.insert (flatLogs batch)).2 :: counts, ?_, ?_⟩
      · rw [hcounts, List.map_cons]
      · rw [hlength, table.length_insert, List.sum_cons, Nat.add_assoc]

/-- Whatever the cut, the order and the redeliveries, the table ends up with one
row for each distinct log of the messages next to the rows it had, and the
numbers returned add up to the rows added. -/
theorem deliver_content (hfits : Fits messages) (h : Delivers messages batches) (table : ViewLogs) :
    (deliver table batches).2.rows.Nodup ∧
      (∀ log, log ∈ (deliver table batches).2.rows ↔
        log ∈ table.rows ∨ log ∈ flatLogs messages) ∧
      table.rows <+: (deliver table batches).2.rows ∧
      (∃ counts : List Nat, (deliver table batches).1 = counts.map Except.ok ∧
        (deliver table batches).2.rows.length = table.rows.length + counts.sum) ∧
      ∀ batches', Delivers messages batches' →
        (deliver table batches').2.rows.Perm (deliver table batches).2.rows := by
  obtain ⟨hkept, hcounts⟩ := @deliver_counts table batches fun batch hbatch =>
    fits_of_delivers hfits h hbatch
  refine ⟨(deliver table batches).2.unique, fun log => mem_deliver_of_fits hfits h, hkept,
    hcounts, fun batches' h' => ViewLogs.perm_of_mem_iff fun log => ?_⟩
  rw [mem_deliver_of_fits hfits h, mem_deliver_of_fits hfits h']

end Fitting

def firstView : ViewPayload :=
  { objectType := "events", objectIds := [1, 2], visitorHash := "d3bc7f834ab8d79ed347c0e8bc250783" }
def secondView : ViewPayload :=
  { objectType := "events", objectIds := [1], visitorHash := "7225ae00f75b4f6bc260dfe6e436bcae" }

/-- Two messages delivered one by one in the opposite order, one of them twice,
end in the table one batch of both ends in. -/
theorem deliver_content_redelivered :
    (deliver .empty [[secondView], [firstView], [secondView]]).2.rows.Perm
      (deliver .empty [[firstView, secondView]]).2.rows :=
  (deliver_content (by decide) (fun _ => by simp) .empty).2.2.2.2 _
    (@Delivers.of_cut [firstView, secondView] [[secondView], [firstView]] _ (by decide)
      (by simp [or_comm]))

/-! ## Ids of a request -/

/-- A body is accepted whatever integers it lists. -/
structure RegisterViewsRequestSchema where
  objectIds : List Int
  deriving DecidableEq, Repr

/-- What happens to the cache: a request to `POST /events/views`, or a key that
goes away. -/
inductive CacheEvent
  | request (body : RegisterViewsRequestSchema) (visitor : VisitorData)
  | evict (key : String)
  deriving DecidableEq, Repr

def enqueued (md5 : String → String) (modelName : String) :
    ViewCache → List CacheEvent → List ViewPayload
  | _, [] => []
  | cache, .request body visitor :: events =>
      let sent := incrementViews modelName (getVisitorHash md5 visitor) (.many body.objectIds) cache
      sent.1.toList ++ enqueued md5 modelName sent.2 events
  | cache, .evict key :: events => enqueued md5 modelName (cache.evict key) events

structure Grouping (messages : List ViewPayload) where
  batches : List (List ViewPayload)
  perm : batches.flatten.Perm messages

/-- Once a batch has been processed, its logs are stored where their ids fit. -/
def StoresEnqueued (table : ViewLogs) (batches : List (List ViewPayload)) : Prop :=
  ∀ before batch after, batches = before ++ batch :: after →
    ∀ log ∈ flatLogs batch, FitsColumn log.objectId →
      log ∈ (deliver table (before ++ [batch])).2.rows

theorem mem_deliver_concat {table : ViewLogs} {before : List (List ViewPayload)}
    {batch : List ViewPayload} {log : ViewLog} (hlog : log ∈ flatLogs batch) :
    log ∈ (deliver table (before ++ [batch])).2.rows ↔
      Fits batch ∨ log ∈ table.rows ∨
        ∃ earlier ∈ before, Fits earlier ∧ log ∈ flatLogs earlier := by
  rw [mem_deliver]
  simp only [List.mem_append, List.mem_singleton]
  constructor
  · rintro (h | ⟨b, hb | rfl, hfits, hmem⟩)
    · exact .inr (.inl h)
    · exact .inr (.inr ⟨b, hb, hfits, hmem⟩)
    · exact .inl hfits
  · rintro (h | h | ⟨b, hb, hfits, hmem⟩)
    · exact .inr ⟨batch, .inr rfl, h, hlog⟩
    · exact .inl h
    · exact .inr ⟨b, .inl hb, hfits, hmem⟩

/-- The logs that fit are stored exactly when every batch either has only ids
that fit, or brings nothing storable beyond the table and the batches before it. -/
theorem storesEnqueued_iff (md5 : String → String) (modelName : String) (cache : ViewCache)
    (events : List CacheEvent) (grouping : Grouping (enqueued md5 modelName cache events))
    (table : ViewLogs) :
    StoresEnqueued table grouping.batches ↔
      ∀ before batch after, grouping.batches = before ++ batch :: after →
        Fits batch ∨ ∀ log ∈ flatLogs batch, FitsColumn log.objectId →
          log ∈ table.rows ∨ ∃ earlier ∈ before, Fits earlier ∧ log ∈ flatLogs earlier := by
  constructor
  · intro h before batch after heq
    by_cases hfits : Fits batch
    · exact .inl hfits
    · refine .inr fun log hlog hid => ?_
      have hstored := h before batch after heq log hlog hid
      exact ((mem_deliver_concat hlog).mp hstored).resolve_left hfits
  · intro h before batch after heq log hlog hid
    rw [mem_deliver_concat hlog]
    rcases h before batch after heq with hfits | hold
    · exact .inl hfits
    · exact .inr (hold log hlog hid)

def overflowingRequests : List CacheEvent :=
  [.request { objectIds := [2147483648] } visitorA, .request { objectIds := [1] } visitorB]

def lostView : ViewLog :=
  { objectType := "events", objectId := 1, visitorHash := "7225ae00f75b4f6bc260dfe6e436bcae" }

/-- In one batch, the view of the event is lost with the other. -/
theorem overflowing_batch_lost :
    ¬ ∀ grouping : Grouping (enqueued twoDigests "events" .empty overflowingRequests),
      StoresEnqueued .empty grouping.batches := by
  intro h
  have hstored := h ⟨[enqueued twoDigests "events" .empty overflowingRequests], by simp⟩
    [] _ [] rfl lostView (by decide) (by decide)
  exact absurd hstored (by decide)

end TicketBooking.Views.Batches
