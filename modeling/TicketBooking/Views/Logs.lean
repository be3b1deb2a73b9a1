import TicketBooking.App.Exceptions
import TicketBooking.Library.Inserts
/-!
# The view log

`view_logs` and `ViewLogService.process_view_logs`, which stores a batch of
queued messages in one transaction: the messages are flattened to rows, and the
rows inserted in chunks that skip what the unique index already has.  An object
id is whatever integer the message carries; the column holds 32 bits.
-/

namespace TicketBooking.Views.Logs

open TicketBooking.App.Exceptions
open TicketBooking.Library.Inserts

/-- A row of `view_logs`; the three columns are its unique index. -/
structure ViewLog where
  objectType : String
  objectId : Int
  visitorHash : String
  deriving DecidableEq, Repr

/-- The payload of a message in `view_logs_queue`. -/
structure ViewPayload where
  objectType : String
  objectIds : List Int
  visitorHash : String
  deriving DecidableEq, Repr

def FitsColumn (n : Int) : Prop := -2147483648 ≤ n ∧ n ≤ 2147483647

instance (n : Int) : Decidable (FitsColumn n) := inferInstanceAs (Decidable (_ ∧ _))

namespace ViewPayload

def logs (payload : ViewPayload) : List ViewLog :=
  payload.objectIds.map fun oid =>
    { objectType := payload.objectType, objectId := oid, visitorHash := payload.visitorHash }

end ViewPayload

def flatLogs (payloads : List ViewPayload) : List ViewLog :=
  payloads.flatMap ViewPayload.logs

theorem mem_flatLogs {payloads : List ViewPayload} {log : ViewLog} :
    log ∈ flatLogs payloads ↔ ∃ payload ∈ payloads, log ∈ payload.logs :=
  List.mem_flatMap

theorem flatLogs_append (xs ys : List ViewPayload) :
    flatLogs (xs ++ ys) = flatLogs xs ++ flatLogs ys :=
  List.flatMap_append

def chunkSize : Nat := 1000

/-- The table `view_logs`; its unique index keeps the rows apart. -/
@[ext] structure ViewLogs where
  rows : List ViewLog
  unique : rows.Nodup
  deriving DecidableEq

namespace ViewLogs

def empty : ViewLogs := ⟨[], List.nodup_nil⟩

/-- `INSERT ... ON CONFLICT DO NOTHING`, with the number of rows inserted. -/
def insert (table : ViewLogs) (rows : List ViewLog) : ViewLogs × Nat :=
  (⟨(insertNew table.rows rows).1, nodup_insertNew table.unique⟩, (insertNew table.rows rows).2)

@[simp] theorem insert_nil (table : ViewLogs) : table.insert [] = (table, 0) := rfl

theorem insert_append (table : ViewLogs) (xs ys : List ViewLog) :
    table.insert (xs ++ ys) =
      (((table.insert xs).1.insert ys).1,
        (table.insert xs).2 + ((table.insert xs).1.insert ys).2) := by
  have happend := insertNew_append table.rows xs ys
  simp only [insert, happend]

theorem mem_insert {table : ViewLogs} {rows : List ViewLog} {log : ViewLog} :
    log ∈ (table.insert rows).1.rows ↔ log ∈ table.rows ∨ log ∈ rows :=
  mem_insertNew

theorem prefix_insert (table : ViewLogs) (rows : List ViewLog) :
    table.rows <+: (table.insert rows).1.rows :=
  prefix_insertNew table.rows rows

theorem length_insert (table : ViewLogs) (rows : List ViewLog) :
    (table.insert rows).1.rows.length = table.rows.length + (table.insert rows).2 :=
  length_insertNew table.rows rows

theorem perm_of_mem_iff {table table' : ViewLogs}
    (h : ∀ log, log ∈ table.rows ↔ log ∈ table'.rows) : table.rows.Perm table'.rows :=
  (List.perm_ext_iff_of_nodup table.unique table'.unique).mpr h

end ViewLogs

/-- One chunk inside the transaction; `none` when the driver refuses a value,
which aborts the transaction. -/
def insertChunk (table : ViewLogs) (chunk : List ViewLog) : Option (ViewLogs × Nat) :=
  if ∀ log ∈ chunk, FitsColumn log.objectId then some (table.insert chunk) else none

/-- `total_inserted` over the chunks. -/
def insertChunks (table : ViewLogs) : List (List ViewLog) → Option (ViewLogs × Nat)
  | [] => some (table, 0)
  | chunk :: rest =>
      (insertChunk table chunk).bind fun first =>
        (insertChunks first.1 rest).map fun others => (others.1, first.2 + others.2)

/-- `view_logs.create(flat_logs, on_conflict_do_nothing=True, returning=False)`. -/
def create (table : ViewLogs) (rows : List ViewLog) : Option (ViewLogs × Nat) :=
  insertChunks table (chunks chunkSize rows)

def processViewLogs (table : ViewLogs) (payloads : List ViewPayload) :
    Except AppException Nat × ViewLogs :=
  if flatLogs payloads = [] then (.ok 0, table)
  else match create table (flatLogs payloads) with
    | none => (.error (.databaseError .unhandled), table)
    | some (table', processed) => (.ok processed, table')

def Fits (batch : List ViewPayload) : Prop := ∀ log ∈ flatLogs batch, FitsColumn log.objectId

instance (batch : List ViewPayload) : Decidable (Fits batch) :=
  inferInstanceAs (Decidable (∀ log ∈ flatLogs batch, FitsColumn log.objectId))

theorem insertChunks_of_fits {table : ViewLogs} {parts : List (List ViewLog)}
    (h : ∀ log ∈ parts.flatten, FitsColumn log.objectId) :
    insertChunks table parts = some (table.insert parts.flatten) := by
  induction parts generalizing table with
  | nil => rfl
  | cons part parts ih =>
      rw [List.flatten_cons] at h ⊢
      have hpart : ∀ log ∈ part, FitsColumn log.objectId := fun log hlog =>
        h log (List.mem_append_left _ hlog)
      have hparts := @ih (table.insert part).1 fun log hlog => h log (List.mem_append_right _ hlog)
      simp only [insertChunks, insertChunk, if_pos hpart, Option.bind_some, hparts,
        Option.map_some]
      rw [ViewLogs.insert_append]

theorem insertChunks_of_not_fits {table : ViewLogs} {parts : List (List ViewLog)}
    (h : ¬ ∀ log ∈ parts.flatten, FitsColumn log.objectId) : insertChunks table parts = none := by
  induction parts generalizing table with
  | nil => exact absurd (by simp) h
  | cons part parts ih =>
      by_cases hpart : ∀ log ∈ part, FitsColumn log.objectId
      · have hparts : ¬ ∀ log ∈ parts.flatten, FitsColumn log.objectId := by
          intro hall
          refine h fun log hlog => ?_
          rw [List.flatten_cons] at hlog
          rcases List.mem_append.mp hlog with hlog | hlog
          · exact hpart log hlog
          · exact hall log hlog
        simp only [insertChunks, insertChunk, if_pos hpart, Option.bind_some, ih hparts,
          Option.map_none]
      · simp only [insertChunks, insertChunk, if_neg hpart, Option.bind_none]

theorem create_of_fits {table : ViewLogs} {rows : List ViewLog}
    (h : ∀ log ∈ rows, FitsColumn log.objectId) :
    create table rows = some (table.insert rows) := by
  have hflatten := flatten_chunks (show 0 < chunkSize by decide) rows
  unfold create
  rw [insertChunks_of_fits (by rwa [hflatten]), hflatten]

theorem create_of_not_fits {table : ViewLogs} {rows : List ViewLog}
    (h : ¬ ∀ log ∈ rows, FitsColumn log.objectId) : create table rows = none := by
  have hflatten := flatten_chunks (show 0 < chunkSize by decide) rows
  unfold create
  exact insertChunks_of_not_fits (by rwa [hflatten])

theorem processViewLogs_of_fits {table : ViewLogs} {batch : List ViewPayload} (h : Fits batch) :
    processViewLogs table batch =
      (.ok (table.insert (flatLogs batch)).2, (table.insert (flatLogs batch)).1) := by
  unfold processViewLogs
  split_ifs with hnil
  · rw [hnil, ViewLogs.insert_nil]
  · rw [create_of_fits h]

/-- One id that does not fit costs the whole batch. -/
theorem processViewLogs_of_not_fits {table : ViewLogs} {batch : List ViewPayload}
    (h : ¬ Fits batch) :
    processViewLogs table batch = (.error (.databaseError .unhandled), table) := by
  have hne : flatLogs batch ≠ [] := by
    intro hnil
    exact h fun log hlog => by simp [hnil] at hlog
  unfold processViewLogs
  rw [if_neg hne, create_of_not_fits h]

theorem mem_processViewLogs {table : ViewLogs} {batch : List ViewPayload} {log : ViewLog} :
    log ∈ (processViewLogs table batch).2.rows ↔
      log ∈ table.rows ∨ (Fits batch ∧ log ∈ flatLogs batch) := by
  by_cases h : Fits batch
  · rw [processViewLogs_of_fits h, ViewLogs.mem_insert]
    simp [h]
  · rw [processViewLogs_of_not_fits h]
    simp [h]

end TicketBooking.Views.Logs
