import Mathlib.Algebra.Ring.Nat
import TicketBooking.App.Exceptions
import TicketBooking.Library.Dict
import TicketBooking.Library.Inserts
import TicketBooking.Library.Outcomes
import TicketBooking.Query.Operators
/-!
# Inserting many rows

`MutationQueryExecutor.create` and `BaseCommand.execute_bulk`, which cut a list
of row dicts into statements and put the answers together, beside the insertion
of the rows one by one.
-/

namespace TicketBooking.Query.Inserts

open TicketBooking.App.Exceptions
open TicketBooking.Library TicketBooking.Library.Inserts TicketBooking.Library.Outcomes
open TicketBooking.Query.Operators

/-- A row dict, a stored row and the data of a DTO. -/
abbrev Row (Val : Type) := List (String × Val)

/-- What a column holds when the row does not name it. -/
inductive Default (Val : Type)
  /-- `default=`, which SQLAlchemy sends with the row. -/
  | python (value : Val)
  /-- The database's own: a sequence, `server_default=`, or NULL. -/
  | server (value : Nat → Val)
  /-- NOT NULL. -/
  | required

structure Column (Val : Type) where
  name : String
  default : Default Val

/-- The values SQLAlchemy sends for a row that names these columns. -/
def boundColumns {Val : Type} (columns : List (Column Val)) (named : List String) :
    List (Column Val) :=
  columns.filter fun column => column.name ∈ named || match column.default with
    | .python _ => true
    | _ => false

/-- A mapped class with its DTO.  `refusal` is what the database has against a
row by itself.  Every class of the program has few columns, and one that every
row must name or that has a Python-side default. -/
structure Model (Val : Type) where
  columns : List (Column Val)
  unique : List (List String)
  null : Val
  refusal : Row Val → Option DatabaseErrorKind
  fields : List String
  hybrids : List (String × (Row Val → Val))
  distinct : (columns.map Column.name).Nodup
  plain : ∀ column ∈ columns, column.name ∉ hybrids.map Prod.fst
  narrow : columns.length ≤ 32
  given : boundColumns columns [] ≠ [] ∨ ∃ column ∈ columns, column.default = .required

structure Table (Val : Type) where
  rows : List (Row Val)
  /-- Rows attempted so far, which the sequences count. -/
  attempts : Nat
  deriving DecidableEq

inductive OnConflict
  | raise
  /-- `on_conflict_do_nothing=True`. -/
  | doNothing (indexElements : List String)
  deriving DecidableEq

inductive Returning
  /-- `returning=False`. -/
  | nothing
  /-- `returning=True`. -/
  | entities
  | columns (names : List String)
  deriving DecidableEq

/-- The query the rows are created through: its filters, and whether it is continued
from another. -/
structure Supply (Val : Type) where
  filters : Row Val := []
  continued : Bool := false

/-- An element of the list `execute_bulk` returns. -/
inductive Entry (Val : Type)
  | dto (dto : Row Val)
  | count (n : Nat)
  deriving DecidableEq

inductive Returned (Val : Type)
  | none
  | one (dto : Row Val)
  | list (entries : List (Entry Val))
  | int (n : Nat)
  deriving DecidableEq

/-! ## Statements -/

section Statements

variable {Val : Type} [DecidableEq Val] (model : Model Val) (conflict : OnConflict)

/-- The column's value in the row with number `n`.  A named column has to be in
every row unless it has a Python-side default. -/
def value (named : List String) (n : Nat) (row : Row Val) (column : Column Val) :
    Except AppException Val :=
  match if column.name ∈ named then Dict.get column.name row else none, column.default with
  | some v, _ => .ok v
  | none, .python v => .ok v
  | none, .server v =>
      if column.name ∈ named then .error (.other "CompileError") else .ok (v n)
  | none, .required =>
      if column.name ∈ named then .error (.other "CompileError")
      else .error (.databaseError .notNullViolation)

def record (named : List String) (n : Nat) (row : Row Val) :
    List (Column Val) → Except AppException (Row Val)
  | [] => .ok []
  | column :: columns =>
      (value named n row column).bind fun v =>
        (record named n row columns).map fun rest => (column.name, v) :: rest

/-- NULL is not equal to NULL. -/
def conflicts (index : List String) (row row' : Row Val) : Bool :=
  index.all fun name =>
    Dict.get name row = Dict.get name row' && Dict.get name row ≠ some model.null

/-- The unique indexes an `ON CONFLICT` names. -/
def arbiters (indexElements : List String) : List (List String) :=
  if indexElements = [] then model.unique
  else model.unique.filter fun index =>
    index.all (· ∈ indexElements) && indexElements.all (· ∈ index)

def skips (table : Table Val) (row : Row Val) : Bool :=
  match conflict with
  | .raise => false
  | .doNothing elements =>
      (arbiters model elements).any fun index => table.rows.any (conflicts model index row)

def store (table : Table Val) (row : Row Val) :
    Except AppException (Table Val × Option (Row Val)) :=
  match model.refusal row with
  | some kind => .error (.databaseError kind)
  | none =>
      if skips model conflict table row then .ok (⟨table.rows, table.attempts + 1⟩, none)
      else if model.unique.any fun index => table.rows.any (conflicts model index row) then
        .error (.databaseError .uniqueViolation)
      else .ok (⟨table.rows ++ [row], table.attempts + 1⟩, some row)

def insertRow (named : List String) (table : Table Val) (row : Row Val) :
    Except AppException (Table Val × Option (Row Val)) :=
  (record named table.attempts row model.columns).bind (store model conflict table)

def insertRows (named : List String) :
    Table Val → List (Row Val) → Except AppException (Table Val × List (Option (Row Val)))
  | table, [] => .ok (table, [])
  | table, row :: rows =>
      (insertRow model conflict named table row).bind fun first =>
        (insertRows named first.1 rows).map fun rest => (rest.1, first.2 :: rest.2)

/-- `ON CONFLICT` names columns that no unique index has. -/
def unmatched : Bool :=
  match conflict with
  | .raise => false
  | .doNothing elements => elements ≠ [] && arbiters model elements = []

/-- The values one statement can carry. -/
def bindLimit : Nat := 32767

/-- `insert(model).values(rows)`: the first row names the columns, and a
statement without a value to send inserts one row of defaults. -/
def insertValues (table : Table Val) (rows : List (Row Val)) :
    Except AppException (Table Val × List (Option (Row Val))) :=
  let named := (rows.headD []).map Prod.fst
  if named.any (· ∉ model.columns.map Column.name) then .error (.other "CompileError")
  else if unmatched model conflict then .error (.databaseError .unhandled)
  else if bindLimit < rows.length * (boundColumns model.columns named).length then
    .error (.databaseError .unhandled)
  else if boundColumns model.columns named = [] then
    insertRows model conflict named table [[]]
  else insertRows model conflict named table rows

/-- The rows inserted one by one, each by a statement of its own. -/
def insertEach :
    Table Val → List (Row Val) → Except AppException (Table Val × List (Option (Row Val)))
  | table, [] => .ok (table, [])
  | table, row :: rows =>
      (insertValues model conflict table [row]).bind fun first =>
        (insertEach first.1 rows).map fun rest => (rest.1, first.2 ++ rest.2)

end Statements

/-! ## `create` and `execute_bulk` -/

def inserted {Val : Type} (records : List (Option (Row Val))) : List (Row Val) :=
  records.filterMap id

namespace Model

variable {Val : Type} (model : Model Val)

/-- A field of a stored row; nothing is loaded over a relationship. -/
def field (row : Row Val) (name : String) : Option Val :=
  match Dict.get name model.hybrids with
  | some hybrid => some (hybrid row)
  | none => Dict.get name row

def toDto (row : Row Val) : Row Val :=
  model.fields.filterMap fun name => (model.field row name).map fun v => (name, v)

end Model

namespace Supply

variable {Val : Type}

/-- `"__" not in filter_key and filter_key not in item`. -/
def fill (item : Row Val) (filter : String × Val) : Row Val :=
  if splitOnce filter.1 = none ∧ filter.1 ∉ item.map Prod.fst then
    Dict.set filter.1 filter.2 item
  else item

def merge (supply : Supply Val) (item : Row Val) : Row Val := supply.filters.foldl fill item

def value (supply : Supply Val) (name : String) : Option Val :=
  Dict.get name (supply.filters.filter fun filter => splitOnce filter.1 = none)

end Supply

def chunkSize : Nat := 1000

section Create

variable {Val : Type} [DecidableEq Val] (model : Model Val) (conflict : OnConflict)
  (returning : Returning)

/-- `_to_dto(mod_res.returning_rows)`: columns come back as bare values, which
`inspect` knows nothing of, and an empty list of columns returns no rows. -/
def returnedDtos (rows : List (Row Val)) : Except AppException (List (Row Val)) :=
  match returning with
  | .nothing => .ok []
  | .entities => .ok (rows.map model.toDto)
  | .columns names =>
      if names = [] ∨ rows = [] then .ok [] else .error (.other "NoInspectionAvailable")

/-- `total_inserted` counts only what no RETURNING brings back. -/
def counted (rows : List (Row Val)) : Nat :=
  if returning = .nothing then rows.length else 0

structure Progress (Val : Type) where
  table : Table Val
  allDtos : List (Row Val)
  totalInserted : Nat

def createChunk (progress : Progress Val) (chunk : List (Row Val)) :
    Except AppException (Progress Val) :=
  (insertValues model conflict progress.table chunk).bind fun res =>
    (returnedDtos model returning (inserted res.2)).map fun dtos =>
      { table := res.1
        allDtos := progress.allDtos ++ dtos
        totalInserted := progress.totalInserted + counted returning (inserted res.2) }

/-- `m_data` is absent when the columns of one row come as keywords.  The history holds
pairs of a class and a query, and a pair has no `_where_criteria`. -/
def MutationQueryExecutor.create (supply : Supply Val) (table : Table Val)
    (mData : Option (List (Row Val))) (kwargs : Row Val) :
    Except AppException (Table Val × Returned Val) :=
  let rawItems := mData.getD [kwargs]
  if rawItems = [] then .ok (table, if mData.isSome then .list [] else .none)
  else if supply.continued then .error (.other "AttributeError")
  else
    ((chunks chunkSize (rawItems.map supply.merge)).foldlM
      (createChunk model conflict returning) ⟨table, [], 0⟩).map fun progress =>
        (progress.table,
          if returning = .nothing then .int progress.totalInserted
          else if mData.isSome then .list (progress.allDtos.map .dto)
          else match progress.allDtos with
            | [] => .none
            | dto :: _ => .one dto)

/-- One chunk of `execute_bulk`: `extend` with a list, `append` anything else
that is not falsy. -/
def bulkChunk (state : Table Val × List (Entry Val)) (chunk : List (Row Val)) :
    Except AppException (Table Val × List (Entry Val)) :=
  (MutationQueryExecutor.create model conflict returning {} state.1 (some chunk) []).map fun res =>
    (res.1, match res.2 with
      | .none => state.2
      | .one dto => state.2 ++ [.dto dto]
      | .list entries => state.2 ++ entries
      | .int n => if n = 0 then state.2 else state.2 ++ [.count n])

/-- `chunk_size` of `execute_bulk`. -/
def bulkSize (fieldsCount : Nat) : Nat := max 100 (30000 / fieldsCount)

def BaseCommand.executeBulk (table : Table Val) (mData : List (Row Val)) :
    Except AppException (Table Val × Returned Val) :=
  match mData with
  | [] => .ok (table, .list [])
  | first :: _ =>
      if first.length = 0 then .error (.other "ZeroDivisionError")
      else ((chunks (bulkSize first.length) mData).foldlM (bulkChunk model conflict returning)
        (table, [])).map fun state => (state.1, .list state.2)

/-- The ways to insert a list of rows. -/
inductive Route (Val : Type)
  | create (supply : Supply Val)
  | executeBulk

/-- `execute_bulk` creates through the repository. -/
def Route.supply : Route Val → Supply Val
  | .create supply => supply
  | .executeBulk => {}

def Route.items (route : Route Val) (rows : List (Row Val)) : List (Row Val) :=
  rows.map route.supply.merge

def Route.run (route : Route Val) (table : Table Val) (rows : List (Row Val)) :
    Except AppException (Table Val × Returned Val) :=
  match route with
  | .create supply =>
      MutationQueryExecutor.create model conflict returning supply table (some rows) []
  | .executeBulk => BaseCommand.executeBulk model conflict returning table rows

end Create

/-! ## One row's keys -/

def SameKeys {Val : Type} (rows : List (Row Val)) : Prop :=
  ∀ row ∈ rows, ∀ row' ∈ rows, ∀ name, name ∈ row.map Prod.fst ↔ name ∈ row'.map Prod.fst

section Keys

variable {Val : Type}

theorem mem_keys_iff {row : Row Val} {name : String} :
    name ∈ row.map Prod.fst ↔ (Dict.get name row).isSome := by
  constructor
  · intro h
    induction row with
    | nil => simp at h
    | cons kv rest ih =>
        rw [Dict.get]
        by_cases hkv : kv.1 = name
        · simp [hkv]
        · rw [if_neg hkv]
          rw [List.map_cons, List.mem_cons] at h
          exact ih (h.resolve_left (Ne.symm hkv))
  · intro h
    by_contra hname
    rw [Dict.get_eq_none hname] at h
    cases h

theorem get_foldl_fill (name : String) (filters item : Row Val) :
    Dict.get name (filters.foldl Supply.fill item) =
      (Dict.get name item).or
        (Dict.get name (filters.filter fun filter => splitOnce filter.1 = none)) := by
  induction filters generalizing item with
  | nil => simp [Dict.get]
  | cons filter filters ih =>
      rw [List.foldl_cons, ih, Supply.fill]
      by_cases hplain : splitOnce filter.1 = none
      · have hfilter : (filter :: filters).filter (fun filter => splitOnce filter.1 = none) =
            filter :: filters.filter fun filter => splitOnce filter.1 = none := by
          rw [List.filter_cons_of_pos (by simpa using hplain)]
        rw [hfilter, Dict.get]
        by_cases hmem : filter.1 ∈ item.map Prod.fst
        · rw [if_neg fun h => h.2 hmem]
          by_cases hname : filter.1 = name
          · obtain ⟨v, hv⟩ := Option.isSome_iff_exists.mp (mem_keys_iff.mp (hname ▸ hmem))
            simp [hv]
          · rw [if_neg hname]
        · rw [if_pos ⟨hplain, hmem⟩, Dict.get_set]
          by_cases hname : filter.1 = name
          · have hnone : Dict.get name item = none := Dict.get_eq_none (hname ▸ hmem)
            simp [hname, hnone]
          · rw [if_neg hname, if_neg hname]
      · have hfilter : (filter :: filters).filter (fun filter => splitOnce filter.1 = none) =
            filters.filter fun filter => splitOnce filter.1 = none := by
          rw [List.filter_cons_of_neg (by simpa using hplain)]
        rw [hfilter, if_neg fun h => hplain h.1]

/-- An item keeps its own values and gets the missing ones. -/
theorem get_merge (supply : Supply Val) (item : Row Val) (name : String) :
    Dict.get name (supply.merge item) = (Dict.get name item).or (supply.value name) :=
  get_foldl_fill name supply.filters item

theorem SameKeys.merge {rows : List (Row Val)} (h : SameKeys rows) (supply : Supply Val) :
    SameKeys (rows.map supply.merge) := by
  intro row hrow row' hrow' name
  obtain ⟨item, hitem, rfl⟩ := List.mem_map.mp hrow
  obtain ⟨item', hitem', rfl⟩ := List.mem_map.mp hrow'
  have hsame := h item hitem item' hitem' name
  rw [mem_keys_iff, mem_keys_iff] at hsame
  rw [mem_keys_iff, mem_keys_iff, get_merge, get_merge, Option.isSome_or, Option.isSome_or,
    Bool.or_eq_true, Bool.or_eq_true, hsame]

theorem SameKeys.of_subset {rows rows' : List (Row Val)} (h : SameKeys rows) (hsub : rows' ⊆ rows) :
    SameKeys rows' :=
  fun row hrow row' hrow' => h row (hsub hrow) row' (hsub hrow')

theorem not_continued_empty : ¬ ({} : Supply Val).continued := Bool.false_ne_true

theorem merge_empty (item : Row Val) : ({} : Supply Val).merge item = item := rfl

theorem map_merge_empty (rows : List (Row Val)) : rows.map ({} : Supply Val).merge = rows := by
  rw [List.map_congr_left fun row _ => merge_empty row, List.map_id']

theorem items_executeBulk (rows : List (Row Val)) : Route.executeBulk.items rows = rows :=
  map_merge_empty rows

end Keys

/-! ## A statement inserts its rows one by one -/

section Statements

variable {Val : Type}

theorem value_congr {named named' : List String} (h : ∀ name, name ∈ named ↔ name ∈ named') :
    (value named : Nat → Row Val → _) = value named' := by
  funext n row column
  simp only [value, h]

theorem record_congr {named named' : List String} (h : ∀ name, name ∈ named ↔ name ∈ named')
    (n : Nat) (row : Row Val) (columns : List (Column Val)) :
    record named n row columns = record named' n row columns := by
  induction columns with
  | nil => rfl
  | cons column columns ih => simp only [record, value_congr h, ih]

theorem boundColumns_congr {named named' : List String} (h : ∀ name, name ∈ named ↔ name ∈ named')
    (columns : List (Column Val)) : boundColumns columns named = boundColumns columns named' := by
  simp only [boundColumns, h]

def Name (rows : List (Row Val)) (named : List String) : Prop :=
  ∀ row ∈ rows, ∀ name, name ∈ row.map Prod.fst ↔ name ∈ named

theorem SameKeys.name {row : Row Val} {rows : List (Row Val)} (h : SameKeys (row :: rows)) :
    Name (row :: rows) (row.map Prod.fst) :=
  fun row' hrow' name => h row' hrow' row List.mem_cons_self name

/-- A statement of `create` carries at most 32000 values. -/
theorem within_bindLimit (model : Model Val) {rows : List (Row Val)}
    (hlength : rows.length ≤ chunkSize) (named : List String) :
    ¬ bindLimit < rows.length * (boundColumns model.columns named).length := by
  have hbound : (boundColumns model.columns named).length ≤ 32 :=
    (List.length_filter_le _ _).trans model.narrow
  have hmul : rows.length * (boundColumns model.columns named).length ≤ chunkSize * 32 :=
    Nat.mul_le_mul hlength hbound
  unfold chunkSize at hmul
  unfold bindLimit
  omega

/-- Where nothing is sent a column misses its value. -/
theorem record_required {columns : List (Column Val)} (hbound : boundColumns columns [] = [])
    (hrequired : ∃ column ∈ columns, column.default = .required) (n : Nat) (row : Row Val) :
    record [] n row columns = .error (.databaseError .notNullViolation) := by
  induction columns with
  | nil =>
      obtain ⟨column, hcolumn, _⟩ := hrequired
      cases hcolumn
  | cons column columns ih =>
      rw [record]
      cases hdefault : column.default with
      | python v =>
          rw [boundColumns, List.filter_cons_of_pos (by simp [hdefault])] at hbound
          cases hbound
      | required => simp [value, hdefault, Except.bind]
      | server v =>
          have hrest : boundColumns columns [] = [] := by
            rw [boundColumns, List.filter_cons_of_neg (by simp [hdefault])] at hbound
            exact hbound
          have hmem : ∃ column ∈ columns, column.default = .required := by
            obtain ⟨column', hcolumn', hrequired'⟩ := hrequired
            rcases List.mem_cons.mp hcolumn' with rfl | hcolumn'
            · rw [hdefault] at hrequired'
              cases hrequired'
            · exact ⟨column', hcolumn', hrequired'⟩
          simp [value, hdefault, Except.bind, Except.map, ih hrest hmem]

theorem named_nil {columns : List (Column Val)} {named : List String}
    (hconsumed : ∀ name ∈ named, name ∈ columns.map Column.name)
    (hbound : boundColumns columns named = []) : named = [] := by
  rw [List.eq_nil_iff_forall_not_mem]
  intro name hname
  obtain ⟨column, hcolumn, rfl⟩ := List.mem_map.mp (hconsumed name hname)
  have hmem : column ∈ boundColumns columns named :=
    List.mem_filter.mpr ⟨hcolumn, by simp [hname]⟩
  rw [hbound] at hmem
  cases hmem

theorem length_single_le (row : Row Val) : [row].length ≤ chunkSize := by
  rw [List.length_singleton]
  decide

theorem Name.tail {row : Row Val} {rows : List (Row Val)} {named : List String}
    (h : Name (row :: rows) named) : Name rows named :=
  fun row' hrow' => h row' (List.mem_cons_of_mem _ hrow')

theorem Name.head {row : Row Val} {rows : List (Row Val)} {named : List String}
    (h : Name (row :: rows) named) : Name [row] named := by
  intro row' hrow'
  rw [List.mem_singleton] at hrow'
  exact h row' (hrow' ▸ List.mem_cons_self)

section Rows

variable [DecidableEq Val] {model : Model Val} {conflict : OnConflict}

theorem insertRows_congr {named named' : List String} (h : ∀ name, name ∈ named ↔ name ∈ named')
    (table : Table Val) (rows : List (Row Val)) :
    insertRows model conflict named table rows = insertRows model conflict named' table rows := by
  induction rows generalizing table with
  | nil => rfl
  | cons row rows ih => simp only [insertRows, insertRow, record_congr h, ih]

/-- What SQLAlchemy and the database check before the first row. -/
structure Passes (model : Model Val) (conflict : OnConflict) (named : List String) : Prop where
  consumed : ∀ name ∈ named, name ∈ model.columns.map Column.name
  matched : unmatched model conflict = false
  bound : boundColumns model.columns named ≠ []

theorem insertValues_eq {named : List String} {row : Row Val} {rows : List (Row Val)}
    (hname : Name (row :: rows) named) (hlength : (row :: rows).length ≤ chunkSize)
    (table : Table Val) :
    insertValues model conflict table (row :: rows) =
      if named.any (· ∉ model.columns.map Column.name) then .error (.other "CompileError")
      else if unmatched model conflict then .error (.databaseError .unhandled)
      else if boundColumns model.columns named = [] then
        insertRows model conflict named table [[]]
      else insertRows model conflict named table (row :: rows) := by
  have hhead : ∀ name, name ∈ row.map Prod.fst ↔ name ∈ named := hname row List.mem_cons_self
  have hany : (row.map Prod.fst).any (· ∉ model.columns.map Column.name) =
      named.any (· ∉ model.columns.map Column.name) := by
    rw [Bool.eq_iff_iff, List.any_eq_true, List.any_eq_true]
    exact exists_congr fun name => and_congr_left fun _ => hhead name
  unfold insertValues
  simp only [List.headD_cons, hany, boundColumns_congr hhead, insertRows_congr hhead,
    if_neg (within_bindLimit model hlength named)]

theorem insertValues_of_passes {named : List String} (hpasses : Passes model conflict named)
    {row : Row Val} {rows : List (Row Val)} (hname : Name (row :: rows) named)
    (hlength : (row :: rows).length ≤ chunkSize) (table : Table Val) :
    insertValues model conflict table (row :: rows) =
      insertRows model conflict named table (row :: rows) := by
  have hany : ¬ named.any (· ∉ model.columns.map Column.name) = true := by
    rw [List.any_eq_true]
    rintro ⟨name, hmem, hnot⟩
    exact (of_decide_eq_true hnot) (hpasses.consumed name hmem)
  rw [insertValues_eq hname hlength, if_neg hany, hpasses.matched, if_neg Bool.false_ne_true,
    if_neg hpasses.bound]

/-- What a check refuses it refuses whatever the rows. -/
theorem insertValues_of_not_passes {named : List String} (hpasses : ¬ Passes model conflict named) :
    ∃ e, ∀ (row : Row Val) rows table, Name (row :: rows) named →
      (row :: rows).length ≤ chunkSize →
        insertValues model conflict table (row :: rows) = .error e := by
  by_cases hany : named.any (· ∉ model.columns.map Column.name) = true
  · refine ⟨.other "CompileError", fun row rows table hname hlength => ?_⟩
    rw [insertValues_eq hname hlength, if_pos hany]
  · have hconsumed : ∀ name ∈ named, name ∈ model.columns.map Column.name := by
      intro name hname
      by_contra hnot
      exact hany (List.any_eq_true.mpr ⟨name, hname, decide_eq_true hnot⟩)
    cases hmatched : unmatched model conflict with
    | true =>
        refine ⟨.databaseError .unhandled, fun row rows table hname hlength => ?_⟩
        rw [insertValues_eq hname hlength, if_neg hany, if_pos hmatched]
    | false =>
        have hbound : boundColumns model.columns named = [] := by
          by_contra hbound
          exact hpasses ⟨hconsumed, hmatched, hbound⟩
        have hnil : named = [] := named_nil hconsumed hbound
        subst hnil
        refine ⟨.databaseError .notNullViolation, fun row rows table hname hlength => ?_⟩
        rw [insertValues_eq hname hlength, if_neg hany, hmatched, if_neg Bool.false_ne_true,
          if_pos hbound, insertRows, insertRow,
          record_required hbound (model.given.resolve_left (not_not_intro hbound))]
        rfl

theorem insertEach_of_passes {named : List String} (hpasses : Passes model conflict named)
    {rows : List (Row Val)} (hname : Name rows named) (table : Table Val) :
    insertEach model conflict table rows = insertRows model conflict named table rows := by
  induction rows generalizing table with
  | nil => rfl
  | cons row rows ih =>
      have hone := insertValues_of_passes hpasses hname.head
        (length_single_le row) table
      rw [insertEach, hone]
      simp only [insertRows]
      cases insertRow model conflict named table row with
      | error e => rfl
      | ok first => simp [Except.bind, Except.map, ih hname.tail]

theorem insertValues_eq_insertEach {rows : List (Row Val)} (hne : rows ≠ [])
    (hlength : rows.length ≤ chunkSize) (hkeys : SameKeys rows) (table : Table Val) :
    insertValues model conflict table rows = insertEach model conflict table rows := by
  cases rows with
  | nil => exact absurd rfl hne
  | cons row rows =>
      have hname := hkeys.name
      by_cases hpasses : Passes model conflict (row.map Prod.fst)
      · rw [insertValues_of_passes hpasses hname hlength, insertEach_of_passes hpasses hname]
      · obtain ⟨e, he⟩ := insertValues_of_not_passes hpasses
        rw [he row rows table hname hlength, insertEach,
          he row [] table hname.head (length_single_le row)]
        rfl

theorem insertEach_append (table : Table Val) (xs ys : List (Row Val)) :
    insertEach model conflict table (xs ++ ys) =
      (insertEach model conflict table xs).bind fun first =>
        (insertEach model conflict first.1 ys).map fun rest => (rest.1, first.2 ++ rest.2) := by
  induction xs generalizing table with
  | nil =>
      rw [List.nil_append, insertEach, Except.bind]
      cases insertEach model conflict table ys with
      | error e => simp [Except.map]
      | ok rest => simp [Except.map]
  | cons x xs ih =>
      rw [List.cons_append, insertEach, insertEach]
      cases insertValues model conflict table [x] with
      | error e => rfl
      | ok first =>
          simp only [Except.bind, ih]
          cases insertEach model conflict first.1 xs with
          | error e => rfl
          | ok second =>
              simp only [Except.map]
              cases insertEach model conflict second.1 ys with
              | error e => rfl
              | ok rest => simp

end Rows

end Statements

/-! ## The loops over the chunks -/

section Loops

variable {Val : Type}

theorem inserted_append (xs ys : List (Option (Row Val))) :
    inserted (xs ++ ys) = inserted xs ++ inserted ys :=
  List.filterMap_append

theorem forall₂_inserted {P : Row Val → Row Val → Prop} {rows : List (Row Val)}
    {records : List (Option (Row Val))}
    (h : List.Forall₂ (fun row stored => ∀ r ∈ stored, P row r) rows records)
    (hwhole : none ∉ records) : List.Forall₂ P rows (inserted records) := by
  induction h with
  | nil => exact .nil
  | @cons row stored rows records hstored _ ih =>
      rw [List.mem_cons, not_or] at hwhole
      cases stored with
      | none => exact absurd rfl hwhole.1
      | some r => exact .cons (hstored r rfl) (ih hwhole.2)

variable {model : Model Val} {returning : Returning}

theorem returnedDtos_append (xs ys : List (Row Val)) :
    returnedDtos model returning (xs ++ ys) =
      (returnedDtos model returning xs).bind fun first =>
        (returnedDtos model returning ys).map fun rest => first ++ rest := by
  cases returning with
  | nothing => rfl
  | entities => simp [returnedDtos, Except.bind, Except.map]
  | columns names =>
      simp only [returnedDtos, List.append_eq_nil_iff]
      by_cases hnames : names = []
      · simp [hnames, Except.bind, Except.map]
      · by_cases hxs : xs = []
        · by_cases hys : ys = [] <;> simp [hnames, hxs, hys, Except.bind, Except.map]
        · simp [hnames, hxs, Except.bind]

theorem counted_append (xs ys : List (Row Val)) :
    counted returning (xs ++ ys) = counted returning xs + counted returning ys := by
  unfold counted
  by_cases hreturning : returning = .nothing
  · rw [if_pos hreturning, if_pos hreturning, if_pos hreturning, List.length_append]
  · rw [if_neg hreturning, if_neg hreturning, if_neg hreturning]

variable [DecidableEq Val] {conflict : OnConflict}

theorem insertEach_append_ok {table table' : Table Val} {xs ys : List (Row Val)}
    {records : List (Option (Row Val))}
    (h : insertEach model conflict table (xs ++ ys) = .ok (table', records)) :
    ∃ middle first rest, insertEach model conflict table xs = .ok (middle, first) ∧
      insertEach model conflict middle ys = .ok (table', rest) ∧ records = first ++ rest := by
  rw [insertEach_append] at h
  obtain ⟨first, hxs, h⟩ := bind_eq_ok h
  obtain ⟨rest, hys, heq⟩ := map_eq_ok h
  cases heq
  exact ⟨first.1, first.2, rest.2, hxs, hys, rfl⟩

def Statements (parts : List (List (Row Val))) : Prop :=
  ∀ part ∈ parts, part ≠ [] ∧ part.length ≤ chunkSize

theorem foldlM_createChunk {parts : List (List (Row Val))} (hparts : Statements parts)
    (hkeys : SameKeys parts.flatten) {progress : Progress Val} {table' : Table Val}
    {records : List (Option (Row Val))}
    (h : insertEach model conflict progress.table parts.flatten = .ok (table', records)) :
    parts.foldlM (createChunk model conflict returning) progress =
      (returnedDtos model returning (inserted records)).map fun dtos =>
        ⟨table', progress.allDtos ++ dtos,
          progress.totalInserted + counted returning (inserted records)⟩ := by
  induction parts generalizing progress records with
  | nil =>
      cases h
      cases returning <;> simp [returnedDtos, inserted, counted, Except.map, pure, Except.pure]
  | cons part parts ih =>
      rw [List.flatten_cons] at h hkeys
      obtain ⟨middle, first, rest, hfirst, hrest, rfl⟩ := insertEach_append_ok h
      obtain ⟨hne, hlength⟩ := hparts part List.mem_cons_self
      have hvalues : insertValues model conflict progress.table part = .ok (middle, first) := by
        rw [insertValues_eq_insertEach hne hlength
          (hkeys.of_subset (List.subset_append_left _ _)), hfirst]
      have htail : Statements parts := fun part' hpart' =>
        hparts part' (List.mem_cons_of_mem _ hpart')
      have hparts' := @ih htail (hkeys.of_subset (List.subset_append_right _ _))
      rw [List.foldlM_cons, createChunk, hvalues, inserted_append, returnedDtos_append,
        counted_append]
      cases hdtos : returnedDtos model returning (inserted first) with
      | error e => simp [bind, Except.bind, Except.map, hdtos]
      | ok dtos =>
          simp only [bind, Except.bind, Except.map, hdtos]
          rw [@hparts' ⟨middle, progress.allDtos ++ dtos,
            progress.totalInserted + counted returning (inserted first)⟩ rest hrest]
          cases returnedDtos model returning (inserted rest) with
          | error e => rfl
          | ok more => simp [Except.map, Nat.add_assoc]

theorem create_ok (returning : Returning) {supply : Supply Val} (hsupply : ¬ supply.continued)
    {table table' : Table Val} {rows : List (Row Val)} (hne : rows ≠ []) (hkeys : SameKeys rows)
    {records : List (Option (Row Val))}
    (h : insertEach model conflict table (rows.map supply.merge) = .ok (table', records)) :
    MutationQueryExecutor.create model conflict returning supply table (some rows) [] =
      (returnedDtos model returning (inserted records)).map fun dtos =>
        (table', if returning = .nothing then .int (inserted records).length
          else .list (dtos.map .dto)) := by
  have hsize : 0 < chunkSize := by decide
  have hflatten := flatten_chunks hsize (rows.map supply.merge)
  have hparts : Statements (chunks chunkSize (rows.map supply.merge)) :=
    fun part hpart => mem_chunks hsize hpart
  have hfold := @foldlM_createChunk Val model returning _ conflict _ hparts
    (by rw [hflatten]; exact hkeys.merge supply) ⟨table, [], 0⟩ table' records
    (by rw [hflatten]; exact h)
  simp only [MutationQueryExecutor.create, Option.getD_some, if_neg hne, if_neg hsupply, hfold]
  cases hdtos : returnedDtos model returning (inserted records) with
  | error e => rfl
  | ok dtos =>
      by_cases hreturning : returning = .nothing
      · simp [Except.map, counted, hreturning]
      · simp [Except.map, hreturning]

/-- `execute_bulk` puts the lists of its statements together. -/
theorem foldlM_bulkChunk (hreturning : returning ≠ .nothing) {parts : List (List (Row Val))}
    (hparts : ∀ part ∈ parts, part ≠ []) (hkeys : SameKeys parts.flatten)
    (state : Table Val × List (Entry Val)) {table' : Table Val}
    {records : List (Option (Row Val))}
    (h : insertEach model conflict state.1 parts.flatten = .ok (table', records)) :
    parts.foldlM (bulkChunk model conflict returning) state =
      (returnedDtos model returning (inserted records)).map fun dtos =>
        (table', state.2 ++ dtos.map .dto) := by
  induction parts generalizing state records with
  | nil =>
      cases h
      cases returning with
      | nothing => exact absurd rfl hreturning
      | entities => simp [returnedDtos, inserted, Except.map, pure, Except.pure]
      | columns names => simp [returnedDtos, inserted, Except.map, pure, Except.pure]
  | cons part parts ih =>
      rw [List.flatten_cons] at h hkeys
      obtain ⟨middle, first, rest, hfirst, hrest, rfl⟩ := insertEach_append_ok h
      have hcreate := create_ok returning not_continued_empty (hparts part List.mem_cons_self)
        (hkeys.of_subset (List.subset_append_left _ _)) (by rw [map_merge_empty]; exact hfirst)
      have hrest' := @ih (fun part' hpart' => hparts part' (List.mem_cons_of_mem _ hpart'))
        (hkeys.of_subset (List.subset_append_right _ _))
      rw [List.foldlM_cons, bulkChunk, hcreate, inserted_append, returnedDtos_append]
      cases returnedDtos model returning (inserted first) with
      | error e => rfl
      | ok dtos =>
          simp only [bind, Except.bind, Except.map, if_neg hreturning]
          rw [hrest' (middle, state.2 ++ dtos.map Entry.dto) hrest]
          cases returnedDtos model returning (inserted rest) with
          | error e => rfl
          | ok more => simp [Except.map]

/-- With `returning=False` the list has the counts that are not zero. -/
theorem foldlM_bulkChunk_counts {parts : List (List (Row Val))}
    (hparts : ∀ part ∈ parts, part ≠ []) (hkeys : SameKeys parts.flatten)
    (state : Table Val × List (Entry Val)) {table' : Table Val}
    {records : List (Option (Row Val))}
    (h : insertEach model conflict state.1 parts.flatten = .ok (table', records)) :
    ∃ counts : List Nat, parts.foldlM (bulkChunk model conflict .nothing) state =
        .ok (table', state.2 ++ counts.map .count) ∧ counts.sum = (inserted records).length := by
  induction parts generalizing state records with
  | nil =>
      cases h
      exact ⟨[], by simp [pure, Except.pure], rfl⟩
  | cons part parts ih =>
      rw [List.flatten_cons] at h hkeys
      obtain ⟨middle, first, rest, hfirst, hrest, rfl⟩ := insertEach_append_ok h
      have hcreate := create_ok .nothing not_continued_empty (hparts part List.mem_cons_self)
        (hkeys.of_subset (List.subset_append_left _ _)) (by rw [map_merge_empty]; exact hfirst)
      have hrest' := @ih (fun part' hpart' => hparts part' (List.mem_cons_of_mem _ hpart'))
        (hkeys.of_subset (List.subset_append_right _ _))
      rw [List.foldlM_cons, bulkChunk, hcreate, inserted_append, List.length_append]
      by_cases hzero : (inserted first).length = 0
      · obtain ⟨counts, hcounts, hsum⟩ := hrest' (middle, state.2) hrest
        refine ⟨counts, ?_, by omega⟩
        simpa [bind, Except.bind, Except.map, returnedDtos, hzero] using hcounts
      · obtain ⟨counts, hcounts, hsum⟩ :=
          hrest' (middle, state.2 ++ [.count (inserted first).length]) hrest
        refine ⟨(inserted first).length :: counts, ?_, by simp [hsum]⟩
        simpa [bind, Except.bind, Except.map, returnedDtos, hzero] using hcounts

theorem bulkSize_pos (fieldsCount : Nat) : 0 < bulkSize fieldsCount := by
  unfold bulkSize
  omega

/-- `execute_bulk` of rows with a key, as a loop. -/
theorem executeBulk_cons {first : Row Val} (hfirst : first ≠ []) (rest : List (Row Val))
    (table : Table Val) :
    BaseCommand.executeBulk model conflict returning table (first :: rest) =
      ((chunks (bulkSize first.length) (first :: rest)).foldlM
        (bulkChunk model conflict returning) (table, [])).map fun state =>
          (state.1, .list state.2) := by
  rw [BaseCommand.executeBulk, if_neg (fun h => hfirst (List.eq_nil_iff_length_eq_zero.mpr h))]

theorem executeBulk_ok (hreturning : returning ≠ .nothing) {first : Row Val} (hfirst : first ≠ [])
    {rest : List (Row Val)} (hkeys : SameKeys (first :: rest)) {table table' : Table Val}
    {records : List (Option (Row Val))}
    (h : insertEach model conflict table (first :: rest) = .ok (table', records)) :
    BaseCommand.executeBulk model conflict returning table (first :: rest) =
      (returnedDtos model returning (inserted records)).map fun dtos =>
        (table', .list (dtos.map .dto)) := by
  have hsize := bulkSize_pos first.length
  have hflatten := flatten_chunks hsize (first :: rest)
  have hfold := foldlM_bulkChunk hreturning
    (fun part hpart => (mem_chunks hsize hpart).1) (by rw [hflatten]; exact hkeys) (table, [])
    (by rw [hflatten]; exact h)
  rw [executeBulk_cons hfirst, hfold]
  cases returnedDtos model returning (inserted records) with
  | error e => rfl
  | ok dtos => rfl

/-- The counts `execute_bulk` returns add up to the number of rows inserted. -/
theorem executeBulk_counts {first : Row Val} (hfirst : first ≠ []) {rest : List (Row Val)}
    (hkeys : SameKeys (first :: rest)) {table table' : Table Val}
    {records : List (Option (Row Val))}
    (h : insertEach model conflict table (first :: rest) = .ok (table', records)) :
    ∃ counts : List Nat,
      BaseCommand.executeBulk model conflict .nothing table (first :: rest) =
        .ok (table', .list (counts.map .count)) ∧ counts.sum = (inserted records).length := by
  have hsize := bulkSize_pos first.length
  have hflatten := flatten_chunks hsize (first :: rest)
  obtain ⟨counts, hcounts, hsum⟩ := foldlM_bulkChunk_counts
    (fun part hpart => (mem_chunks hsize hpart).1) (by rw [hflatten]; exact hkeys) (table, [])
    (by rw [hflatten]; exact h)
  refine ⟨counts, ?_, hsum⟩
  rw [executeBulk_cons hfirst, hcounts]
  rfl

/-- `create` fails where inserting the rows one by one does. -/
theorem foldlM_createChunk_error (hreturning : returning = .nothing ∨ returning = .entities)
    {parts : List (List (Row Val))} (hparts : Statements parts) (hkeys : SameKeys parts.flatten)
    (progress : Progress Val) {e : AppException}
    (h : insertEach model conflict progress.table parts.flatten = .error e) :
    parts.foldlM (createChunk model conflict returning) progress = .error e := by
  induction parts generalizing progress with
  | nil => cases h
  | cons part parts ih =>
      rw [List.flatten_cons] at h hkeys
      obtain ⟨hne, hlength⟩ := hparts part List.mem_cons_self
      have hvalues : insertValues model conflict progress.table part =
          insertEach model conflict progress.table part :=
        insertValues_eq_insertEach hne hlength (hkeys.of_subset (List.subset_append_left _ _)) _
      have htail : Statements parts := fun part' hpart' =>
        hparts part' (List.mem_cons_of_mem _ hpart')
      have hparts' := ih htail (hkeys.of_subset (List.subset_append_right _ _))
      rw [insertEach_append] at h
      rw [List.foldlM_cons, createChunk, hvalues]
      cases hfirst : insertEach model conflict progress.table part with
      | error e' =>
          rw [hfirst] at h
          cases h
          rfl
      | ok first =>
          have hrest : insertEach model conflict first.1 parts.flatten = .error e := by
            rw [hfirst, Except.bind] at h
            cases hrest : insertEach model conflict first.1 parts.flatten <;> rw [hrest] at h
            · exact h
            · cases h
          obtain ⟨dtos, hdtos⟩ : ∃ dtos,
              returnedDtos model returning (inserted first.2) = .ok dtos := by
            rcases hreturning with rfl | rfl
            · exact ⟨_, rfl⟩
            · exact ⟨_, rfl⟩
          simp only [bind, Except.bind, Except.map, hdtos]
          exact hparts' _ hrest

theorem create_error (hreturning : returning = .nothing ∨ returning = .entities)
    {supply : Supply Val} (hsupply : ¬ supply.continued) {table : Table Val}
    {rows : List (Row Val)} (hkeys : SameKeys rows) {e : AppException}
    (h : insertEach model conflict table (rows.map supply.merge) = .error e) :
    MutationQueryExecutor.create model conflict returning supply table (some rows) [] =
      .error e := by
  have hne : rows ≠ [] := by
    rintro rfl
    cases h
  have hsize : 0 < chunkSize := by decide
  have hflatten := flatten_chunks hsize (rows.map supply.merge)
  have hparts : Statements (chunks chunkSize (rows.map supply.merge)) :=
    fun part hpart => mem_chunks hsize hpart
  have hfold := foldlM_createChunk_error hreturning hparts
    (by rw [hflatten]; exact hkeys.merge supply) ⟨table, [], 0⟩ (by rw [hflatten]; exact h)
  simp only [MutationQueryExecutor.create, Option.getD_some, if_neg hne, if_neg hsupply, hfold]
  rfl

end Loops

/-! ## What inserting one by one leaves -/

section Each

variable {Val : Type}

def Stored (model : Model Val) (row r : Row Val) : Prop :=
  ∀ name v, Dict.get name row = some v →
    Dict.get name r = some v ∧ name ∈ model.columns.map Column.name

theorem get_filterMap (f : String → Option Val) (name : String) (names : List String) :
    Dict.get name (names.filterMap fun name => (f name).map fun v => (name, v)) =
      if name ∈ names then f name else none := by
  induction names with
  | nil => rfl
  | cons name' names ih =>
      rw [List.filterMap_cons]
      by_cases hname : name' = name
      · subst hname
        cases hf : f name' with
        | none =>
            rw [Option.map_none]
            rw [ih, hf]
            split_ifs <;> rfl
        | some v => simp [Dict.get]
      · have hmem : name ∈ name' :: names ↔ name ∈ names := by
          rw [List.mem_cons]
          exact or_iff_right (Ne.symm hname)
        simp only [hmem]
        cases f name' with
        | none => exact ih
        | some v =>
            simp only [Option.map_some, Dict.get, if_neg hname]
            exact ih

theorem Model.get_toDto (model : Model Val) {row r : Row Val} (h : Stored model row r)
    {name : String} (hfield : name ∈ model.fields) {v : Val} (hv : Dict.get name row = some v) :
    Dict.get name (model.toDto r) = some v := by
  obtain ⟨hget, hcolumn⟩ := h name v hv
  obtain ⟨column, hmem, rfl⟩ := List.mem_map.mp hcolumn
  have hhybrid : Dict.get column.name model.hybrids = none :=
    Dict.get_eq_none (model.plain column hmem)
  rw [toDto, get_filterMap, if_pos hfield, field, hhybrid]
  exact hget

theorem get_record {named : List String} {n : Nat} {row r : Row Val}
    {columns : List (Column Val)} (h : record named n row columns = .ok r) {name : String}
    (hnamed : name ∈ named) {v : Val} (hv : Dict.get name row = some v)
    (hcolumn : name ∈ columns.map Column.name) : Dict.get name r = some v := by
  induction columns generalizing r with
  | nil => cases hcolumn
  | cons column columns ih =>
      rw [record] at h
      obtain ⟨w, hvalue, h⟩ := bind_eq_ok h
      obtain ⟨rest, hrest, rfl⟩ := map_eq_ok h
      rw [Dict.get]
      by_cases hname : column.name = name
      · subst hname
        rw [value, if_pos hnamed, hv] at hvalue
        rw [if_pos rfl]
        cases hvalue
        rfl
      · rw [if_neg hname]
        rw [List.map_cons, List.mem_cons] at hcolumn
        exact ih hrest (hcolumn.resolve_left (Ne.symm hname))

variable [DecidableEq Val] {model : Model Val} {conflict : OnConflict}

/-- A row is stored at the end of the table, or skipped, which a plain INSERT
does not do. -/
theorem store_ok {table table' : Table Val} {r : Row Val} {stored : Option (Row Val)}
    (h : store model conflict table r = .ok (table', stored)) :
    table'.rows = table.rows ++ stored.toList ∧ (∀ r' ∈ stored, r' = r) ∧
      (conflict = .raise → stored ≠ none) := by
  unfold store at h
  cases hrefusal : model.refusal r with
  | some kind =>
      rw [hrefusal] at h
      cases h
  | none =>
      rw [hrefusal] at h
      split_ifs at h with hskips hunique
      · cases h
        refine ⟨(List.append_nil _).symm, fun r' hr' => (by cases hr'), ?_⟩
        rintro rfl
        cases hskips
      · cases h
        exact ⟨rfl, fun r' hr' => (Option.some.inj hr').symm, fun _ => Option.some_ne_none r⟩

theorem insertValues_single {table table' : Table Val} {row : Row Val}
    {records : List (Option (Row Val))}
    (h : insertValues model conflict table [row] = .ok (table', records)) :
    ∃ stored : Option (Row Val), records = [stored] ∧
      table'.rows = table.rows ++ stored.toList ∧ (∀ r ∈ stored, Stored model row r) ∧
        (conflict = .raise → stored ≠ none) := by
  by_cases hpasses : Passes model conflict (row.map Prod.fst)
  · have hname : Name [row] (row.map Prod.fst) := by
      intro row' hrow' name
      rw [List.mem_singleton.mp hrow']
    rw [insertValues_of_passes hpasses hname (length_single_le row), insertRows] at h
    obtain ⟨first, hrow, h⟩ := bind_eq_ok h
    obtain ⟨r, hrecord, hstore⟩ := bind_eq_ok hrow
    obtain ⟨hrows, hstored, hraise⟩ := store_ok hstore
    cases h
    refine ⟨first.2, rfl, hrows, fun r' hr' => ?_, hraise⟩
    rw [hstored r' hr']
    intro name v hv
    have hmem : name ∈ row.map Prod.fst := mem_keys_iff.mpr (by rw [hv]; rfl)
    have hcolumn := hpasses.consumed name hmem
    exact ⟨get_record hrecord hmem hv hcolumn, hcolumn⟩
  · obtain ⟨e, he⟩ := insertValues_of_not_passes hpasses
    have hname : Name [row] (row.map Prod.fst) := by
      intro row' hrow' name
      rw [List.mem_singleton.mp hrow']
    rw [he row [] table hname (length_single_le row)] at h
    cases h

/-- Inserting one by one appends what it inserts, one record for each row. -/
theorem insertEach_ok {table table' : Table Val} {rows : List (Row Val)}
    {records : List (Option (Row Val))}
    (h : insertEach model conflict table rows = .ok (table', records)) :
    table'.rows = table.rows ++ inserted records ∧
      List.Forall₂ (fun row stored => ∀ r ∈ stored, Stored model row r) rows records ∧
      (conflict = .raise → none ∉ records) := by
  induction rows generalizing table records with
  | nil =>
      cases h
      exact ⟨(List.append_nil _).symm, .nil, fun _ => List.not_mem_nil⟩
  | cons row rows ih =>
      rw [insertEach] at h
      obtain ⟨first, hfirst, h⟩ := bind_eq_ok h
      obtain ⟨rest, hrest, heq⟩ := map_eq_ok h
      cases heq
      obtain ⟨stored, hsingle, hrows, hstored, hraise⟩ := insertValues_single hfirst
      obtain ⟨hrows', hstored', hraise'⟩ := ih hrest
      rw [hsingle, List.singleton_append]
      refine ⟨?_, .cons hstored hstored', fun hconflict => ?_⟩
      · rw [hrows', hrows, List.append_assoc]
        cases stored <;> rfl
      · rw [List.mem_cons, not_or]
        exact ⟨(hraise hconflict).symm, hraise' hconflict⟩

theorem create_keywords (returning : Returning) {supply : Supply Val} (hsupply : ¬ supply.continued)
    (table : Table Val) (kwargs : Row Val) :
    MutationQueryExecutor.create model conflict returning supply table none kwargs =
      (createChunk model conflict returning ⟨table, [], 0⟩ [supply.merge kwargs]).map
        fun progress => (progress.table,
          if returning = .nothing then .int progress.totalInserted
          else match progress.allDtos with
            | [] => .none
            | dto :: _ => .one dto) := by
  have hchunks : chunks chunkSize [supply.merge kwargs] = [[supply.merge kwargs]] :=
    chunks_singleton (by decide) _
  unfold MutationQueryExecutor.create
  simp only [Option.getD_none, List.cons_ne_nil, if_false, if_neg hsupply, List.map_cons,
    List.map_nil, hchunks, List.foldlM_cons, List.foldlM_nil, bind_pure, Option.isSome_none,
    Bool.false_eq_true]

theorem create_one {supply : Supply Val} (hsupply : ¬ supply.continued)
    {table table' : Table Val} {kwargs : Row Val} {answer : Returned Val}
    (h : MutationQueryExecutor.create model .raise .entities supply table none kwargs =
      .ok (table', answer)) :
    ∃ r, table'.rows = table.rows ++ [r] ∧ Stored model (supply.merge kwargs) r ∧
      answer = .one (model.toDto r) := by
  rw [create_keywords .entities hsupply] at h
  obtain ⟨progress, hchunk, h⟩ := map_eq_ok h
  obtain ⟨res, hvalues, hchunk⟩ := bind_eq_ok hchunk
  obtain ⟨stored, hrecords, hrows, hstored, hraise⟩ := insertValues_single hvalues
  obtain ⟨r, rfl⟩ := Option.ne_none_iff_exists'.mp (hraise rfl)
  rw [hrecords] at hchunk
  cases hchunk
  cases h
  exact ⟨r, hrows, hstored r rfl, rfl⟩

end Each

/-! ## What a statement raises -/

section Raises

variable {Val : Type}

/-- SQLAlchemy cannot write the statement, or the database refuses it. -/
inductive Refusal : AppException → Prop
  | compile : Refusal (.other "CompileError")
  | database (kind : DatabaseErrorKind) : Refusal (.databaseError kind)

theorem refusal_of_value {named : List String} {n : Nat} {row : Row Val} {column : Column Val}
    {e : AppException} (h : value named n row column = .error e) : Refusal e := by
  unfold value at h
  split at h
  · cases h
  · cases h
  · split_ifs at h
    cases h
    exact .compile
  · split_ifs at h
    · cases h
      exact .compile
    · cases h
      exact .database _

theorem refusal_of_record {named : List String} {n : Nat} {row : Row Val}
    {columns : List (Column Val)} {e : AppException} (h : record named n row columns = .error e) :
    Refusal e := by
  induction columns with
  | nil => cases h
  | cons column columns ih =>
      rcases bind_eq_error h with hvalue | ⟨v, -, hrest⟩
      · exact refusal_of_value hvalue
      · exact ih (map_eq_error hrest)

variable [DecidableEq Val] {model : Model Val} {conflict : OnConflict}

theorem refusal_of_store {table : Table Val} {row : Row Val} {e : AppException}
    (h : store model conflict table row = .error e) : Refusal e := by
  unfold store at h
  split at h
  · cases h
    exact .database _
  · split_ifs at h
    cases h
    exact .database _

theorem refusal_of_insertRows {named : List String} {table : Table Val} {rows : List (Row Val)}
    {e : AppException} (h : insertRows model conflict named table rows = .error e) :
    Refusal e := by
  induction rows generalizing table with
  | nil => cases h
  | cons row rows ih =>
      rcases bind_eq_error h with hrow | ⟨first, -, hrest⟩
      · rcases bind_eq_error hrow with hrecord | ⟨r, -, hstore⟩
        · exact refusal_of_record hrecord
        · exact refusal_of_store hstore
      · exact ih (map_eq_error hrest)

theorem refusal_of_insertValues {table : Table Val} {rows : List (Row Val)} {e : AppException}
    (h : insertValues model conflict table rows = .error e) : Refusal e := by
  unfold insertValues at h
  dsimp only at h
  split_ifs at h
  · cases h
    exact .compile
  · cases h
    exact .database _
  · cases h
    exact .database _
  · exact refusal_of_insertRows h
  · exact refusal_of_insertRows h

/-- Whole rows come back as DTOs, so `create` raises what its statements raise. -/
theorem refusal_of_create {supply : Supply Val} (hsupply : ¬ supply.continued)
    {table : Table Val} {mData : Option (List (Row Val))} {kwargs : Row Val} {e : AppException}
    (h : MutationQueryExecutor.create model conflict .entities supply table mData kwargs =
      .error e) : Refusal e := by
  unfold MutationQueryExecutor.create at h
  dsimp only at h
  by_cases hempty : mData.getD [kwargs] = []
  · rw [if_pos hempty] at h
    cases h
  rw [if_neg hempty, if_neg hsupply] at h
  obtain ⟨chunk, -, progress, hchunk⟩ := foldlM_eq_error (map_eq_error h)
  rcases bind_eq_error hchunk with hvalues | ⟨res, -, hdtos⟩
  · exact refusal_of_insertValues hvalues
  · cases hdtos

end Raises

/-! ## The answers -/

section Answers

variable {Val : Type} (model : Model Val) (returning : Returning)

/-- The number of rows inserted, or their DTOs in order. -/
def answer (records : List (Option (Row Val))) : Returned Val :=
  if returning = .nothing then .int (inserted records).length
  else .list ((inserted records).map fun r => .dto (model.toDto r))

variable {model returning}

/-- The DTOs come back only as entities. -/
theorem map_returnedDtos_iff (hreturning : returning ≠ .nothing) (table' : Table Val)
    (records : List (Option (Row Val))) :
    ((returnedDtos model returning (inserted records)).map fun dtos =>
        (table', Returned.list (dtos.map .dto))) = .ok (table', answer model returning records) ↔
      returning = .entities ∨ inserted records = [] := by
  rw [answer, if_neg hreturning]
  cases returning with
  | nothing => exact absurd rfl hreturning
  | entities => simp [returnedDtos, Except.map]
  | columns names =>
      cases hinserted : inserted records with
      | nil => simp [returnedDtos, Except.map]
      | cons r rs =>
          by_cases hnames : names = []
          · simp [returnedDtos, Except.map, hnames]
          · simp [returnedDtos, Except.map, hnames]

end Answers

section OneByOne

variable {Val : Type} [DecidableEq Val] (model : Model Val) (conflict : OnConflict)
  (returning : Returning)

/-- The call has the effect of inserting the rows one by one, which leaves
`table'` with the records inserted, `none` for a row that was skipped. -/
structure AsOneByOne (route : Route Val) (table : Table Val) (rows : List (Row Val))
    (table' : Table Val) (records : List (Option (Row Val))) : Prop where
  returned : route.run model conflict returning table rows =
    .ok (table', answer model returning records)
  gained : table'.rows = table.rows ++ inserted records
  whole : conflict = .raise → none ∉ records
  /-- Without conflicts each row has its DTO, with its own and the supplied values. -/
  aligned : none ∉ records → (inserted records).length = rows.length ∧
    ∀ i (hi : i < rows.length) (hi' : i < (inserted records).length), ∀ name ∈ model.fields,
      ∀ v, (Dict.get name rows[i]).or (route.supply.value name) = some v →
        Dict.get name (model.toDto (inserted records)[i]) = some v

/-- With `returning=False` the list is not empty and goes to `create` itself;
`execute_bulk` finds a key in the first row; no column is to be returned; and through a
continued query nothing is created. -/
def Answered (route : Route Val) (rows : List (Row Val)) (records : List (Option (Row Val))) :
    Prop :=
  match route, returning with
  | .create supply, .nothing => ¬ supply.continued ∧ rows ≠ []
  | .create supply, .entities => supply.continued → rows = []
  | .create supply, .columns _ => (supply.continued → rows = []) ∧ inserted records = []
  | .executeBulk, .nothing => False
  | .executeBulk, .entities => ∀ row ∈ rows.head?, row ≠ []
  | .executeBulk, .columns _ => (∀ row ∈ rows.head?, row ≠ []) ∧ inserted records = []

variable {model conflict returning}

theorem run_create_iff (supply : Supply Val) {table table' : Table Val} {rows : List (Row Val)}
    (hkeys : SameKeys rows) {records : List (Option (Row Val))}
    (h : insertEach model conflict table (rows.map supply.merge) = .ok (table', records)) :
    MutationQueryExecutor.create model conflict returning supply table (some rows) [] =
        .ok (table', answer model returning records) ↔
      Answered returning (.create supply) rows records := by
  by_cases hne : rows = []
  · subst hne
    cases h
    cases returning <;> simp [MutationQueryExecutor.create, answer, Answered, inserted]
  by_cases hsupply : supply.continued
  · cases returning <;> simp [MutationQueryExecutor.create, Answered, hne, hsupply]
  · rw [create_ok returning hsupply hne hkeys h]
    by_cases hreturning : returning = .nothing
    · subst hreturning
      simp [returnedDtos, answer, Answered, hne, hsupply, Except.map]
    · simp only [if_neg hreturning]
      rw [map_returnedDtos_iff hreturning]
      cases returning with
      | nothing => exact absurd rfl hreturning
      | entities => simp [Answered, hsupply]
      | columns names => simp [Answered, hsupply]

theorem run_executeBulk_iff {table table' : Table Val} {rows : List (Row Val)}
    (hkeys : SameKeys rows) {records : List (Option (Row Val))}
    (h : insertEach model conflict table rows = .ok (table', records)) :
    BaseCommand.executeBulk model conflict returning table rows =
        .ok (table', answer model returning records) ↔
      Answered returning .executeBulk rows records := by
  cases rows with
  | nil =>
      cases h
      cases returning <;> simp [BaseCommand.executeBulk, answer, Answered, inserted]
  | cons first rest =>
      by_cases hfirst : first = []
      · subst hfirst
        cases returning <;> simp [BaseCommand.executeBulk, Answered]
      · by_cases hreturning : returning = .nothing
        · subst hreturning
          obtain ⟨counts, hcounts, _⟩ := executeBulk_counts hfirst hkeys h
          simp [hcounts, answer, Answered]
        · rw [executeBulk_ok hreturning hfirst hkeys h, map_returnedDtos_iff hreturning]
          cases returning with
          | nothing => exact absurd rfl hreturning
          | entities => simp [Answered, hfirst]
          | columns names => simp [Answered, hfirst]

theorem run_iff (route : Route Val) {table table' : Table Val} {rows : List (Row Val)}
    (hkeys : SameKeys rows) {records : List (Option (Row Val))}
    (h : insertEach model conflict table (route.items rows) = .ok (table', records)) :
    route.run model conflict returning table rows = .ok (table', answer model returning records) ↔
      Answered returning route rows records := by
  cases route with
  | create supply => exact run_create_iff supply hkeys h
  | executeBulk =>
      rw [items_executeBulk] at h
      exact run_executeBulk_iff hkeys h

/-- Inserting one by one, when it goes through, is what a call does exactly when
it is one that can answer so. -/
theorem asOneByOne_iff {route : Route Val} {rows : List (Row Val)} (hkeys : SameKeys rows)
    {table table' : Table Val} {records : List (Option (Row Val))}
    (h : insertEach model conflict table (route.items rows) = .ok (table', records)) :
    AsOneByOne model conflict returning route table rows table' records ↔
      Answered returning route rows records := by
  constructor
  · intro has
    exact (run_iff route hkeys h).mp has.returned
  · intro hanswered
    obtain ⟨hgained, hstored, hraise⟩ := insertEach_ok h
    refine ⟨(run_iff route hkeys h).mpr hanswered, hgained, hraise, fun hwhole => ?_⟩
    have hrows := List.forall₂_map_left_iff.mp (forall₂_inserted hstored hwhole)
    refine ⟨hrows.length_eq.symm, fun i hi hi' name hname v hv => ?_⟩
    rw [← get_merge] at hv
    exact model.get_toDto (hrows.get hi hi') hname hv

end OneByOne

/-! ## Order items -/

section Examples

def orderItems (now : Nat) : Model (Option Nat) where
  columns := [⟨"id", .server fun n => some (n + 1)⟩, ⟨"created_at", .server fun _ => some now⟩,
    ⟨"updated_at", .server fun _ => some now⟩, ⟨"order_id", .required⟩, ⟨"category_id", .required⟩,
    ⟨"quantity", .required⟩, ⟨"purchase_price", .server fun _ => none⟩]
  unique := [["id"]]
  null := none
  refusal row :=
    if ["order_id", "category_id", "quantity"].any fun name => Dict.get name row = some none then
      some .notNullViolation
    else none
  fields := ["id", "order_id", "category_id", "quantity"]
  hybrids := []
  distinct := by simp
  plain := fun _ _ => List.not_mem_nil
  narrow := by simp
  given := .inr ⟨⟨"order_id", .required⟩, by simp, rfl⟩

def twoItems : List (Row (Option Nat)) :=
  [[("category_id", some 1), ("quantity", some 2)], [("category_id", some 3), ("quantity", some 1)]]

/-- The DTOs of two order items created through a filter. -/
theorem asOneByOne_orderItems :
    AsOneByOne (orderItems 0) .raise .entities (.create { filters := [("order_id", some 7)] })
      ⟨[], 0⟩ twoItems
      ⟨[[("id", some 1), ("created_at", some 0), ("updated_at", some 0), ("order_id", some 7),
          ("category_id", some 1), ("quantity", some 2), ("purchase_price", none)],
        [("id", some 2), ("created_at", some 0), ("updated_at", some 0), ("order_id", some 7),
          ("category_id", some 3), ("quantity", some 1), ("purchase_price", none)]], 2⟩
      [some [("id", some 1), ("created_at", some 0), ("updated_at", some 0), ("order_id", some 7),
          ("category_id", some 1), ("quantity", some 2), ("purchase_price", none)],
        some [("id", some 2), ("created_at", some 0), ("updated_at", some 0), ("order_id", some 7),
          ("category_id", some 3), ("quantity", some 1), ("purchase_price", none)]] := by
  have hkeys : SameKeys twoItems := by
    have hnames : ∀ row ∈ twoItems, row.map Prod.fst = ["category_id", "quantity"] := by decide
    intro row hrow row' hrow' name
    rw [hnames row hrow, hnames row' hrow']
  exact (asOneByOne_iff hkeys (by decide +kernel)).mpr (fun h => by cases h)

/-- The number of no rows is not zero but an empty list. -/
theorem create_no_rows :
    MutationQueryExecutor.create (orderItems 0) .raise .nothing {} ⟨[], 0⟩ (some []) [] =
        .ok (⟨[], 0⟩, .list []) ∧
      insertEach (orderItems 0) .raise ⟨[], 0⟩ [] = .ok (⟨[], 0⟩, []) ∧
      ¬ AsOneByOne (orderItems 0) .raise .nothing (.create {}) ⟨[], 0⟩ [] ⟨[], 0⟩ [] := by
  refine ⟨rfl, rfl, fun h => ?_⟩
  cases h.returned

end Examples

end TicketBooking.Query.Inserts
