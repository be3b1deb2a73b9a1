import Mathlib.Data.List.Sort
import TicketBooking.Library.Outcomes
import TicketBooking.Query.Matching
/-!
# Sorted pages

`QueryPreparer._apply_sorting`, the page `paginate` cuts from the sorted rows, and
the response it is shown in.
How the database orders the values of a column is a parameter; rows that compare
equal stay in the order of the table.
-/

namespace TicketBooking.Query.Sorting

open TicketBooking.Library TicketBooking.Library.Joins TicketBooking.Library.Outcomes
open TicketBooking.Query.Builder TicketBooking.Query.Filters TicketBooking.Query.Matching

variable {M Row Val Arg : Type}

/-- The field, and whether the order is descending. -/
def sortField (orderBy : String) : String × Bool :=
  match orderBy.toList with
  | '-' :: rest => (String.ofList rest, true)
  | _ => (orderBy, false)

/-- `precedes u v`: `u` may stand before `v` in ascending order. -/
def directed (precedes : Option Val → Option Val → Bool) (descending : Bool) (u v : Option Val) :
    Bool :=
  if descending then precedes v u else precedes u v

/-- `query.order_by` ignores the empty text. -/
def orderGiven (orderBy : Option String) : Option String := orderBy.filter (· ≠ "")

structure PaginatedResponse (α : Type) where
  count : Nat
  maxPages : Nat
  results : List α
  deriving DecidableEq, Repr

/-- `_paginate_raw`; `max_pages` is the limit. -/
def paginateRaw {α : Type} (items : List α) (totalItems limit : Nat) : PaginatedResponse α :=
  ⟨totalItems, limit, items⟩

section Statements

variable [DecidableEq M] [DecidableEq Val] (mapping : Mapping M Row Val Arg)
  (precedes : Option Val → Option Val → Bool) (b : QueryBuilder M Row Val Arg) (db : Db M Row)

/-- The column a row is sorted by; the annotated columns are selected only when
there is a filter. -/
def sortValue (field : String) : Except QueryError (Row → Option Val) :=
  match mapping.schema.attr b.model field with
  | some (.column _) => .ok (mapping.schema.read db b.model field)
  | some (.relation _) => .error .refused
  | none =>
      match if b.filters = [] then none else Dict.get field b.annotations with
      | some expr => .ok fun row =>
          expr.value (expr.binds.map fun bind => boundValue (selectBinds mapping b) bind.1 bind.2)
            db row
      | none => .error (.valueError
          s!"Invalid sort field '{field}' for model {mapping.className b.model}")

def applySorting (orderBy : Option String) (rows : List Row) : Except QueryError (List Row) :=
  match orderGiven orderBy with
  | none => .ok rows
  | some text =>
      (sortValue mapping b db (sortField text).1).map fun value =>
        rows.insertionSort fun x y =>
          directed precedes (sortField text).2 (value x) (value y) = true

/-- The statement is prepared before it is executed. -/
def sortedRows (orderBy : Option String) : Except QueryError (List Row) :=
  match prepareQuery mapping b, applySorting mapping precedes b db orderBy [] with
  | .error e, _ => .error e
  | .ok _, .error e => .error e
  | .ok _, .ok _ =>
      match fetch mapping b db with
      | .error e => .error e
      | .ok rows => applySorting mapping precedes b db orderBy rows

/-- `query.order_by(order_by).paginate(offset=offset, limit=limit)`. -/
def sortedPage [DecidableEq Row] (orderBy : Option String) (offset limit : Nat) :
    Except QueryError (List Row × Nat) :=
  (sortedRows mapping precedes b db orderBy).map fun rows =>
    let page := (rows.drop offset).take limit
    (unique page, if page = [] then 0 else rows.length)

end Statements

variable [DecidableEq M] [DecidableEq Val] {mapping : Mapping M Row Val Arg}
  {precedes : Option Val → Option Val → Bool} {b : QueryBuilder M Row Val Arg} {db : Db M Row}

/-! ## Queries on the class itself -/

omit [DecidableEq Val] in
theorem joinPaths_nil {paths : List (List (Join M Row))} (h : ∀ path ∈ paths, path = []) :
    joinPaths paths = [] := by
  unfold joinPaths
  induction paths with
  | nil => rfl
  | cons path paths ih =>
      rw [List.foldl_cons, h path List.mem_cons_self]
      exact ih fun path hpath => h path (List.mem_cons_of_mem _ hpath)

/-- Without a filter on a relation nothing is joined, and the SELECT filters the
table. -/
theorem execute_of_plain {clauses : List (Clause M Row Val Arg)}
    (hprepare : prepareQuery mapping b = .ok clauses) (hplain : ∀ c ∈ clauses, c.relations = []) :
    execute mapping b db = .ok ((db b.model).filter fun root =>
      clausesHold mapping b db clauses (selectBinds mapping b) root (single b.model root)) := by
  have hjoins : selectJoins mapping b db = [] := by
    refine joinPaths_nil fun path hpath => ?_
    obtain ⟨c, hc, rfl⟩ := List.mem_map.mp hpath
    rw [hplain c (prepareQuery_ok hprepare ▸ hc)]
    rfl
  unfold execute
  simp only [hprepare, hjoins, List.map_nil, List.not_mem_nil, if_false, environments]
  congr 1
  induction db b.model with
  | nil => rfl
  | cons root rows ih =>
      rw [List.flatMap_cons, ih]
      simp only [List.filter_cons, List.filter_nil]
      cases clausesHold mapping b db clauses (selectBinds mapping b) root (single b.model root) <;>
        rfl

theorem fetch_of_plain {clauses : List (Clause M Row Val Arg)}
    (hprepare : prepareQuery mapping b = .ok clauses) (hplain : ∀ c ∈ clauses, c.relations = []) :
    fetch mapping b db = .ok ((db b.model).filter fun root =>
      clausesHold mapping b db clauses (selectBinds mapping b) root (single b.model root)) := by
  refine fetch_eq_ok.mpr ⟨execute_of_plain hprepare hplain, eagerLoads_of_onePath [] fun c hc => ?_⟩
  exact .inl (hplain c (prepareQuery_ok hprepare ▸ hc))

end TicketBooking.Query.Sorting
