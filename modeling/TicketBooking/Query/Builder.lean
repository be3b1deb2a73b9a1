import Mathlib.Data.List.Dedup
import TicketBooking.Query.Filters
/-!
# Query execution

`QueryBuilder` with the statements its operations run: the joined SELECT of the
reads, the UPDATE that takes over the WHERE clauses of that SELECT, and the
DELETE with a subquery for each filter on a relation.  Sorting, the loader
options a caller gives and locking do not change which rows are found and are
left out.
-/

namespace TicketBooking.Query.Builder

open TicketBooking.Library.Joins
open TicketBooking.Query.Filters TicketBooking.Query.Operators

variable {M Row Val Arg : Type}

/-- What continuing a query through a relationship leaves in the history. -/
structure Continuation (M Arg : Type) where
  model : M
  filters : FilterDict Arg
  relation : Relation M

/-- `model` is `_get_current_model()`; the history has its latest entry first. -/
structure QueryBuilder (M Row Val Arg : Type) where
  model : M
  filters : FilterDict Arg := []
  annotations : Annotations M Row Val Arg := []
  contextHistory : List (Continuation M Arg) := []

inductive QueryError
  | valueError (message : String)
  | attributeError
  | typeError
  /-- SQLAlchemy or the database refuses the statement. -/
  | refused
  deriving DecidableEq, Repr

/-- The keyword parameters of `_prepare_query`. -/
def reserved : List String := ["order_by", "options", "with_for_update", "annotations"]

structure Mapping (M Row Val Arg : Type) where
  schema : Schema M Row Val
  comparison : Comparison M Row Val Arg
  className : M → String

section Statements

variable [DecidableEq M] [DecidableEq Val] (mapping : Mapping M Row Val Arg)
  (b : QueryBuilder M Row Val Arg) (db : Db M Row)

def clausesHold (clauses : List (Clause M Row Val Arg)) (binds : List (String × Arg)) (root : Row)
    (env : Env M Row) : Bool :=
  clauses.all fun c =>
    match env (c.owner b.model) with
    | some row => c.holds mapping.schema mapping.comparison db binds root row
    | none => false

/-! ## SELECT -/

def selectClauses : List (Clause M Row Val Arg) :=
  prepareFilters mapping.schema b.model b.filters b.annotations

/-- The joins of `apply_context_filters`: a class that is joined is not joined again. -/
def selectJoins : List (Join M Row) :=
  joinPaths ((selectClauses mapping b).map fun c => joinsOf mapping.schema db c.relations)

/-- The annotated columns come before the WHERE clauses. -/
def selectBinds : List (String × Arg) :=
  b.annotations.flatMap (fun annotation => annotation.2.binds) ++
    (selectClauses mapping b).flatMap Clause.binds

/-- `_prepare_query`; a continued query fails for want of `_build_final_criteria`. -/
def prepareQuery : Except QueryError (List (Clause M Row Val Arg)) :=
  if b.contextHistory ≠ [] then .error .attributeError
  else if b.filters.any fun filter => filter.1 ∈ reserved then .error .typeError
  else if (selectClauses mapping b).all (Clause.builds mapping.comparison) then
    .ok (selectClauses mapping b)
  else .error .refused

/-- The rows of the SELECT: the queried row once for each match of the joins.
A join of the queried class itself names its table twice. -/
def execute : Except QueryError (List Row) :=
  match prepareQuery mapping b with
  | .error e => .error e
  | .ok clauses =>
      if b.model ∈ (selectJoins mapping b db).map Join.target then .error .refused
      else .ok ((db b.model).flatMap fun root =>
        ((environments db (selectJoins mapping b db) (single b.model root)).filter
          (clausesHold mapping b db clauses (selectBinds mapping b) root)).map fun _ => root)

/-- `eager_options`: of each path what follows from its first class that was not joined yet. -/
def eagerOptions : List M → List (List (Step M)) → List (List (Step M))
  | _, [] => []
  | joinedModels, path :: paths =>
      path.dropWhile (fun step => step.relation.target ∈ joinedModels) ::
        eagerOptions (joinedModels ++ path.map fun step => step.relation.target) paths

/-- A chain of `contains_eager` has to start at the queried class. -/
def eagerLoads : Bool :=
  (eagerOptions [] ((selectClauses mapping b).map Clause.relations)).all fun chain =>
    chain.head?.all fun step => step.source = b.model

/-- The SELECT run for its objects; as the subquery of a count or an `exists` its
loader options are not looked at. -/
def fetch : Except QueryError (List Row) :=
  (execute mapping b db).bind fun rows => if eagerLoads mapping b then .ok rows else .error .refused

section Read

variable [DecidableEq Row]

/-- `.unique()`: the first of equal rows stays. -/
def unique (rows : List Row) : List Row := rows.reverse.dedup.reverse

def ReadQueryExecutor.get : Except QueryError Row :=
  match fetch mapping b db with
  | .error e => .error e
  | .ok rows =>
      let name := mapping.className b.model
      match unique rows with
      | [] => .error (.valueError s!"No {name} found matching criteria.")
      | [row] => .ok row
      | _ => .error (.valueError s!"Multiple {name} returned matching criteria.")

def ReadQueryExecutor.all : Except QueryError (List Row) :=
  (fetch mapping b db).map unique

def ReadQueryExecutor.first : Except QueryError (Option Row) :=
  (fetch mapping b db).map fun rows => (unique rows).head?

/-- The page, and `count(*) OVER ()`, which an empty page does not show. -/
def ReadQueryExecutor.paginate (offset limit : Nat) : Except QueryError (List Row × Nat) :=
  (fetch mapping b db).map fun rows =>
    let page := (rows.drop offset).take limit
    (unique page, if page = [] then 0 else rows.length)

end Read

def ReadQueryExecutor.count : Except QueryError Nat :=
  (execute mapping b db).map List.length

def ReadQueryExecutor.exists : Except QueryError Bool :=
  (execute mapping b db).map fun rows => rows ≠ []

/-! ## UPDATE and DELETE -/

/-- The other tables an UPDATE names in its WHERE clauses; nothing joins them. -/
def updateFrom (clauses : List (Clause M Row Val Arg)) : List (Join M Row) :=
  (((clauses.map (Clause.owner b.model)).filter (· ≠ b.model)).dedup).map fun table =>
    ⟨b.model, table, fun _ _ => true⟩

def MutationQueryExecutor.update : Except QueryError (List Row) :=
  match prepareQuery mapping b with
  | .error e => .error e
  | .ok clauses =>
      .ok ((db b.model).filter fun root =>
        (environments db (updateFrom b clauses) (single b.model root)).any
          (clausesHold mapping b db clauses (clauses.flatMap Clause.binds) root))

/-- A clause of the DELETE: on the row itself, or `local IN (SELECT remote ...)`. -/
def deleteClause (binds : List (String × Arg)) (c : Clause M Row Val Arg) (root : Row) : Bool :=
  match c.relations with
  | [] => c.holds mapping.schema mapping.comparison db binds root root
  | first :: rest =>
      let rel := first.relation
      (db rel.target).any fun row =>
        sameColumns mapping.schema db first.source rel.target
            (rel.localColumns.zip rel.remoteSide) root row &&
          (environments db (joinsOf mapping.schema db rest) (single rel.target row)).any
            (clausesHold mapping b db [c] binds root)

/-- A subquery that joins a class twice names its table twice. -/
def namesOnce (c : Clause M Row Val Arg) : Bool :=
  (c.relations.map fun step => step.relation.target).Nodup

/-- `apply_modification_filters` prepares the filters without the annotations. -/
def deleteClauses : List (Clause M Row Val Arg) :=
  prepareFilters mapping.schema b.model b.filters []

def MutationQueryExecutor.delete : Except QueryError (List Row) :=
  let clauses := deleteClauses mapping b
  if clauses.all fun c => c.builds mapping.comparison && namesOnce c then
    .ok ((db b.model).filter fun root => clauses.all fun c =>
      deleteClause mapping b db (clauses.flatMap Clause.binds) c root)
  else .error .refused

/-! ## All operations -/

inductive Operation
  | get
  | all
  | first
  | count
  | exists'
  | paginate (offset limit : Nat)
  | update
  | delete
  deriving DecidableEq, Repr

/-- The rows an operation returns, counts or modifies; for `paginate` those its
total counts, which the page is cut from. -/
def touched [DecidableEq Row] : Operation → Except QueryError (List Row)
  | .get => (ReadQueryExecutor.get mapping b db).map fun row => [row]
  | .all => ReadQueryExecutor.all mapping b db
  | .first => (ReadQueryExecutor.first mapping b db).map Option.toList
  | .count => execute mapping b db
  | .exists' => execute mapping b db
  | .paginate _ _ => fetch mapping b db
  | .update => MutationQueryExecutor.update mapping b db
  | .delete => MutationQueryExecutor.delete mapping b db

end Statements

end TicketBooking.Query.Builder
