import TicketBooking.Library.Dict
import TicketBooking.Library.Joins
import TicketBooking.Query.Operators
/-!
# From filters to clauses

The mapped classes, `FilterResolver.resolve`, and `QueryFilterApplier`: the
joins and WHERE clauses a SELECT gets for its filters, and the clauses of a
DELETE.  `M` are the mapped classes, `Row` their rows, `Val` the values of
columns and `Arg` the values of filters.
-/

namespace TicketBooking.Query.Filters

open TicketBooking.Library TicketBooking.Library.Joins
open TicketBooking.Query.Operators

/-! ## Mapped classes -/

/-- A relationship: the pairs of columns of its join condition, and
`list(prop.local_columns)` and `list(prop.remote_side)` in the order Python
happens to list the sets. -/
structure Relation (M : Type) where
  target : M
  columns : List (String × String)
  localColumns : List String
  remoteSide : List String
  uselist : Bool
  deriving DecidableEq

/-- A mapped attribute.  A hybrid is a column; `name` is `col.name`, for an
expression that has one. -/
inductive Attribute (M : Type)
  | column (name : Option String)
  | relation (rel : Relation M)

abbrev Db (M Row : Type) := M → List Row

/-- The classes with their attributes and primary keys, and what a column reads
on a row; `none` is NULL. -/
structure Schema (M Row Val : Type) where
  attr : M → String → Option (Attribute M)
  primaryKey : M → List String
  read : Db M Row → M → String → Row → Option Val

/-- Whether the clause `OPERATORS[op](col, val)` is TRUE, for a value of the
column; the argument can be an expression on the row of the queried class.
`none` when the call raises. -/
abbrev Comparison (M Row Val Arg : Type) :=
  Operator → Arg → Option (Db M Row → Row → Option Val → Bool)

/-- An annotated expression on the rows of the queried class, with the bind
parameters it carries and its `name` when it is a column. -/
structure Annotation (M Row Val Arg : Type) where
  binds : List (String × Arg)
  name : Option String
  value : List Arg → Db M Row → Row → Option Val

variable {M Row Val Arg : Type}

structure Step (M : Type) where
  source : M
  relation : Relation M
  deriving DecidableEq

section Rows

variable [DecidableEq Val] (schema : Schema M Row Val) (db : Db M Row)

/-- Equal and not NULL in every pair of columns. -/
def sameColumns (source target : M) (columns : List (String × String)) (x y : Row) : Bool :=
  columns.all fun pair =>
    match schema.read db source pair.1 x, schema.read db target pair.2 y with
    | some u, some v => u = v
    | _, _ => false

variable {schema db} in
theorem sameColumns_iff {source target : M} {columns : List (String × String)} {x y : Row} :
    sameColumns schema db source target columns x y ↔ ∀ pair ∈ columns, ∃ value,
      schema.read db source pair.1 x = some value ∧
        schema.read db target pair.2 y = some value := by
  unfold sameColumns
  rw [List.all_eq_true]
  refine forall₂_congr fun pair _ => ?_
  cases schema.read db source pair.1 x <;> cases schema.read db target pair.2 y <;>
    simp [eq_comm]

/-- The ON clause of `stmt.join(rel_attr)`. -/
def Step.join (step : Step M) : Join M Row where
  source := step.source
  target := step.relation.target
  on := sameColumns schema db step.source step.relation.target step.relation.columns

def joinsOf (path : List (Step M)) : List (Join M Row) := path.map (Step.join schema db)

end Rows

/-! ## Resolving a key -/

/-- The relations a path names, and the class they lead to: a name that is no
relation of the class is passed over. -/
def followRelations (schema : Schema M Row Val) : M → List String → List (Step M) × M
  | model, [] => ([], model)
  | model, name :: names =>
      match schema.attr model name with
      | some (.relation rel) =>
          let rest := followRelations schema rel.target names
          (⟨model, rel⟩ :: rest.1, rest.2)
      | _ => followRelations schema model names

structure ResolvedFilter (M : Type) where
  owner : M
  field : String
  column : Option (Attribute M)
  relations : List (Step M)
  operator : Operator

def FilterResolver.resolve (schema : Schema M Row Val) (model : M) (key : String) :
    ResolvedFilter M :=
  let reading := resolvedReading key
  let parts := components reading.1
  let fieldName := parts.getLast (components_ne_nil reading.1)
  let path := followRelations schema model parts.dropLast
  ⟨path.2, fieldName, schema.attr path.2 fieldName, path.1, reading.2⟩

/-! ## Clauses -/

/-- What a clause compares: an attribute of a joined class, or an annotation. -/
inductive Subject (M Row Val Arg : Type)
  | field (owner : M) (field : String) (column : Attribute M)
  | annotated (expr : Annotation M Row Val Arg)

/-- `OPERATORS[operator](subject, val)`, with the joins its class is reached by. -/
structure Clause (M Row Val Arg : Type) where
  relations : List (Step M)
  subject : Subject M Row Val Arg
  operator : Operator
  val : Arg

def Subject.name : Subject M Row Val Arg → Option String
  | .field _ _ (.column name) => name
  | .field _ _ (.relation _) => none
  | .annotated expr => expr.name

/-- The bind parameter an IN clause names after its column. -/
def Clause.bindName (c : Clause M Row Val Arg) : Option String :=
  match c.operator with
  | .isIn => c.subject.name.map ("exp_in_" ++ ·)
  | .notIn => c.subject.name.map ("exp_notin_" ++ ·)
  | _ => none

/-- The named bind parameters of a clause, in the order they are rendered. -/
def Clause.binds (c : Clause M Row Val Arg) : List (String × Arg) :=
  let own := match c.bindName with
    | some name => [(name, c.val)]
    | none => []
  match c.subject with
  | .field _ _ _ => own
  | .annotated expr => expr.binds ++ own

/-- Whether `OPERATORS[operator](subject, val)` returns.  An IN clause reads
`col.name`; `any()` is for collections, and nothing else is for relationships. -/
def Clause.builds (comparison : Comparison M Row Val Arg) (c : Clause M Row Val Arg) : Bool :=
  match c.subject, c.operator with
  | .field _ _ (.relation rel), .hasAny => rel.uselist
  | .field _ _ (.relation _), _ => false
  | _, .hasAny => false
  | subject, .isIn => subject.name.isSome ∧ (comparison .isIn c.val).isSome
  | subject, .notIn => subject.name.isSome ∧ (comparison .notIn c.val).isSome
  | _, op => (comparison op c.val).isSome

/-- One value for each name: the parameter rendered last decides. -/
def boundValue (binds : List (String × Arg)) (name : String) (own : Arg) : Arg :=
  (Dict.get name (Dict.ofList Prod.fst Prod.snd binds)).getD own

section Holds

variable [DecidableEq Val] (schema : Schema M Row Val) (comparison : Comparison M Row Val Arg)
  (db : Db M Row) (binds : List (String × Arg))

def Clause.bound (c : Clause M Row Val Arg) : Arg :=
  match c.bindName with
  | some name => boundValue binds name c.val
  | none => c.val

/-- The clause is TRUE; `root` is the row of the queried class, `row` that of
the class the attribute belongs to. -/
def Clause.holds (c : Clause M Row Val Arg) (root row : Row) : Bool :=
  match c.subject with
  | .field owner field (.column _) =>
      match comparison c.operator (c.bound binds) with
      | some test => test db root (schema.read db owner field row)
      | none => false
  | .field owner _ (.relation rel) =>
      (db rel.target).any fun other => sameColumns schema db owner rel.target rel.columns row other
  | .annotated expr =>
      match comparison c.operator (c.bound binds) with
      | some test =>
          test db root
            (expr.value (expr.binds.map fun bind => boundValue binds bind.1 bind.2) db root)
      | none => false

end Holds

def Clause.owner (model : M) (c : Clause M Row Val Arg) : M :=
  match c.subject with
  | .field owner _ _ => owner
  | .annotated _ => model

/-! ## `_prepare_filters` -/

/-- A filter dictionary; `none` is `None`. -/
abbrev FilterDict (Arg : Type) := List (String × Option Arg)

abbrev Annotations (M Row Val Arg : Type) := List (String × Annotation M Row Val Arg)

/-- The filters with a value. -/
def given (filters : FilterDict Arg) : List (String × Arg) :=
  filters.filterMap fun filter => filter.2.map fun val => (filter.1, val)

/-- The clause of one filter; `none` when it is dropped. -/
def prepare (schema : Schema M Row Val) (model : M) (annotations : Annotations M Row Val Arg)
    (filter : String × Arg) : Option (Clause M Row Val Arg) :=
  let reading := preparedReading filter.1
  match Dict.get reading.1 annotations with
  | some expr => some ⟨[], .annotated expr, reading.2, filter.2⟩
  | none =>
      let res := FilterResolver.resolve schema model filter.1
      res.column.map fun column =>
        ⟨res.relations, .field res.owner res.field column, res.operator, filter.2⟩

/-- `normal_prepared` and then `annotation_prepared`. -/
def prepareFilters (schema : Schema M Row Val) (model : M) (filters : FilterDict Arg)
    (annotations : Annotations M Row Val Arg) : List (Clause M Row Val Arg) :=
  let prepared := (given filters).filterMap (prepare schema model annotations)
  prepared.filter (fun c => c.subject matches .field _ _ _) ++
    prepared.filter (fun c => c.subject matches .annotated _)

section Prepared

variable {schema : Schema M Row Val} {model : M} {filters : FilterDict Arg}
  {annotations : Annotations M Row Val Arg}

/-- Filters on fields that come before those on annotations keep their order. -/
theorem prepareFilters_eq {fields flags : List (Clause M Row Val Arg)}
    (hprepared : (given filters).filterMap (prepare schema model annotations) = fields ++ flags)
    (hfields : ∀ c ∈ fields, ∃ owner field column, c.subject = .field owner field column)
    (hflags : ∀ c ∈ flags, ∃ expr, c.subject = .annotated expr) :
    prepareFilters schema model filters annotations = fields ++ flags := by
  have hkept : ∀ keep : Clause M Row Val Arg → Bool, (∀ c ∈ fields, keep c) →
      (∀ c ∈ flags, ¬ keep c) → (fields ++ flags).filter keep = fields := by
    intro keep hkeep hdrop
    rw [List.filter_append, List.filter_eq_self.mpr hkeep, List.filter_eq_nil_iff.mpr hdrop,
      List.append_nil]
  have hmoved : ∀ keep : Clause M Row Val Arg → Bool, (∀ c ∈ fields, ¬ keep c) →
      (∀ c ∈ flags, keep c) → (fields ++ flags).filter keep = flags := by
    intro keep hdrop hkeep
    rw [List.filter_append, List.filter_eq_nil_iff.mpr hdrop, List.filter_eq_self.mpr hkeep,
      List.nil_append]
  unfold prepareFilters
  dsimp only
  rw [hprepared, hkept, hmoved]
  all_goals intro c hc
  · obtain ⟨owner, field, column, h⟩ := hfields c hc
    simp [h]
  · obtain ⟨expr, h⟩ := hflags c hc
    simp [h]
  · obtain ⟨owner, field, column, h⟩ := hfields c hc
    simp [h]
  · obtain ⟨expr, h⟩ := hflags c hc
    simp [h]

end Prepared

end TicketBooking.Query.Filters
