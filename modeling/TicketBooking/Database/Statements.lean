import TicketBooking.Database.Lookups
import TicketBooking.Database.Shared
import TicketBooking.Library.Sessions
import TicketBooking.Query.Expressions
import TicketBooking.Query.PageCounts
/-!
# Statements on the columns of one class

A SELECT, an UPDATE and a DELETE whose filters name columns of the class itself: all
three find the rows that the comparisons of the filters hold of.
-/

namespace TicketBooking.Database.Statements

open TicketBooking.App.Exceptions (AppException)
open TicketBooking.Database.Lookups TicketBooking.Database.Models TicketBooking.Database.Shared
open TicketBooking.Database.Tables (Row)
open TicketBooking.Library TicketBooking.Library.Joins TicketBooking.Library.Sessions
open TicketBooking.Query.Builder TicketBooking.Query.Comparisons TicketBooking.Query.Expressions
open TicketBooking.Query.Filters TicketBooking.Query.Matching TicketBooking.Query.Operators
open TicketBooking.Query.Paths (PathError attributeOf followNames relationNames targetField
  BaseExpression.resolvePath)
open TicketBooking.Query.PageCounts (unique_of_nodup)
open TicketBooking.Query.Sorting (fetch_of_plain)

/-- The key says a field of the class itself and the operator, in a filter and in a condition. -/
structure OwnKey (key field : String) (op : Operator) : Prop where
  prepared : preparedReading key = (field, op)
  resolved : resolvedReading key = (field, op)
  parts : components field = [field]
  free : key ∉ reserved

def ownKeys : List (String × String × Operator) :=
  ["id", "category_id", "status", "state", "order_id", "email", "anonymous_email", "role",
    "is_active"].map (fun field => (field, field, .eq)) ++
  [("id__in", "id", .isIn), ("state__in", "state", .isIn),
    ("order_item_id__in", "order_item_id", .isIn), ("role__ne", "role", .ne),
    ("available_quantity__gte", "available_quantity", .gte)]

theorem ownKeys_read : ∀ k ∈ ownKeys, preparedReading k.1 = k.2 ∧ resolvedReading k.1 = k.2 ∧
    components k.2.1 = [k.2.1] ∧ k.1 ∉ reserved := by
  decide +kernel

theorem OwnKey.of {key field : String} {op : Operator} (h : (key, field, op) ∈ ownKeys) :
    OwnKey key field op := by
  obtain ⟨hprepared, hresolved, hparts, hfree⟩ := ownKeys_read _ h
  exact ⟨hprepared, hresolved, hparts, hfree⟩

theorem OwnKey.namesColumn {model : Model} {key : String} (h : OwnKey key key .eq)
    (hattr : Dict.get key (attributes model) = some (column key)) : NamesColumn model key :=
  ⟨h.resolved, h.parts, hattr, h.free⟩

/-- A filter on a column of the class: its key, the field and the operator it says, and the
column's name. -/
structure OwnFilter (Arg : Type) where
  key : String
  field : String
  op : Operator
  name : Option String
  val : Arg

/-- The booking system's classes, for filter values of another type. -/
def mappingOf {Arg : Type} (now : Int) (comparison : Comparison Model Record Value Arg) :
    Mapping Model Record Value Arg where
  schema := (mapping now).schema
  comparison := comparison
  className := Model.name

def ownQuery {Arg : Type} (model : Model) (filters : List (OwnFilter Arg)) :
    QueryBuilder Model Record Value Arg where
  model := model
  filters := filters.map fun f => (f.key, some f.val)

section Own

variable {Arg : Type} {now : Int} {comparison : Comparison Model Record Value Arg} {model : Model}
  {filters : List (OwnFilter Arg)} {db : Rows}

def ownClause (model : Model) (f : OwnFilter Arg) : Clause Model Record Value Arg :=
  ⟨[], .field model f.field (.column f.name), f.op, f.val⟩

structure OwnFilter.Valid (comparison : Comparison Model Record Value Arg) (model : Model)
    (f : OwnFilter Arg) : Prop where
  resolved : resolvedReading f.key = (f.field, f.op)
  parts : components f.field = [f.field]
  attr : Dict.get f.field (attributes model) = some (.column f.name)
  free : f.key ∉ reserved
  builds : (ownClause model f).builds comparison

/-- The filters are valid, and name their parameters apart. -/
structure Valid (comparison : Comparison Model Record Value Arg) (model : Model)
    (filters : List (OwnFilter Arg)) : Prop where
  each : ∀ f ∈ filters, f.Valid comparison model
  agree : BindsAgree ((filters.map (ownClause model)).flatMap Clause.binds)

theorem OwnKey.valid {key field : String} {op : Operator} {name : Option String} {val : Arg}
    (h : OwnKey key field op) (attr : Dict.get field (attributes model) = some (.column name))
    (builds : (ownClause model ⟨key, field, op, name, val⟩).builds comparison) :
    OwnFilter.Valid comparison model ⟨key, field, op, name, val⟩ :=
  ⟨h.resolved, h.parts, attr, h.free, builds⟩

def OwnFilter.holds (now : Int) (comparison : Comparison Model Record Value Arg) (db : Rows)
    (f : OwnFilter Arg) (row : Record) : Bool :=
  (comparison f.op f.val).any fun test => test db row (readRecord now db f.field row)

def ownRows (now : Int) (comparison : Comparison Model Record Value Arg) (db : Rows)
    (model : Model) (filters : List (OwnFilter Arg)) : List Record :=
  (db model).filter fun row => filters.all fun f => f.holds now comparison db row

theorem prepare_own {f : OwnFilter Arg} (h : f.Valid comparison model) :
    prepare (mapping now).schema model [] (f.key, f.val) = some (ownClause model f) := by
  have hschema : (mapping now).schema.attr model f.field = some (.column f.name) := h.attr
  simp only [prepare, Dict.get, FilterResolver.resolve, h.resolved, h.parts, List.dropLast,
    List.getLast_singleton, followRelations, hschema]
  rfl

theorem selectClauses_own (h : ∀ f ∈ filters, f.Valid comparison model) :
    selectClauses (mappingOf now comparison) (ownQuery model filters) =
      filters.map (ownClause model) := by
  have hprepared : (given (ownQuery model filters).filters).filterMap
      (prepare (mapping now).schema model []) = filters.map (ownClause model) := by
    induction filters with
    | nil => rfl
    | cons f filters ih =>
        obtain ⟨hf, hrest⟩ := List.forall_mem_cons.mp h
        show List.filterMap _ ((f.key, f.val) :: given (ownQuery model filters).filters) = _
        rw [List.filterMap_cons, prepare_own hf, ih hrest]
        rfl
  rw [← List.append_nil (filters.map _)] at hprepared ⊢
  refine prepareFilters_eq hprepared (fun c hc => ?_) fun c hc => by cases hc
  obtain ⟨f, -, rfl⟩ := List.mem_map.mp hc
  exact ⟨_, _, _, rfl⟩

theorem prepareQuery_own (h : ∀ f ∈ filters, f.Valid comparison model) :
    prepareQuery (mappingOf now comparison) (ownQuery model filters) =
      .ok (filters.map (ownClause model)) := by
  have hreserved : ¬ (ownQuery model filters).filters.any fun f => f.1 ∈ reserved := by
    simp only [ownQuery, List.any_map, List.any_eq_true, not_exists, not_and]
    intro f hf
    exact decide_eq_true_iff.not.mpr (h f hf).free
  have hbuilds : (filters.map (ownClause model)).all
      (Clause.builds (mappingOf now comparison).comparison) := by
    simp only [List.all_map, List.all_eq_true]
    exact fun f hf => (h f hf).builds
  unfold prepareQuery
  rw [selectClauses_own h, if_neg (by simp [ownQuery]), if_neg hreserved, if_pos hbuilds]

/-- With every parameter its own, a clause is its filter. -/
theorem holds_own (h : Valid comparison model filters) {f : OwnFilter Arg} (hf : f ∈ filters)
    (row : Record) :
    (ownClause model f).holds (mappingOf now comparison).schema comparison db
        ((filters.map (ownClause model)).flatMap Clause.binds) row row =
      f.holds now comparison db row := by
  refine holds_column rfl (fun bind hbind => ?_) row
  refine boundValue_eq h.agree (List.mem_flatMap.mpr ⟨_, List.mem_map_of_mem hf, hbind⟩)

theorem clausesHold_own (h : Valid comparison model filters) (row : Record) :
    clausesHold (mappingOf now comparison) (ownQuery model filters) db
        (filters.map (ownClause model)) ((filters.map (ownClause model)).flatMap Clause.binds) row
        (single model row) =
      filters.all fun f => f.holds now comparison db row := by
  rw [Bool.eq_iff_iff, clausesHold_iff, List.all_eq_true, List.forall_mem_map]
  refine forall₂_congr fun f hf => ?_
  have hself : single model row ((ownClause model f).owner (ownQuery model filters).model) =
      some row := single_self model row
  rw [hself, ← holds_own h hf]
  simp [mappingOf]

theorem fetch_own (h : Valid comparison model filters) :
    fetch (mappingOf now comparison) (ownQuery model filters) db =
      .ok (ownRows now comparison db model filters) := by
  have hplain : ∀ c ∈ filters.map (ownClause model), c.relations = [] := by
    intro c hc
    obtain ⟨f, -, rfl⟩ := List.mem_map.mp hc
    rfl
  rw [fetch_of_plain (prepareQuery_own h.each) hplain]
  refine congrArg Except.ok (List.filter_congr fun row _ => ?_)
  unfold selectBinds
  rw [selectClauses_own h.each]
  exact clausesHold_own h row

theorem update_own (h : Valid comparison model filters) :
    MutationQueryExecutor.update (mappingOf now comparison) (ownQuery model filters) db =
      .ok (ownRows now comparison db model filters) := by
  have hfrom : updateFrom (ownQuery model filters) (filters.map (ownClause model)) =
      ([] : List (Join Model Record)) := by
    unfold updateFrom
    rw [List.map_eq_nil_iff, List.dedup_eq_nil, List.filter_eq_nil_iff]
    intro table htable
    obtain ⟨c, hc, rfl⟩ := List.mem_map.mp htable
    obtain ⟨f, -, rfl⟩ := List.mem_map.mp hc
    exact fun hne => of_decide_eq_true hne rfl
  unfold MutationQueryExecutor.update
  rw [prepareQuery_own h.each]
  simp only [hfrom, environments, List.any_cons, List.any_nil, Bool.or_false]
  exact congrArg Except.ok (List.filter_congr fun row _ => clausesHold_own h row)

theorem delete_own (h : Valid comparison model filters) :
    MutationQueryExecutor.delete (mappingOf now comparison) (ownQuery model filters) db =
      .ok (ownRows now comparison db model filters) := by
  have hclauses : deleteClauses (mappingOf now comparison) (ownQuery model filters) =
      filters.map (ownClause model) := selectClauses_own h.each
  have hbuilds : ((filters.map (ownClause model)).all fun c =>
      c.builds (mappingOf now comparison).comparison && namesOnce c) = true := by
    simp only [List.all_map, List.all_eq_true]
    exact fun f hf => Bool.and_eq_true_iff.mpr ⟨(h.each f hf).builds, rfl⟩
  unfold MutationQueryExecutor.delete
  simp only [hclauses, hbuilds, if_true]
  refine congrArg Except.ok (List.filter_congr fun row _ => ?_)
  rw [List.all_map, Bool.eq_iff_iff, List.all_eq_true, List.all_eq_true]
  exact forall₂_congr fun f hf => by rw [← holds_own h hf]; rfl

end Own

/-! ## Filters on expressions -/

/-- A condition on a column of the class, without a parameter of its own. -/
def ownCondition (model : Model) (c : Condition Model Argument) : Bool :=
  match c.expression with
  | .attribute field =>
      (attributeOf model field).any (fun attr => attr matches .column _) &&
        c.operator ∉ [Operator.isIn, .notIn]
  | _ => false

/-- A CASE over columns of the class. -/
structure ColumnCase where
  model : Model
  expression : CaseExpression Model Value Argument
  own : expression.whens.all fun branch => branch.1.all (ownCondition model)

def columnCase (model : Model) (e : CaseExpression Model Value Argument) : Option ColumnCase :=
  if h : e.whens.all fun branch => branch.1.all (ownCondition model) then some ⟨model, e, h⟩
  else none

/-- The value of a filter after `v.resolve(model, operators_map)`. -/
inductive Operand
  | plain (arg : Argument)
  | cases (e : ColumnCase)

def ColumnCase.value (now : Int) (db : Rows) (e : ColumnCase) (row : Record) :
    Except PathError (Option Value) :=
  e.expression.value (mapping now).schema (mapping now).comparison e.model [] db []
    (single e.model row) row

/-- The operators that compare with another expression. -/
def comparesExpressions : List Operator := [.eq, .ne, .gte, .lte, .gt, .lt]

/-- A comparison with NULL is not TRUE. -/
def operandComparison (now : Int) : Comparison Model Record Value Operand
  | op, .plain arg => (mapping now).comparison op arg
  | op, .cases e =>
      if op ∈ comparesExpressions then
        some fun db root u =>
          match e.value now db root with
          | .ok (some v) => (Query.Comparisons.compare op (.one v)).any (· u)
          | _ => false
      else none

theorem eq_cases {now : Int} {e : ColumnCase} {db : Rows} {root : Record} {u v : Option Value}
    (hvalue : e.value now db root = .ok v) :
    ((operandComparison now .eq (.cases e)).any fun test => test db root u) =
      v.any fun v => u = some v := by
  simp only [operandComparison, show Operator.eq ∈ comparesExpressions from .head _, if_true,
    Option.any_some, hvalue]
  cases v <;> rfl

/-! ## Conditions on columns -/

section Conditions

variable {now : Int} {model : Model} {key field : String} {op : Operator} {name : Option String}
  {arg : Argument} {db : Rows}

theorem resolveCondition_own (h : OwnKey key field op)
    (hattr : Dict.get field (attributes model) = some (.column name))
    (hbuilds : (ownClause model ⟨key, field, op, name, arg⟩).builds (mapping now).comparison) :
    resolveCondition (mapping now).schema (mapping now).comparison Model.name model (key, arg) =
      .ok ⟨.attribute field, op, arg⟩ := by
  have hschema : (mapping now).schema.attr model field = some (.column name) := hattr
  have hpath :
      BaseExpression.resolvePath (mapping now).schema Model.name model field =
        .ok (.attribute field) := by
    simp only [BaseExpression.resolvePath, relationNames, targetField, h.parts, List.dropLast,
      List.getLast_singleton, hschema]
  have hcondition : Condition.builds (mapping now).schema (mapping now).comparison model
      ⟨.attribute field, op, arg⟩ := by
    simp only [Condition.builds, Condition.clause, subject, hschema, Option.getD_some]
    exact hbuilds
  simp only [resolveCondition, h.prepared, hpath, Except.bind, if_pos hcondition]

theorem readsPath_own (h : OwnKey key field op) :
    ReadsPath (mapping now).schema Model.name model [] db (key, arg) := by
  have hfollow : followNames (mapping now).schema Model.name model
      (relationNames (preparedReading key).1) = .ok ([], model) := by
    simp only [relationNames, h.prepared, h.parts]
    rfl
  refine ⟨fun steps last hlast => ?_, fun steps last hlast => ?_⟩
  · cases hfollow.symm.trans hlast
    exact ⟨trivial, fun _ _ => rfl⟩
  · cases hfollow.symm.trans hlast
    intro step hstep
    cases hstep

theorem conditionMet_own (h : OwnKey key field op)
    (hattr : Dict.get field (attributes model) = some (.column name)) (row : Record) :
    conditionMet (mapping now).schema (mapping now).comparison Model.name model db row (key, arg) =
      OwnFilter.holds now (mapping now).comparison db ⟨key, field, op, name, arg⟩ row := by
  have hschema : (mapping now).schema.attr model field = some (.column name) := hattr
  have hfollow : followNames (mapping now).schema Model.name model (relationNames field) =
      .ok ([], model) := by
    simp only [relationNames, h.parts]
    rfl
  simp only [conditionMet, h.prepared, hfollow, targetField, h.parts, List.getLast_singleton,
    hschema]
  rfl

end Conditions

/-! ## The services' statements -/

/-- `repo.filter(...).all()`. -/
def allRows (now : Int) (db : Tables.Db) (model : Model) (filters : List (OwnFilter Argument)) :
    Except AppException (List Record) :=
  (ReadQueryExecutor.all (mapping now) (ownQuery model filters) (records db)).mapError raised

/-- `repo.filter(...).exists()`. -/
def existsRow (now : Int) (db : Tables.Db) (model : Model) (filters : List (OwnFilter Argument)) :
    Except AppException Bool :=
  (ReadQueryExecutor.exists (mapping now) (ownQuery model filters) (records db)).mapError raised

/-- The rows that `repo.filter(...).update(...)` changes. -/
def updatedRows (now : Int) (db : Tables.Db) (model : Model)
    (filters : List (OwnFilter Argument)) : Except AppException (List Record) :=
  (MutationQueryExecutor.update (mapping now) (ownQuery model filters) (records db)).mapError raised

/-- The rows that `repo.filter(...).delete()` removes. -/
def deletedRows (now : Int) (db : Tables.Db) (query : ModelQuery) :
    Except AppException (List Record) :=
  (MutationQueryExecutor.delete (mapping now) query (records db)).mapError raised

/-- What a statement answers, or the exception that ends the call. -/
def answered {α Pc : Type} (raise : AppException → Pc) (answer : Except AppException α)
    (next : α → Effect Store Row × Pc) : Effect Store Row × Pc :=
  match answer with
  | .ok found => next found
  | .error e => (.rollback, raise e)

def idOf : Record → Nat
  | .user row => row.id
  | .eventCategory row => row.id
  | .event row => row.id
  | .ticketCategory row => row.id
  | .order row => row.id
  | .orderItem row => row.id
  | .ticket row => row.id

/-- An UPDATE locks the row it found.  No session waits for a row of the other classes. -/
def lockFound : Record → Effect Store Row
  | .user row => .lock (.user row.id)
  | .event row => .lock (.event row.id)
  | .ticketCategory row => .lock (.ticketCategory row.id)
  | .order row => .lock (.order row.id)
  | _ => .stay

def equals (key : String) (v : Value) : OwnFilter Argument := ⟨key, key, .eq, some key, .one v⟩

section Equals

variable {now : Int} {model : Model} {key : String} {v : Value} {kwargs : List (String × Value)}

theorem valid_equals (h : NamesColumn model key) :
    (equals key v).Valid (mapping now).comparison model :=
  ⟨h.resolved, h.parts, h.attr, h.free, rfl⟩

theorem holds_equals (db : Rows) (row : Record) :
    (equals key v).holds now (mapping now).comparison db row =
      decide (readRecord now db key row = some v) :=
  rfl

/-- At most one parameter is named. -/
theorem agree_of_single {Arg : Type} {binds : List (String × Arg)} (h : binds.length ≤ 1) :
    BindsAgree binds := by
  intro bind hbind bind' hbind' _
  match binds, h with
  | [], _ => cases hbind
  | [only], _ => rw [List.mem_singleton.mp hbind, List.mem_singleton.mp hbind']

theorem valid_equals_all (kwargs : List (String × Value))
    (h : ∀ kwarg ∈ kwargs, NamesColumn model kwarg.1) :
    Valid (mapping now).comparison model (kwargs.map fun kwarg => equals kwarg.1 kwarg.2) := by
  have hbinds : ((kwargs.map fun kwarg => equals kwarg.1 kwarg.2).map
      (ownClause model)).flatMap Clause.binds = [] := by
    simp only [List.flatMap_eq_nil_iff, List.forall_mem_map]
    exact fun _ _ => rfl
  refine ⟨List.forall_mem_map.mpr fun kwarg hkwarg => valid_equals (h kwarg hkwarg), ?_⟩
  rw [hbinds]
  exact agree_of_single (Nat.zero_le 1)

end Equals

section Related

variable {now : Int} {model : Model} {name field : String} {v : Value} {rel : Relation Model}

/-- A filter on a column of a related class. -/
def relatedClause (model : Model) (rel : Relation Model) (field : String) (v : Value) :
    Clause Model Record Value Argument :=
  ⟨[⟨model, rel⟩], .field rel.target field (column field), .eq, .one v⟩

def relatedRows (now : Int) (db : Rows) (model : Model) (rel : Relation Model) (field : String)
    (v : Value) : List Record :=
  (db model).filter fun root => (db rel.target).any fun row =>
    sameColumns (mapping now).schema db model rel.target (rel.localColumns.zip rel.remoteSide) root
        row &&
      readRecord now db field row = some v

theorem delete_related {key : String} (hresolved : resolvedReading key = (key, .eq))
    (hparts : components key = [name, field])
    (hrelation : Dict.get name (attributes model) = some (.relation rel))
    (hcolumn : Dict.get field (attributes rel.target) = some (column field)) (db : Rows) :
    MutationQueryExecutor.delete (mapping now) (filter model [(key, v)]) db =
      .ok (relatedRows now db model rel field v) := by
  have hrel : (mapping now).schema.attr model name = some (.relation rel) := hrelation
  have hattr : (mapping now).schema.attr rel.target field = some (column field) := hcolumn
  have hprepare : prepare (mapping now).schema model [] (key, .one v) =
      some (relatedClause model rel field v) := by
    simp only [prepare, Dict.get, FilterResolver.resolve, hresolved, hparts, List.dropLast,
      List.getLast_cons_cons, List.getLast_singleton, followRelations, hrel, hattr]
    rfl
  have hclauses : deleteClauses (mapping now) (filter model [(key, v)]) =
      [relatedClause model rel field v] := by
    have hprepared : (given (filter model [(key, v)]).filters).filterMap
        (prepare (mapping now).schema model []) = [relatedClause model rel field v] ++ [] := by
      show [(key, Argument.one v)].filterMap (prepare (mapping now).schema model []) = _
      rw [List.filterMap_cons, hprepare]
      rfl
    refine prepareFilters_eq hprepared (fun c hc => ?_) fun c hc => by cases hc
    rw [List.mem_singleton.mp hc]
    exact ⟨_, _, _, rfl⟩
  unfold MutationQueryExecutor.delete
  simp only [hclauses]
  rw [if_pos (by rfl)]
  refine congrArg Except.ok (List.filter_congr fun root _ => ?_)
  rw [List.all_cons, List.all_nil, Bool.and_true]
  refine List.any_congr rfl fun row => congrArg _ ?_
  simp only [joinsOf, List.map_nil, environments, List.any_cons, List.any_nil, Bool.or_false,
    clausesHold, List.all_cons, List.all_nil, Bool.and_true]
  have howner : single rel.target row
      ((relatedClause model rel field v).owner (filter model [(key, v)]).model) = some row :=
    single_self rel.target row
  simp only [howner]
  rfl

end Related

/-! ## Tables -/

structure Table (α : Type) where
  model : Model
  record : α → Record
  rows : Tables.Db → List α
  id : α → Nat
  records_eq : ∀ db, records db model = (rows db).map record
  record_inj : Function.Injective record
  read_id : ∀ now db x, readRecord now db "id" (record x) = some (.int (id x))

def users : Table Tables.User where
  model := .user
  record := .user
  rows := Tables.Db.users
  id := Tables.User.id
  records_eq _ := rfl
  record_inj _ _ h := Record.user.inj h
  read_id _ _ _ := rfl

def eventCategories : Table Tables.EventCategory where
  model := .eventCategory
  record := .eventCategory
  rows := Tables.Db.eventCategories
  id := Tables.EventCategory.id
  records_eq _ := rfl
  record_inj _ _ h := Record.eventCategory.inj h
  read_id _ _ _ := rfl

def events : Table Tables.Event where
  model := .event
  record := .event
  rows := Tables.Db.events
  id := Tables.Event.id
  records_eq _ := rfl
  record_inj _ _ h := Record.event.inj h
  read_id _ _ _ := rfl

def ticketCategories : Table Tables.TicketCategory where
  model := .ticketCategory
  record := .ticketCategory
  rows := Tables.Db.ticketCategories
  id := Tables.TicketCategory.id
  records_eq _ := rfl
  record_inj _ _ h := Record.ticketCategory.inj h
  read_id _ _ _ := rfl

def orders : Table Tables.Order where
  model := .order
  record := .order
  rows := Tables.Db.orders
  id := Tables.Order.id
  records_eq _ := rfl
  record_inj _ _ h := Record.order.inj h
  read_id _ _ _ := rfl

def orderItems : Table Tables.OrderItem where
  model := .orderItem
  record := .orderItem
  rows := Tables.Db.orderItems
  id := Tables.OrderItem.id
  records_eq _ := rfl
  record_inj _ _ h := Record.orderItem.inj h
  read_id _ _ _ := rfl

def tickets : Table Tables.Ticket where
  model := .ticket
  record := .ticket
  rows := Tables.Db.tickets
  id := Tables.Ticket.id
  records_eq _ := rfl
  record_inj _ _ h := Record.ticket.inj h
  read_id _ _ _ := rfl

section OneTable

variable {α : Type} {T : Table α} {now : Int} {db : Tables.Db}
  {filters : List (OwnFilter Argument)} {p : α → Bool}

theorem ownRows_table (h : ∀ x, filters.all (fun f =>
      f.holds now (mapping now).comparison (records db) (T.record x)) = p x) :
    ownRows now (mapping now).comparison (records db) T.model filters =
      ((T.rows db).filter p).map T.record := by
  unfold ownRows
  rw [T.records_eq, List.filter_map]
  exact congrArg _ (List.filter_congr fun x _ => h x)

theorem updatedRows_table (hvalid : Valid (mapping now).comparison T.model filters)
    (h : ∀ x, filters.all (fun f =>
      f.holds now (mapping now).comparison (records db) (T.record x)) = p x) :
    updatedRows now db T.model filters = .ok (((T.rows db).filter p).map T.record) := by
  rw [← ownRows_table h]
  exact congrArg (Except.mapError raised) (update_own hvalid)

theorem deletedRows_table (hvalid : Valid (mapping now).comparison T.model filters)
    (h : ∀ x, filters.all (fun f =>
      f.holds now (mapping now).comparison (records db) (T.record x)) = p x) :
    deletedRows now db (ownQuery T.model filters) = .ok (((T.rows db).filter p).map T.record) := by
  rw [← ownRows_table h]
  exact congrArg (Except.mapError raised) (delete_own hvalid)

theorem allRows_table (hvalid : Valid (mapping now).comparison T.model filters)
    (h : ∀ x, filters.all (fun f =>
      f.holds now (mapping now).comparison (records db) (T.record x)) = p x)
    (hnodup : (T.rows db).Nodup) :
    allRows now db T.model filters = .ok (((T.rows db).filter p).map T.record) := by
  have hrows : (((T.rows db).filter p).map T.record).Nodup :=
    (hnodup.filter p).map T.record_inj
  have hall : ReadQueryExecutor.all (mapping now) (ownQuery T.model filters) (records db) =
      .ok (((T.rows db).filter p).map T.record) := by
    rw [← unique_of_nodup hrows, ← ownRows_table h]
    exact congrArg (Except.map unique) (fetch_own hvalid)
  exact congrArg (Except.mapError raised) hall

theorem existsRow_table (hvalid : Valid (mapping now).comparison T.model filters)
    (h : ∀ x, filters.all (fun f =>
      f.holds now (mapping now).comparison (records db) (T.record x)) = p x) :
    existsRow now db T.model filters = .ok ((T.rows db).any p) := by
  have hany : decide (((T.rows db).filter p).map T.record ≠ []) = (T.rows db).any p := by
    rw [Bool.eq_iff_iff, decide_eq_true_iff, List.any_eq_true]
    simp
  have hexists : ReadQueryExecutor.exists (mapping now) (ownQuery T.model filters) (records db) =
      .ok ((T.rows db).any p) := by
    rw [← hany, ← ownRows_table h]
    exact congrArg (Except.map fun rows : List Record => decide (rows ≠ []))
      (fetch_eq_ok.mp (fetch_own hvalid)).1
  exact congrArg (Except.mapError raised) hexists

theorem repositoryGet_table {kwargs : List (String × Value)}
    (hnames : ∀ kwarg ∈ kwargs, NamesColumn T.model kwarg.1)
    (h : ∀ x, kwargs.all (fun kwarg =>
      readRecord now (records db) kwarg.1 (T.record x) = some kwarg.2) = p x)
    (honly : ∀ x ∈ T.rows db, ∀ y ∈ T.rows db, p x → p y → x = y) :
    repositoryGet now db T.model kwargs = .ok (((T.rows db).find? p).map T.record) := by
  have hrows : rowsWith now db T.model kwargs = ((T.rows db).filter p).map T.record := by
    unfold rowsWith
    rw [T.records_eq, List.filter_map]
    exact congrArg _ (List.filter_congr fun x _ => h x)
  cases hfind : (T.rows db).find? p with
  | none =>
      have hnone : rowsWith now db T.model kwargs = [] := by
        rw [hrows, List.map_eq_nil_iff, List.filter_eq_nil_iff]
        exact List.find?_eq_none.mp hfind
      unfold repositoryGet
      rw [queryGet_of_none hnames hnone]
      rfl
  | some x =>
      have hx := List.mem_of_find?_eq_some hfind
      have hp : p x = true := List.find?_some hfind
      have hget : queryGet now db T.model kwargs = .ok (T.record x) := by
        refine queryGet_of_only hnames ?_ fun other hother => ?_
        · rw [hrows]
          exact List.mem_map_of_mem (List.mem_filter.mpr ⟨hx, hp⟩)
        · rw [hrows] at hother
          obtain ⟨y, hy, rfl⟩ := List.mem_map.mp hother
          obtain ⟨hy, hpy⟩ := List.mem_filter.mp hy
          rw [honly y hy x hx hpy hp]
      unfold repositoryGet
      rw [hget]
      rfl

def hasId (T : Table α) (id : Nat) (x : α) : Bool := T.id x = id

theorem equals_id (id : Nat) (x : α) :
    decide (readRecord now (records db) "id" (T.record x) = some (.int id)) = hasId T id x := by
  rw [T.read_id, hasId]
  simp only [Option.some.injEq, Value.int.injEq, Int.ofNat_inj]

theorem valid_id (id : Nat) :
    Valid (mapping now).comparison T.model [equals "id" (.int id)] :=
  valid_equals_all [("id", .int id)] fun kwarg hkwarg => by
    rw [List.mem_singleton.mp hkwarg]
    exact namesColumn_id T.model

theorem holds_id (id : Nat) (x : α) :
    [equals "id" (.int id)].all (fun f =>
      f.holds now (mapping now).comparison (records db) (T.record x)) = hasId T id x := by
  rw [List.all_cons, List.all_nil, Bool.and_true, holds_equals, equals_id]

theorem repositoryGet_id (hkeys : ((T.rows db).map T.id).Nodup) (id : Nat) :
    repositoryGet now db T.model [("id", .int id)] =
      .ok (((T.rows db).find? (hasId T id)).map T.record) := by
  refine repositoryGet_table (fun kwarg hkwarg => ?_) (fun x => ?_) fun x hx y hy hid hid' => ?_
  · rw [List.mem_singleton.mp hkwarg]
    exact namesColumn_id T.model
  · rw [List.all_cons, List.all_nil, Bool.and_true, equals_id]
  · refine List.inj_on_of_nodup_map hkeys hx hy ?_
    exact (of_decide_eq_true hid).trans (of_decide_eq_true hid').symm

end OneTable

/-! ## Primary keys -/

structure PrimaryKeys (db : Tables.Db) : Prop where
  users : (db.users.map fun user => user.id).Nodup
  eventCategories : (db.eventCategories.map fun category => category.id).Nodup
  events : (db.events.map fun event => event.id).Nodup
  ticketCategories : (db.ticketCategories.map fun category => category.id).Nodup
  orders : (db.orders.map fun order => order.id).Nodup
  orderItems : (db.orderItems.map fun item => item.id).Nodup
  tickets : (db.tickets.map fun ticket => ticket.id).Nodup

end TicketBooking.Database.Statements
