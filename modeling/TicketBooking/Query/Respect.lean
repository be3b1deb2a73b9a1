import TicketBooking.Database.Models
import TicketBooking.Library.Outcomes
import TicketBooking.Query.Matching
/-!
# Filters that are applied as written

What a filter dictionary denotes, and when every row an operation returns,
counts or modifies satisfies it.
-/

namespace TicketBooking.Query.Respect

open TicketBooking.Library TicketBooking.Library.Joins TicketBooking.Library.Outcomes
open TicketBooking.Query.Builder TicketBooking.Query.Filters TicketBooking.Query.Matching
open TicketBooking.Query.Operators

variable {M Row Val Arg : Type}

/-! ## What a filter denotes -/

/-- The relations of a path, when every name is one. -/
def denotedPath (schema : Schema M Row Val) : M → List String → Option (List (Step M) × M)
  | model, [] => some ([], model)
  | model, name :: names =>
      match schema.attr model name with
      | some (.relation rel) =>
          (denotedPath schema rel.target names).map fun rest => (⟨model, rel⟩ :: rest.1, rest.2)
      | _ => none

/-- The constraint a filter denotes: on an annotation, or on a field at the end
of a path of relations; `none` when it names nothing. -/
def denotedClause (schema : Schema M Row Val) (model : M) (annotations : Annotations M Row Val Arg)
    (filter : String × Arg) : Option (Clause M Row Val Arg) :=
  let reading := denotedReading filter.1
  match Dict.get (joined reading.1) annotations with
  | some expr => some ⟨[], .annotated expr, reading.2, filter.2⟩
  | none =>
      let field := reading.1.getLastD ""
      (denotedPath schema model reading.1.dropLast).bind fun path =>
        (schema.attr path.2 field).map fun column =>
          ⟨path.1, .field path.2 field column, reading.2, filter.2⟩

section Denotation

variable [DecidableEq Val] (mapping : Mapping M Row Val Arg) (db : Db M Row)

/-- The row satisfies the constraint; over a to-many relation, some related row does. -/
def Denotes (model : M) (annotations : Annotations M Row Val Arg) (filter : String × Arg)
    (row : Row) : Prop :=
  ∃ c, denotedClause mapping.schema model annotations filter = some c ∧ Met mapping db [] c row

/-- The row belongs to a row the continued query was filtered to. -/
def ContextMet : List (Continuation M Arg) → Row → Prop
  | [], _ => True
  | c :: history, row => ∃ parent ∈ db c.model,
      sameColumns mapping.schema db c.model c.relation.target c.relation.columns parent row ∧
        (∀ filter ∈ given c.filters, Denotes mapping db c.model [] filter parent) ∧
          ContextMet history parent

end Denotation

section Operations

variable [DecidableEq M] [DecidableEq Val] [DecidableEq Row] (mapping : Mapping M Row Val Arg)
  (b : QueryBuilder M Row Val Arg)

/-- No filter is ignored: the two places that parse keys agree, and the
operation raises or all rows it touches satisfy every filter. -/
def Respected (op : Operation) : Prop :=
  (∀ filter ∈ given b.filters, preparedReading filter.1 = resolvedReading filter.1) ∧
    ∀ db rows, touched mapping b db op = .ok rows → ∀ row ∈ rows,
      (∀ filter ∈ given b.filters, Denotes mapping db b.model b.annotations filter row) ∧
        ContextMet mapping db b.contextHistory row

/-! ## When filters are applied -/

/-- The statement cannot be built, or names a table twice. -/
def Refuses : Operation → Prop
  | .update => ∃ e, prepareQuery mapping b = .error e
  | .delete => ∃ c ∈ deleteClauses mapping b, ¬ (c.builds mapping.comparison && namesOnce c)
  | _ => (∃ e, prepareQuery mapping b = .error e) ∨
      ∃ c ∈ selectClauses mapping b, ∃ step ∈ c.relations, step.relation.target = b.model

/-- What an operation needs to apply the clauses it is given: a SELECT joins
each class once; an UPDATE has no joins; a DELETE has no annotations and no
context, and compares the columns of a relationship in the order it lists them. -/
def Applies : Operation → Prop
  | .update => (∀ c ∈ selectClauses mapping b, c.relations = []) ∧
      BindsAgree ((selectClauses mapping b).flatMap Clause.binds)
  | .delete => b.contextHistory = [] ∧
      (∀ filter ∈ given b.filters,
        Dict.get (joined (denotedReading filter.1).1) b.annotations = none) ∧
      (∀ c ∈ deleteClauses mapping b, LinedUp c) ∧
      BindsAgree ((deleteClauses mapping b).flatMap Clause.binds)
  | _ => OneJoin (selectClauses mapping b) ∧
      BindsAgree ((selectClauses mapping b).flatMap Clause.binds)

end Operations

/-! ## Keys that are read as written -/

theorem followRelations_of_denotedPath {schema : Schema M Row Val} {model : M}
    {names : List String} {path : List (Step M) × M}
    (h : denotedPath schema model names = some path) :
    followRelations schema model names = path := by
  induction names generalizing model path with
  | nil =>
      cases h
      rfl
  | cons name names ih =>
      unfold denotedPath at h
      unfold followRelations
      cases hattr : schema.attr model name with
      | none => simp [hattr] at h
      | some column =>
          cases column with
          | column name => simp [hattr] at h
          | relation rel =>
              simp only [hattr] at h
              obtain ⟨rest, hrest, rfl⟩ := Option.map_eq_some_iff.mp h
              simp only [ih hrest]

/-- A filter that denotes a constraint, with at most a path or a field before
its operator, is prepared as that constraint. -/
theorem prepare_eq {schema : Schema M Row Val} {model : M} {annotations : Annotations M Row Val Arg}
    {filter : String × Arg} {c : Clause M Row Val Arg} (hkey : SimpleOperator filter.1)
    (h : denotedClause schema model annotations filter = some c) :
    prepare schema model annotations filter = some c := by
  obtain ⟨hprepared, hpath, hop⟩ := readings_of_simpleOperator hkey
  unfold denotedClause at h
  unfold prepare
  rw [hprepared]
  cases hget : Dict.get (joined (denotedReading filter.1).1) annotations with
  | some expr =>
      simp only [hget] at h ⊢
      exact h
  | none =>
      simp only [hget] at h ⊢
      obtain ⟨path, hresolve, h⟩ := Option.bind_eq_some_iff.mp h
      obtain ⟨column, hcolumn, rfl⟩ := Option.map_eq_some_iff.mp h
      have hfield : (components (resolvedReading filter.1).1).getLast
          (components_ne_nil _) = (denotedReading filter.1).1.getLastD "" := by
        rw [List.getLastD_eq_getLast?, ← hpath, List.getLast?_eq_some_getLast (components_ne_nil _)]
        rfl
      simp only [FilterResolver.resolve, hfield]
      rw [hpath, hop, followRelations_of_denotedPath hresolve, hcolumn]
      rfl

/-- Only an annotated name is read differently without the annotations. -/
theorem denotedClause_of_not_annotated {schema : Schema M Row Val} {model : M}
    {annotations : Annotations M Row Val Arg} {filter : String × Arg}
    (h : Dict.get (joined (denotedReading filter.1).1) annotations = none) :
    denotedClause schema model annotations filter = denotedClause schema model [] filter := by
  simp only [denotedClause, h, Dict.get]

section Statements

variable {mapping : Mapping M Row Val Arg} {b : QueryBuilder M Row Val Arg} {db : Db M Row}

theorem contextHistory_of_prepareQuery {clauses : List (Clause M Row Val Arg)}
    (h : prepareQuery mapping b = .ok clauses) : b.contextHistory = [] := by
  unfold prepareQuery at h
  split_ifs at h with hhistory
  exact not_not.mp hhistory

theorem refuses_read [DecidableEq M] {op : Operation} (hupdate : op ≠ .update)
    (hdelete : op ≠ .delete) :
    Refuses mapping b op ↔ (∃ e, prepareQuery mapping b = .error e) ∨
      ∃ c ∈ selectClauses mapping b, ∃ step ∈ c.relations, step.relation.target = b.model := by
  cases op <;> first | rfl | contradiction

theorem applies_read {op : Operation} (hupdate : op ≠ .update) (hdelete : op ≠ .delete) :
    Applies mapping b op ↔ OneJoin (selectClauses mapping b) ∧
      BindsAgree ((selectClauses mapping b).flatMap Clause.binds) := by
  cases op <;> first | rfl | contradiction

section Main

variable [DecidableEq Val]

/-- Filters read as written give the statement the clauses they denote. -/
theorem denotes_of_met {annotations : Annotations M Row Val Arg} {binds : List (String × Arg)}
    {clauses : List (Clause M Row Val Arg)} {row : Row} {filter : String × Arg}
    (hkey : SimpleOperator filter.1)
    (hdenoted : (denotedClause mapping.schema b.model annotations filter).isSome)
    (hfilter : filter ∈ given b.filters)
    (hclauses : clauses = prepareFilters mapping.schema b.model b.filters annotations)
    (hbinds : BindsAgree binds) (hmem : ∀ c ∈ clauses, ∀ bind ∈ c.binds, bind ∈ binds)
    (hmet : ∀ c ∈ clauses, Met mapping db binds c row) :
    Denotes mapping db b.model annotations filter row := by
  obtain ⟨c, hc⟩ := Option.isSome_iff_exists.mp hdenoted
  have hprepared : c ∈ clauses := by
    rw [hclauses]
    exact mem_prepareFilters.mpr ⟨filter, hfilter, prepare_eq hkey hc⟩
  refine ⟨c, hc, (met_congr (fun bind hbind => ?_) row).mp (hmet c hprepared)⟩
  exact boundValue_eq hbinds (hmem c hprepared bind hbind)

variable [DecidableEq M]

/-- What a read finds, it finds with every clause applied. -/
theorem read_respected
    (hkeys : ∀ filter ∈ given b.filters, SimpleOperator filter.1)
    (hdenoted : ∀ filter ∈ given b.filters,
      (denotedClause mapping.schema b.model b.annotations filter).isSome)
    (hone : OneJoin (selectClauses mapping b))
    (hbinds : BindsAgree ((selectClauses mapping b).flatMap Clause.binds)) {found : List Row}
    (hfound : execute mapping b db = .ok found) {row : Row} (hrow : row ∈ found) :
    ∀ filter ∈ given b.filters, Denotes mapping db b.model b.annotations filter row :=
  fun filter hfilter => denotes_of_met (hkeys filter hfilter) (hdenoted filter hfilter) hfilter rfl
    hbinds (fun c hc _ hbind => List.mem_flatMap.mpr ⟨c, hc, hbind⟩)
    fun _ hc => (met_selectBinds hc row).mp (met_of_mem_execute hone hfound hrow hc)

theorem update_respected
    (hkeys : ∀ filter ∈ given b.filters, SimpleOperator filter.1)
    (hdenoted : ∀ filter ∈ given b.filters,
      (denotedClause mapping.schema b.model b.annotations filter).isSome)
    (happlies : Applies mapping b .update) {rows : List Row}
    (h : MutationQueryExecutor.update mapping b db = .ok rows) {row : Row} (hrow : row ∈ rows) :
    ∀ filter ∈ given b.filters, Denotes mapping db b.model b.annotations filter row :=
  fun filter hfilter => denotes_of_met (hkeys filter hfilter) (hdenoted filter hfilter) hfilter rfl
    happlies.2 (fun c hc _ hbind => List.mem_flatMap.mpr ⟨c, hc, hbind⟩)
    ((mem_update h happlies.1).mp hrow).2

theorem delete_respected
    (hkeys : ∀ filter ∈ given b.filters, SimpleOperator filter.1)
    (hdenoted : ∀ filter ∈ given b.filters,
      (denotedClause mapping.schema b.model b.annotations filter).isSome)
    (happlies : Applies mapping b .delete) {rows : List Row}
    (h : MutationQueryExecutor.delete mapping b db = .ok rows) {row : Row} (hrow : row ∈ rows) :
    ∀ filter ∈ given b.filters, Denotes mapping db b.model b.annotations filter row := by
  obtain ⟨-, hplain, hlined, hbinds⟩ := happlies
  simp only [MutationQueryExecutor.delete] at h
  split_ifs at h with hbuilds
  cases h
  obtain ⟨-, hall⟩ := List.mem_filter.mp hrow
  have hmet : ∀ c ∈ deleteClauses mapping b,
      Met mapping db ((deleteClauses mapping b).flatMap Clause.binds) c row := by
    intro c hc
    have hnames := (Bool.and_eq_true_iff.mp (List.all_eq_true.mp hbuilds c hc)).2
    exact (deleteClause_iff (leads_of_mem db hc) hnames (hlined c hc) _ row).mp
      (List.all_eq_true.mp hall c hc)
  intro filter hfilter
  have hclause : denotedClause mapping.schema b.model b.annotations filter =
      denotedClause mapping.schema b.model [] filter :=
    denotedClause_of_not_annotated (hplain filter hfilter)
  have hsome := hdenoted filter hfilter
  rw [hclause] at hsome
  obtain ⟨c, hc, hholds⟩ : Denotes mapping db b.model [] filter row :=
    denotes_of_met (hkeys filter hfilter) hsome hfilter rfl hbinds
      (fun c hc _ hbind => List.mem_flatMap.mpr ⟨c, hc, hbind⟩) hmet
  exact ⟨c, hclause.trans hc, hholds⟩

variable [DecidableEq Row]

theorem mem_unique {rows : List Row} {row : Row} : row ∈ unique rows ↔ row ∈ rows := by
  simp [unique]

theorem get_ok {row : Row} (h : ReadQueryExecutor.get mapping b db = .ok row) :
    ∃ found, fetch mapping b db = .ok found ∧ unique found = [row] := by
  unfold ReadQueryExecutor.get at h
  split at h
  · cases h
  · rename_i found hfetch
    dsimp only at h
    split at h
    · cases h
    · rename_i hunique
      cases h
      exact ⟨found, hfetch, hunique⟩
    · cases h

theorem mem_execute_of_touched {op : Operation} (hupdate : op ≠ .update) (hdelete : op ≠ .delete)
    {rows : List Row} (h : touched mapping b db op = .ok rows) {row : Row} (hrow : row ∈ rows) :
    ∃ found, execute mapping b db = .ok found ∧ row ∈ found := by
  cases op with
  | update => exact absurd rfl hupdate
  | delete => exact absurd rfl hdelete
  | all =>
      obtain ⟨found, hfetch, rfl⟩ := map_eq_ok h
      exact ⟨found, (fetch_eq_ok.mp hfetch).1, mem_unique.mp hrow⟩
  | first =>
      obtain ⟨first, hfirst, rfl⟩ := map_eq_ok h
      obtain ⟨found, hfetch, rfl⟩ := map_eq_ok hfirst
      have hhead := Option.mem_toList.mp hrow
      exact ⟨found, (fetch_eq_ok.mp hfetch).1, mem_unique.mp (List.mem_of_mem_head? hhead)⟩
  | get =>
      obtain ⟨only, hget, rfl⟩ := map_eq_ok h
      obtain ⟨found, hfetch, hunique⟩ := get_ok hget
      exact ⟨found, (fetch_eq_ok.mp hfetch).1, mem_unique.mp (hunique ▸ hrow)⟩
  | count => exact ⟨rows, h, hrow⟩
  | exists' => exact ⟨rows, h, hrow⟩
  | paginate offset limit => exact ⟨rows, (fetch_eq_ok.mp h).1, hrow⟩

theorem not_refuses_of_touched {op : Operation} {rows : List Row}
    (h : touched mapping b db op = .ok rows) {row : Row} (hrow : row ∈ rows) :
    ¬ Refuses mapping b op := by
  by_cases hupdate : op = .update
  · subst hupdate
    rintro ⟨e, he⟩
    simp [touched, MutationQueryExecutor.update, he] at h
  by_cases hdelete : op = .delete
  · subst hdelete
    rintro ⟨c, hc, hbuilds⟩
    simp only [touched, MutationQueryExecutor.delete] at h
    split_ifs at h with hall
    exact hbuilds (List.all_eq_true.mp hall c hc)
  obtain ⟨found, hfound, -⟩ := mem_execute_of_touched hupdate hdelete h hrow
  rw [refuses_read hupdate hdelete]
  rintro (⟨e, he⟩ | ⟨c, hc, step, hstep, htarget⟩)
  · simp [execute, he] at hfound
  · refine selectJoins_root hfound c hc ?_
    exact List.mem_map.mpr ⟨step.join mapping.schema db, List.mem_map_of_mem hstep, htarget⟩

/-- When the names of the keys resolve and the operation can apply its clauses,
filters are applied as written exactly if operators follow single components. -/
theorem respected_iff_simpleOperator {op : Operation}
    (h : Refuses mapping b op ∨ Applies mapping b op ∧ ∀ filter ∈ given b.filters,
      (denotedClause mapping.schema b.model b.annotations filter).isSome) :
    Respected mapping b op ↔ ∀ filter ∈ given b.filters, SimpleOperator filter.1 := by
  constructor
  · exact fun hrespected filter hfilter => readings_agree_iff.mp (hrespected.1 filter hfilter)
  intro hkeys
  refine ⟨fun filter hfilter => readings_agree_iff.mpr (hkeys filter hfilter), ?_⟩
  intro db rows htouched row hrow
  obtain ⟨happlies, hdenoted⟩ := h.resolve_left (not_refuses_of_touched htouched hrow)
  by_cases hupdate : op = .update
  · subst hupdate
    refine ⟨update_respected hkeys hdenoted happlies htouched hrow, ?_⟩
    rw [contextHistory_of_prepareQuery (update_prepared htouched)]
    trivial
  by_cases hdelete : op = .delete
  · subst hdelete
    refine ⟨delete_respected hkeys hdenoted happlies htouched hrow, ?_⟩
    rw [happlies.1]
    trivial
  obtain ⟨found, hfound, hmem⟩ := mem_execute_of_touched hupdate hdelete htouched hrow
  obtain ⟨hone, hbinds⟩ := (applies_read hupdate hdelete).mp happlies
  refine ⟨read_respected hkeys hdenoted hone hbinds hfound hmem, ?_⟩
  rw [contextHistory_of_prepareQuery (execute_prepared hfound)]
  trivial

end Main

end Statements

/-! ## The booking system's queries -/

section Examples

open TicketBooking.Database.Models TicketBooking.Database.Tables

def userTickets : ModelQuery := filter .ticket [("order_item__order__user_id", .int 7)]

theorem respected_userTickets : Respected (mapping 0) userTickets .all := by
  have hgiven : given userTickets.filters = [("order_item__order__user_id", .one (.int 7))] := rfl
  have hone : OneJoin (selectClauses (mapping 0) userTickets) := by
    unfold OneJoin
    decide +kernel
  have hbinds : BindsAgree ((selectClauses (mapping 0) userTickets).flatMap Clause.binds) := by
    unfold BindsAgree
    decide +kernel
  have hdenoted : ∀ filter ∈ given userTickets.filters,
      (denotedClause (mapping 0).schema userTickets.model userTickets.annotations
        filter).isSome := by
    rw [hgiven, List.forall_mem_singleton]
    decide +kernel
  have happlies : Applies (mapping 0) userTickets .all := ⟨hone, hbinds⟩
  refine (respected_iff_simpleOperator (.inr ⟨happlies, hdenoted⟩)).mpr ?_
  rw [hgiven, List.forall_mem_singleton]
  decide +kernel

def leafCheck : ModelQuery :=
  filter .eventCategory [("id", .int 1), ("children__has_no", .bool true)]

/-- `has_no` names no operator: a category with a child passes the check. -/
theorem children_has_no_ignored : ¬ Respected (mapping 0) leafCheck .exists' := by
  rintro ⟨-, h⟩
  let music : EventCategory := ⟨1, "music", none⟩
  let jazz : EventCategory := ⟨2, "jazz", some 1⟩
  have htouched : touched (mapping 0) leafCheck (records { eventCategories := [music, jazz] })
      .exists' = .ok [.eventCategory music] := by
    rfl
  have hdenotes := (h _ _ htouched _ (List.mem_singleton_self _)).1
    ("children__has_no", .one (.bool true)) (by decide)
  obtain ⟨c, hc, -⟩ := hdenotes
  cases hc

end Examples

end TicketBooking.Query.Respect
