import Mathlib.Data.List.TakeWhile
import TicketBooking.Query.Builder
/-!
# Which rows the statements find

The SELECT finds a row when one environment of its joins meets every clause;
the DELETE finds it when each clause has a walk of its own.
-/

namespace TicketBooking.Query.Matching

open TicketBooking.Library TicketBooking.Library.Joins
open TicketBooking.Query.Builder TicketBooking.Query.Filters TicketBooking.Query.Operators

variable {M Row Val Arg : Type} {mapping : Mapping M Row Val Arg} {b : QueryBuilder M Row Val Arg}
  {db : Db M Row}

/-! ## Clauses and their parameters -/

theorem mem_prepareFilters {schema : Schema M Row Val} {model : M} {filters : FilterDict Arg}
    {annotations : Annotations M Row Val Arg} {c : Clause M Row Val Arg} :
    c ∈ prepareFilters schema model filters annotations ↔
      ∃ filter ∈ given filters, prepare schema model annotations filter = some c := by
  unfold prepareFilters
  rw [← List.mem_filterMap, List.mem_append, List.mem_filter, List.mem_filter, ← and_or_left]
  cases c.subject <;> simp

theorem prepareQuery_ok {clauses : List (Clause M Row Val Arg)}
    (h : prepareQuery mapping b = .ok clauses) : clauses = selectClauses mapping b := by
  unfold prepareQuery at h
  split_ifs at h
  cases h
  rfl

theorem builds_of_prepareQuery {clauses : List (Clause M Row Val Arg)}
    (h : prepareQuery mapping b = .ok clauses) :
    ∀ c ∈ selectClauses mapping b, c.builds mapping.comparison := by
  unfold prepareQuery at h
  split_ifs at h with _ _ hbuilds
  exact List.all_eq_true.mp hbuilds

def BindsAgree (binds : List (String × Arg)) : Prop :=
  ∀ bind ∈ binds, ∀ bind' ∈ binds, bind.1 = bind'.1 → bind.2 = bind'.2

theorem boundValue_eq {binds : List (String × Arg)} (h : BindsAgree binds)
    {bind : String × Arg} (hbind : bind ∈ binds) : boundValue binds bind.1 bind.2 = bind.2 := by
  unfold boundValue
  have hget : ∃ v, Dict.get bind.1 (Dict.ofList Prod.fst Prod.snd binds) = some v :=
    Dict.get_ofList_of_mem hbind
  obtain ⟨v, hvalue⟩ := hget
  obtain ⟨bind', hmem, hname, rfl⟩ := Dict.get_ofList_eq_some hvalue
  rw [hvalue]
  exact h bind' hmem bind hbind hname

/-- Parameters rendered later hide those rendered before. -/
theorem boundValue_append {xs ys : List (String × Arg)} {bind : String × Arg} (h : bind ∈ ys) :
    boundValue (xs ++ ys) bind.1 bind.2 = boundValue ys bind.1 bind.2 := by
  have hget : Dict.get bind.1 (Dict.ofList Prod.fst Prod.snd (xs ++ ys)) =
      Dict.get bind.1 (Dict.ofList Prod.fst Prod.snd ys) :=
    Dict.get_ofList_append h
  unfold boundValue
  rw [hget]

/-- Steps that reach one class are one step. -/
def OneJoin (clauses : List (Clause M Row Val Arg)) : Prop :=
  ∀ c ∈ clauses, ∀ c' ∈ clauses, ∀ step ∈ c.relations, ∀ step' ∈ c'.relations,
    step.relation.target = step'.relation.target → step = step'

section Paths

variable [DecidableEq Val]

/-! ## Clauses and their paths -/

theorem linked_followRelations (schema : Schema M Row Val) (db : Db M Row) (model : M)
    (names : List String) :
    Linked model (joinsOf schema db (followRelations schema model names).1) ∧
      endOf model (joinsOf schema db (followRelations schema model names).1) =
        (followRelations schema model names).2 := by
  fun_induction followRelations schema model names with
  | case1 => exact ⟨trivial, rfl⟩
  | case2 model name names rel h rest ih => exact ⟨⟨rfl, ih.1⟩, ih.2⟩
  | case3 model name names h ih => exact ih

/-- The relations lead from the queried class to the class the clause reads. -/
def Leads (schema : Schema M Row Val) (db : Db M Row) (model : M) (c : Clause M Row Val Arg) :
    Prop :=
  Linked model (joinsOf schema db c.relations) ∧
    endOf model (joinsOf schema db c.relations) = c.owner model

theorem prepare_leads {schema : Schema M Row Val} (db : Db M Row) {model : M}
    {annotations : Annotations M Row Val Arg} {filter : String × Arg} {c : Clause M Row Val Arg}
    (h : prepare schema model annotations filter = some c) : Leads schema db model c := by
  unfold prepare at h
  cases hget : Dict.get (preparedReading filter.1).1 annotations with
  | some expr =>
      simp only [hget, Option.some.injEq] at h
      subst h
      exact ⟨trivial, rfl⟩
  | none =>
      simp only [hget] at h
      obtain ⟨column, -, rfl⟩ := Option.map_eq_some_iff.mp h
      exact linked_followRelations schema db model _

theorem leads_of_mem {schema : Schema M Row Val} (db : Db M Row) {model : M}
    {filters : FilterDict Arg} {annotations : Annotations M Row Val Arg} {c : Clause M Row Val Arg}
    (h : c ∈ prepareFilters schema model filters annotations) : Leads schema db model c := by
  obtain ⟨filter, -, hprepare⟩ := mem_prepareFilters.mp h
  exact prepare_leads db hprepare

theorem holds_congr {binds binds' : List (String × Arg)} {c : Clause M Row Val Arg}
    (h : ∀ bind ∈ c.binds, boundValue binds bind.1 bind.2 = boundValue binds' bind.1 bind.2)
    (root row : Row) :
    c.holds mapping.schema mapping.comparison db binds root row =
      c.holds mapping.schema mapping.comparison db binds' root row := by
  have hown : c.bound binds = c.bound binds' := by
    unfold Clause.bound
    cases hname : c.bindName with
    | none => rfl
    | some name =>
        have hmem : (name, c.val) ∈ c.binds := by
          unfold Clause.binds
          rw [hname]
          cases c.subject <;> simp
        exact h _ hmem
  unfold Clause.holds
  cases hsubject : c.subject with
  | field owner field column =>
      cases column with
      | column name => simp only [hown]
      | relation rel => rfl
  | annotated expr =>
      have hexpr : expr.binds.map (fun bind => boundValue binds bind.1 bind.2) =
          expr.binds.map fun bind => boundValue binds' bind.1 bind.2 := by
        refine List.map_congr_left fun bind hbind => h bind ?_
        unfold Clause.binds
        rw [hsubject]
        exact List.mem_append_left _ hbind
      simp only [hown, hexpr]

def Met (mapping : Mapping M Row Val Arg) (db : Db M Row) (binds : List (String × Arg))
    (c : Clause M Row Val Arg) (root : Row) : Prop :=
  ∃ row ∈ reached db (joinsOf mapping.schema db c.relations) root,
    c.holds mapping.schema mapping.comparison db binds root row

theorem met_congr {binds binds' : List (String × Arg)} {c : Clause M Row Val Arg}
    (h : ∀ bind ∈ c.binds, boundValue binds bind.1 bind.2 = boundValue binds' bind.1 bind.2)
    (root : Row) : Met mapping db binds c root ↔ Met mapping db binds' c root := by
  unfold Met
  simp only [holds_congr h]

/-- The WHERE clauses of the SELECT are rendered last, so they alone decide
their parameters. -/
theorem met_selectBinds {c : Clause M Row Val Arg} (hc : c ∈ selectClauses mapping b) (root : Row) :
    Met mapping db (selectBinds mapping b) c root ↔
      Met mapping db ((selectClauses mapping b).flatMap Clause.binds) c root :=
  met_congr (fun _ hbind => boundValue_append (List.mem_flatMap.mpr ⟨c, hc, hbind⟩)) root

theorem clausesHold_iff {clauses : List (Clause M Row Val Arg)} {binds : List (String × Arg)}
    {root : Row} {env : Env M Row} :
    clausesHold mapping b db clauses binds root env ↔ ∀ c ∈ clauses,
      ∃ row, env (c.owner b.model) = some row ∧
        c.holds mapping.schema mapping.comparison db binds root row := by
  unfold clausesHold
  rw [List.all_eq_true]
  refine forall₂_congr fun c _ => ?_
  cases env (c.owner b.model) <;> simp

theorem OneJoin.join_eq {clauses : List (Clause M Row Val Arg)} (h : OneJoin clauses)
    {c c' : Clause M Row Val Arg} (hc : c ∈ clauses) (hc' : c' ∈ clauses)
    {j j' : Join M Row} (hj : j ∈ joinsOf mapping.schema db c.relations)
    (hj' : j' ∈ joinsOf mapping.schema db c'.relations) (htarget : j.target = j'.target) :
    j = j' := by
  obtain ⟨step, hstep, rfl⟩ := List.mem_map.mp hj
  obtain ⟨step', hstep', rfl⟩ := List.mem_map.mp hj'
  rw [h c hc c' hc' step hstep step' hstep' htarget]

theorem sameColumns_congr {source target : M} {columns columns' : List (String × String)}
    (h : ∀ pair, pair ∈ columns ↔ pair ∈ columns') (x y : Row) :
    sameColumns mapping.schema db source target columns x y =
      sameColumns mapping.schema db source target columns' x y := by
  unfold sameColumns
  rw [Bool.eq_iff_iff, List.all_eq_true, List.all_eq_true]
  simp only [h]

/-! ## The SELECT -/

section Select

variable [DecidableEq M]

theorem execute_prepared {rows : List Row} (h : execute mapping b db = .ok rows) :
    prepareQuery mapping b = .ok (selectClauses mapping b) := by
  unfold execute at h
  cases hprepare : prepareQuery mapping b with
  | error e => simp [hprepare] at h
  | ok clauses => rw [prepareQuery_ok hprepare]

theorem fetch_eq_ok {rows : List Row} :
    fetch mapping b db = .ok rows ↔ execute mapping b db = .ok rows ∧ eagerLoads mapping b := by
  unfold fetch
  cases execute mapping b db with
  | error e => simp [Except.bind]
  | ok found => by_cases heager : eagerLoads mapping b <;> simp [Except.bind, heager]

/-- Paths that are one path make one eager option, the whole of it. -/
theorem eagerOptions_of_onePath {joinedModels : List M} {path : List (Step M)}
    {paths : List (List (Step M))} (hpaths : ∀ other ∈ paths, other = [] ∨ other = path)
    (hjoined : joinedModels = [] ∨ ∀ step ∈ path, step.relation.target ∈ joinedModels) :
    ∀ chain ∈ eagerOptions joinedModels paths, chain = [] ∨ chain ∈ paths := by
  induction paths generalizing joinedModels with
  | nil => exact fun _ hchain => absurd hchain List.not_mem_nil
  | cons other paths ih =>
      obtain ⟨hfirst, hrest⟩ := List.forall_mem_cons.mp hpaths
      have hnext : joinedModels ++ other.map (fun step => step.relation.target) = [] ∨
          ∀ step ∈ path, step.relation.target ∈
            joinedModels ++ other.map fun step => step.relation.target := by
        rcases hfirst with rfl | rfl
        · simpa using hjoined
        · exact .inr fun step hstep => List.mem_append_right _ (List.mem_map_of_mem hstep)
      refine List.forall_mem_cons.mpr ⟨?_, fun chain hchain =>
        (ih hrest hnext chain hchain).imp_right (List.mem_cons_of_mem _)⟩
      rcases hfirst with rfl | rfl
      · exact .inl rfl
      rcases hjoined with rfl | hall
      · right
        have hwhole : other.dropWhile (fun step => step.relation.target ∈ ([] : List M)) = other :=
          List.dropWhile_eq_self_iff.mpr fun _ => by simp
        rw [hwhole]
        exact List.mem_cons_self
      · exact .inl (List.dropWhile_eq_nil_iff.mpr fun step hstep => by simpa using hall step hstep)

/-- Filters on one path load all of it, from the queried class on. -/
theorem eagerLoads_of_onePath (path : List (Step M))
    (h : ∀ c ∈ selectClauses mapping b, c.relations = [] ∨ c.relations = path) :
    eagerLoads mapping b := by
  refine List.all_eq_true.mpr fun chain hchain => ?_
  have hpaths : ∀ other ∈ (selectClauses mapping b).map Clause.relations,
      other = [] ∨ other = path := by
    intro other hother
    obtain ⟨c, hc, rfl⟩ := List.mem_map.mp hother
    exact h c hc
  rcases eagerOptions_of_onePath hpaths (.inl rfl) chain hchain with rfl | hmem
  · rfl
  · obtain ⟨c, hc, rfl⟩ := List.mem_map.mp hmem
    have hlinked := (leads_of_mem (fun _ => []) hc).1
    cases hrelations : c.relations with
    | nil => rfl
    | cons step rest =>
        rw [hrelations] at hlinked
        exact decide_eq_true hlinked.1

theorem selectJoins_root {rows : List Row} (h : execute mapping b db = .ok rows) :
    ∀ c ∈ selectClauses mapping b,
      b.model ∉ (joinsOf mapping.schema db c.relations).map Join.target := by
  intro c hc hmem
  obtain ⟨j, hj, htarget⟩ := List.mem_map.mp hmem
  have hjoined : ∃ j' ∈ selectJoins mapping b db, j'.target = j.target :=
    exists_joinPaths (List.mem_map_of_mem hc) hj
  obtain ⟨j', hj', heq⟩ := hjoined
  have hjoined : b.model ∈ (selectJoins mapping b db).map Join.target :=
    List.mem_map.mpr ⟨j', hj', heq.trans htarget⟩
  simp [execute, execute_prepared h, hjoined] at h

theorem scoped_selectJoins {rows : List Row} (h : execute mapping b db = .ok rows) :
    Scoped [b.model] (selectJoins mapping b db) := by
  refine scoped_joinPaths (fun path hpath => ?_) fun path hpath => ?_
  · obtain ⟨c, hc, rfl⟩ := List.mem_map.mp hpath
    exact (leads_of_mem db hc).1
  · obtain ⟨c, hc, rfl⟩ := List.mem_map.mp hpath
    exact selectJoins_root h c hc

theorem mem_execute {rows : List Row} (h : execute mapping b db = .ok rows) {row : Row} :
    row ∈ rows ↔ row ∈ db b.model ∧ ∃ env : Env M Row,
      (∀ m ∉ (selectJoins mapping b db).map Join.target, env m = single b.model row m) ∧
      (∀ j ∈ selectJoins mapping b db, Satisfies db env j) ∧
      clausesHold mapping b db (selectClauses mapping b) (selectBinds mapping b) row env := by
  have hscoped := scoped_selectJoins h
  simp only [execute, execute_prepared h] at h
  split_ifs at h
  cases h
  rw [List.mem_flatMap]
  constructor
  · rintro ⟨root, hroot, hmem⟩
    obtain ⟨env, hfound, rfl⟩ := List.mem_map.mp hmem
    obtain ⟨henv, hall⟩ := List.mem_filter.mp hfound
    obtain ⟨hkept, hjoins⟩ := (mem_environments hscoped isSome_single).mp henv
    exact ⟨hroot, env, hkept, hjoins, hall⟩
  · rintro ⟨hroot, env, hkept, hjoins, hall⟩
    have henv := (mem_environments hscoped isSome_single).mpr ⟨hkept, hjoins⟩
    exact ⟨row, hroot, List.mem_map.mpr ⟨env, List.mem_filter.mpr ⟨henv, hall⟩, rfl⟩⟩

/-- With one join for each class, a found row meets every clause. -/
theorem met_of_mem_execute (hone : OneJoin (selectClauses mapping b)) {rows : List Row}
    (h : execute mapping b db = .ok rows) {root : Row} (hroot : root ∈ rows)
    {c : Clause M Row Val Arg} (hc : c ∈ selectClauses mapping b) :
    Met mapping db (selectBinds mapping b) c root := by
  obtain ⟨-, env, hkept, hjoins, hall⟩ := (mem_execute h).mp hroot
  obtain ⟨row, hrow, hholds⟩ := clausesHold_iff.mp hall c hc
  have hstart : env b.model = some root := by
    rw [hkept, single_self]
    intro hmem
    obtain ⟨j, hj, htarget⟩ := List.mem_map.mp hmem
    obtain ⟨path, hpath, hj⟩ := mem_of_mem_joinPaths hj
    obtain ⟨c', hc', rfl⟩ := List.mem_map.mp hpath
    exact selectJoins_root h c' hc' (htarget ▸ List.mem_map_of_mem hj)
  have hpath : ∀ j ∈ joinsOf mapping.schema db c.relations, Satisfies db env j := by
    refine fun j hj => hjoins j (mem_joinPaths (List.mem_map_of_mem hc) hj ?_)
    rintro path hpath j' hj' htarget
    obtain ⟨c', hc', rfl⟩ := List.mem_map.mp hpath
    exact hone.join_eq hc' hc hj' hj htarget
  obtain ⟨hlinked, howner⟩ := leads_of_mem db hc
  obtain ⟨row', hrow', hreached⟩ := mem_reached_of_satisfies hlinked hstart hpath
  rw [howner, hrow] at hrow'
  cases hrow'
  exact ⟨row, hreached, hholds⟩

/-- The other way round, the walks of the clauses fit into one environment when
the classes they share are reached through to-one relations. -/
theorem mem_execute_of_met (hone : OneJoin (selectClauses mapping b))
    (hshared : (selectClauses mapping b).Pairwise fun c c' =>
      ∀ j ∈ joinsOf mapping.schema db c.relations, ∀ j' ∈ joinsOf mapping.schema db c'.relations,
        j.target = j'.target → Functional db j)
    {rows : List Row} (h : execute mapping b db = .ok rows) {root : Row} (hroot : root ∈ db b.model)
    (hmet : ∀ c ∈ selectClauses mapping b, Met mapping db (selectBinds mapping b) c root) :
    root ∈ rows := by
  have hne : Nonempty Row := ⟨root⟩
  choose! walk hreached hholds using hmet
  let walks := (selectClauses mapping b).map fun c =>
    (joinsOf mapping.schema db c.relations, walk c)
  have hjoint : ∃ env : Env M Row, env b.model = some root ∧
      (∀ m', m' ≠ b.model → (∀ w ∈ walks, m' ∉ w.1.map Join.target) → env m' = none) ∧
      ∀ w ∈ walks, (∀ j ∈ w.1, Satisfies db env j) ∧ env (endOf b.model w.1) = some w.2 := by
    refine exists_joint ?_ ?_ ?_ ?_ ?_
    · simp only [walks, List.forall_mem_map]
      exact fun c hc => (leads_of_mem db hc).1
    · simp only [walks, List.forall_mem_map]
      exact fun c hc => nodup_of_linked (leads_of_mem db hc).1 (selectJoins_root h c hc)
        fun j hj j' hj' heq => hone.join_eq hc hc hj hj' heq
    · simp only [walks, List.forall_mem_map]
      exact selectJoins_root h
    · simp only [walks, List.forall_mem_map]
      exact hreached
    · rw [List.pairwise_map]
      refine hshared.imp_of_mem fun hc hc' hfunctional j hj j' hj' heq => ?_
      exact ⟨hone.join_eq hc hc' hj hj' heq, hfunctional j hj j' hj' heq⟩
  obtain ⟨env, hstart, hdomain, hall⟩ := hjoint
  simp only [walks, List.forall_mem_map] at hdomain hall
  refine (mem_execute h).mpr ⟨hroot, env, fun m hm => ?_, fun j hj => ?_, clausesHold_iff.mpr ?_⟩
  · by_cases hmodel : m = b.model
    · rw [hmodel, hstart, single_self]
    · rw [single_of_ne root hmodel]
      refine hdomain m hmodel fun c hc hmem => hm ?_
      obtain ⟨j, hj, rfl⟩ := List.mem_map.mp hmem
      obtain ⟨j', hj', heq⟩ : ∃ j' ∈ selectJoins mapping b db, j'.target = j.target :=
        exists_joinPaths (List.mem_map_of_mem hc) hj
      exact heq ▸ List.mem_map_of_mem hj'
  · obtain ⟨path, hpath, hj⟩ := mem_of_mem_joinPaths hj
    obtain ⟨c, hc, rfl⟩ := List.mem_map.mp hpath
    exact (hall c hc).1 j hj
  · intro c hc
    rw [← (leads_of_mem db hc).2]
    exact ⟨walk c, (hall c hc).2, hholds c hc⟩

/-- The rows of the SELECT are those that meet each clause on its own. -/
theorem mem_execute_iff_met (hone : OneJoin (selectClauses mapping b))
    (hshared : (selectClauses mapping b).Pairwise fun c c' =>
      ∀ j ∈ joinsOf mapping.schema db c.relations, ∀ j' ∈ joinsOf mapping.schema db c'.relations,
        j.target = j'.target → Functional db j)
    {rows : List Row} (h : execute mapping b db = .ok rows) {root : Row} :
    root ∈ rows ↔ root ∈ db b.model ∧ ∀ c ∈ selectClauses mapping b,
      Met mapping db ((selectClauses mapping b).flatMap Clause.binds) c root := by
  constructor
  · exact fun hroot => ⟨((mem_execute h).mp hroot).1, fun c hc =>
      (met_selectBinds hc root).mp (met_of_mem_execute hone h hroot hc)⟩
  · exact fun ⟨hroot, hmet⟩ => mem_execute_of_met hone hshared h hroot fun c hc =>
      (met_selectBinds hc root).mpr (hmet c hc)

/-! ## The UPDATE and the DELETE -/

theorem update_prepared {rows : List Row}
    (h : MutationQueryExecutor.update mapping b db = .ok rows) :
    prepareQuery mapping b = .ok (selectClauses mapping b) := by
  unfold MutationQueryExecutor.update at h
  cases hprepare : prepareQuery mapping b with
  | error e => simp [hprepare] at h
  | ok clauses => rw [prepareQuery_ok hprepare]

theorem mem_update {rows : List Row} (h : MutationQueryExecutor.update mapping b db = .ok rows)
    (hown : ∀ c ∈ selectClauses mapping b, c.relations = []) {root : Row} :
    root ∈ rows ↔ root ∈ db b.model ∧ ∀ c ∈ selectClauses mapping b,
      Met mapping db ((selectClauses mapping b).flatMap Clause.binds) c root := by
  simp only [MutationQueryExecutor.update, update_prepared h, Except.ok.injEq] at h
  subst h
  have howner : ∀ c ∈ selectClauses mapping b, c.owner b.model = b.model := by
    intro c hc
    have hleads := (leads_of_mem db hc).2
    rw [hown c hc] at hleads
    exact hleads.symm
  have hfrom : updateFrom b (selectClauses mapping b) = ([] : List (Join M Row)) := by
    unfold updateFrom
    rw [List.map_eq_nil_iff, List.dedup_eq_nil, List.filter_eq_nil_iff]
    intro table htable
    obtain ⟨c, hc, rfl⟩ := List.mem_map.mp htable
    simp [howner c hc]
  rw [List.mem_filter, hfrom, environments, List.any_cons, List.any_nil, Bool.or_false,
    clausesHold_iff]
  refine and_congr_right fun _ => forall₂_congr fun c hc => ?_
  rw [howner c hc, single_self, Met, hown c hc]
  simp [joinsOf, reached]

/-- The compared columns of the subquery are those of the join condition. -/
def LinedUp (c : Clause M Row Val Arg) : Prop :=
  ∀ step ∈ c.relations.head?, ∀ pair,
    pair ∈ step.relation.localColumns.zip step.relation.remoteSide ↔ pair ∈ step.relation.columns

/-- `local IN (SELECT remote ...)` walks the relations of the clause. -/
theorem deleteClause_iff {c : Clause M Row Val Arg} (hleads : Leads mapping.schema db b.model c)
    (hnames : namesOnce c) (hlined : LinedUp c) (binds : List (String × Arg)) (root : Row) :
    deleteClause mapping b db binds c root ↔ Met mapping db binds c root := by
  obtain ⟨hlinked, howner⟩ := hleads
  unfold deleteClause Met
  cases hpath : c.relations with
  | nil => simp [joinsOf, reached]
  | cons first rest =>
      rw [hpath] at hlinked howner
      obtain ⟨hsource, hlinked⟩ := hlinked
      have hnodup : (first.relation.target ::
          (joinsOf mapping.schema db rest).map Join.target).Nodup := by
        have hmap : (joinsOf mapping.schema db rest).map Join.target =
            rest.map fun step => step.relation.target := by
          rw [joinsOf, List.map_map]
          rfl
        unfold namesOnce at hnames
        rw [hpath] at hnames
        rw [hmap]
        simpa using hnames
      have hcolumns := hlined first (by rw [hpath]; rfl)
      simp only [List.any_eq_true, Bool.and_eq_true, clausesHold_iff, List.forall_mem_singleton]
      rw [← howner]
      let Holds (y : Row) : Prop := c.holds mapping.schema mapping.comparison db binds root y = true
      have hwalk : ∀ row, (∃ env ∈ environments db (joinsOf mapping.schema db rest)
          (single first.relation.target row), ∃ y,
            env (endOf first.relation.target (joinsOf mapping.schema db rest)) = some y ∧ Holds y) ↔
          ∃ y ∈ reached db (joinsOf mapping.schema db rest) row, Holds y :=
        fun row => exists_environment_iff hlinked hnodup
      constructor
      · rintro ⟨row, hrow, hsame, env, henv, y, hy, hholds⟩
        rw [sameColumns_congr hcolumns] at hsame
        obtain ⟨z, hz, hzholds⟩ := (hwalk row).mp ⟨env, henv, y, hy, hholds⟩
        exact ⟨z, mem_reached_cons.mpr ⟨row, hrow, hsame, hz⟩, hzholds⟩
      · rintro ⟨y, hy, hholds⟩
        obtain ⟨row, hrow, hsame, hreached⟩ := mem_reached_cons.mp hy
        obtain ⟨env, henv, y', hy', hholds'⟩ := (hwalk row).mpr ⟨y, hreached, hholds⟩
        refine ⟨row, hrow, ?_, env, henv, y', hy', hholds'⟩
        rw [sameColumns_congr hcolumns]
        exact hsame

end Select

end Paths

end TicketBooking.Query.Matching
