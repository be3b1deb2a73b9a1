import TicketBooking.Query.Mutations
/-!
# Filters over to-one relations

A SELECT whose filters follow to-one relations finds each row once, in the order
of the table: the rows every filter lets through.
-/

namespace TicketBooking.Query.Selections

open TicketBooking.Library TicketBooking.Library.Joins
open TicketBooking.Query.Builder TicketBooking.Query.Filters TicketBooking.Query.Matching

variable {M Row Val Arg : Type}

/-! ## One environment for each row -/

theorem length_le_one_of_forall_eq {α : Type} {xs : List α} (hnodup : xs.Nodup)
    (h : ∀ x ∈ xs, ∀ y ∈ xs, x = y) : xs.length ≤ 1 := by
  match xs, hnodup with
  | [], _ => exact Nat.zero_le 1
  | [_], _ => exact le_rfl
  | x :: y :: _, hnodup =>
      have heq : x = y := h x List.mem_cons_self y (List.mem_cons_of_mem _ List.mem_cons_self)
      exact absurd (heq ▸ List.mem_cons_self) (List.nodup_cons.mp hnodup).1

theorem length_environments_le [DecidableEq M] {tables : M → List Row} {joins : List (Join M Row)}
    (h : ∀ j ∈ joins, (tables j.target).Nodup ∧ Functional tables j) (env : Env M Row) :
    (environments tables joins env).length ≤ 1 := by
  induction joins generalizing env with
  | nil => exact le_rfl
  | cons j joins ih =>
      obtain ⟨⟨hnodup, hfunctional⟩, hrest⟩ := List.forall_mem_cons.mp h
      unfold environments
      split
      · exact Nat.zero_le 1
      · rename_i x _
        have hone : ((tables j.target).filter (j.on x)).length ≤ 1 := by
          refine length_le_one_of_forall_eq (hnodup.filter _) fun y hy y' hy' => ?_
          obtain ⟨hy, hon⟩ := List.mem_filter.mp hy
          obtain ⟨hy', hon'⟩ := List.mem_filter.mp hy'
          exact hfunctional x y y' hy hy' hon hon'
        match (tables j.target).filter (j.on x), hone with
        | [], _ => exact Nat.zero_le 1
        | [y], _ =>
            rw [List.flatMap_singleton]
            exact ih hrest _

theorem flatMap_eq_filter {α β : Type} {xs : List α} {matching : α → List β} {p : α → Bool}
    (hone : ∀ x ∈ xs, (matching x).length ≤ 1) (hp : ∀ x ∈ xs, p x ↔ matching x ≠ []) :
    (xs.flatMap fun x => (matching x).map fun _ => x) = xs.filter p := by
  induction xs with
  | nil => rfl
  | cons x xs ih =>
      obtain ⟨hfirst, hone⟩ := List.forall_mem_cons.mp hone
      obtain ⟨hpx, hp⟩ := List.forall_mem_cons.mp hp
      rw [List.flatMap_cons, ih hone hp, List.filter_cons]
      match matching x, hfirst, hpx with
      | [], _, hpx =>
          rw [if_neg fun h => hpx.mp h rfl]
          rfl
      | [_], _, hpx =>
          rw [if_pos (hpx.mpr (List.cons_ne_nil _ _))]
          rfl

/-! ## The rows of the SELECT -/

section Statements

variable [DecidableEq Val] (mapping : Mapping M Row Val Arg) (db : Db M Row)

/-- A walk along the relations of the clause ends at a row it holds of. -/
def meets (binds : List (String × Arg)) (c : Clause M Row Val Arg) (root : Row) : Bool :=
  (reached db (joinsOf mapping.schema db c.relations) root).any fun row =>
    c.holds mapping.schema mapping.comparison db binds root row

theorem meets_iff {binds : List (String × Arg)} {c : Clause M Row Val Arg} {root : Row} :
    meets mapping db binds c root ↔ Met mapping db binds c root := by
  unfold meets Met
  rw [List.any_eq_true]

/-- Whether a filter lets a row of the queried class through; one that names nothing does. -/
def admits (model : M) (filter : String × Arg) (root : Row) : Bool :=
  (prepare mapping.schema model [] filter).all fun c => meets mapping db [] c root

end Statements

section Select

variable [DecidableEq M] [DecidableEq Val] {mapping : Mapping M Row Val Arg}
  {b : QueryBuilder M Row Val Arg} {db : Db M Row}

theorem execute_eq_filter (hprepare : prepareQuery mapping b = .ok (selectClauses mapping b))
    (hroot : ∀ c ∈ selectClauses mapping b, ∀ step ∈ c.relations, step.relation.target ≠ b.model)
    (hone : OneJoin (selectClauses mapping b))
    (htoOne : ∀ c ∈ selectClauses mapping b, ∀ step ∈ c.relations,
      (db step.relation.target).Nodup ∧ Functional db (step.join mapping.schema db)) :
    execute mapping b db = .ok ((db b.model).filter fun root =>
      (selectClauses mapping b).all fun c =>
        meets mapping db ((selectClauses mapping b).flatMap Clause.binds) c root) := by
  have hjoined : ∀ j ∈ selectJoins mapping b db, j.target ≠ b.model ∧
      (db j.target).Nodup ∧ Functional db j := by
    intro j hj
    obtain ⟨path, hpath, hj⟩ := mem_of_mem_joinPaths hj
    obtain ⟨c, hc, rfl⟩ := List.mem_map.mp hpath
    obtain ⟨step, hstep, rfl⟩ := List.mem_map.mp hj
    exact ⟨hroot c hc step hstep, htoOne c hc step hstep⟩
  have hmodel : b.model ∉ (selectJoins mapping b db).map Join.target := by
    intro hmem
    obtain ⟨j, hj, htarget⟩ := List.mem_map.mp hmem
    exact (hjoined j hj).1 htarget
  let matching : Row → List (Env M Row) := fun root =>
    (environments db (selectJoins mapping b db) (single b.model root)).filter
      (clausesHold mapping b db (selectClauses mapping b) (selectBinds mapping b) root)
  have hrows : execute mapping b db =
      .ok ((db b.model).flatMap fun root => (matching root).map fun _ => root) := by
    unfold execute
    rw [hprepare]
    exact if_neg hmodel
  rw [hrows]
  refine congrArg Except.ok (flatMap_eq_filter (fun root _ => ?_) fun root hmem => ?_)
  · exact (List.length_filter_le _ _).trans
      (length_environments_le (fun j hj => (hjoined j hj).2) _)
  · have hshared : (selectClauses mapping b).Pairwise fun c c' =>
        ∀ j ∈ joinsOf mapping.schema db c.relations,
          ∀ j' ∈ joinsOf mapping.schema db c'.relations, j.target = j'.target →
            Functional db j := by
      refine List.pairwise_of_forall_mem_list fun c hc _ _ j hj _ _ _ => ?_
      obtain ⟨step, hstep, rfl⟩ := List.mem_map.mp hj
      exact (htoOne c hc step hstep).2
    have hfound : root ∈ ((db b.model).flatMap fun root => (matching root).map fun _ => root) ↔
        matching root ≠ [] := by
      rw [List.mem_flatMap]
      constructor
      · rintro ⟨root', -, hroot'⟩
        obtain ⟨env, henv, rfl⟩ := List.mem_map.mp hroot'
        exact List.ne_nil_of_mem henv
      · intro hne
        obtain ⟨env, henv⟩ := List.exists_mem_of_ne_nil _ hne
        exact ⟨root, hmem, List.mem_map.mpr ⟨env, henv, rfl⟩⟩
    rw [← hfound, mem_execute_iff_met hone hshared hrows, List.all_eq_true]
    simp only [meets_iff, hmem, true_and]

/-! ## Filters on one path -/

/-- Every filter that names something makes a clause without a parameter of its own, on the
queried class or at the end of one path of to-one relations. -/
structure OnPath (mapping : Mapping M Row Val Arg) (db : Db M Row) (b : QueryBuilder M Row Val Arg)
    (path : List (Step M)) : Prop where
  plain : b.annotations = []
  fresh : b.contextHistory = []
  free : ∀ filter ∈ b.filters, filter.1 ∉ reserved
  built : ∀ filter ∈ given b.filters, ∀ c, prepare mapping.schema b.model [] filter = some c →
    c.builds mapping.comparison ∧ c.binds = [] ∧ (c.relations = [] ∨ c.relations = path)
  distinct : (b.model :: path.map fun step => step.relation.target).Nodup
  toOne : ∀ step ∈ path, (db step.relation.target).Nodup ∧
    Functional db (step.join mapping.schema db)

variable {path : List (Step M)}

omit [DecidableEq M] in
theorem OnPath.clause (h : OnPath mapping db b path) {c : Clause M Row Val Arg}
    (hc : c ∈ selectClauses mapping b) :
    c.builds mapping.comparison ∧ c.binds = [] ∧ (c.relations = [] ∨ c.relations = path) := by
  obtain ⟨filter, hfilter, hprepared⟩ := mem_prepareFilters.mp hc
  rw [h.plain] at hprepared
  exact h.built filter hfilter c hprepared

omit [DecidableEq M] in
theorem OnPath.mem_path (h : OnPath mapping db b path) {c : Clause M Row Val Arg}
    (hc : c ∈ selectClauses mapping b) {step : Step M} (hstep : step ∈ c.relations) :
    step ∈ path := by
  rcases (h.clause hc).2.2 with hnil | hpath
  · rw [hnil] at hstep
    cases hstep
  · exact hpath ▸ hstep

theorem OnPath.fetch (h : OnPath mapping db b path) :
    fetch mapping b db = .ok ((db b.model).filter fun root =>
      (given b.filters).all fun filter => admits mapping db b.model filter root) := by
  obtain ⟨hroot, hnodup⟩ := List.nodup_cons.mp h.distinct
  have hprepare : prepareQuery mapping b = .ok (selectClauses mapping b) := by
    have hreserved : ¬ b.filters.any fun filter => filter.1 ∈ reserved := by
      simpa using h.free
    have hbuilds : (selectClauses mapping b).all (Clause.builds mapping.comparison) :=
      List.all_eq_true.mpr fun c hc => (h.clause hc).1
    unfold prepareQuery
    rw [if_neg (not_not.mpr h.fresh), if_neg hreserved, if_pos hbuilds]
  have hbinds : (selectClauses mapping b).flatMap Clause.binds = [] :=
    List.flatMap_eq_nil_iff.mpr fun c hc => (h.clause hc).2.1
  refine fetch_eq_ok.mpr ⟨?_, eagerLoads_of_onePath path fun c hc => (h.clause hc).2.2⟩
  rw [execute_eq_filter hprepare]
  · refine congrArg Except.ok (List.filter_congr fun root _ => ?_)
    rw [hbinds, Bool.eq_iff_iff, List.all_eq_true, List.all_eq_true]
    constructor
    · intro hall filter hfilter
      refine Option.all_eq_true_iff_get _ _ |>.mpr fun hsome => ?_
      refine hall _ (mem_prepareFilters.mpr ⟨filter, hfilter, ?_⟩)
      rw [h.plain, Option.some_get]
    · intro hall c hc
      obtain ⟨filter, hfilter, hprepared⟩ := mem_prepareFilters.mp hc
      rw [h.plain] at hprepared
      have hadmits := hall filter hfilter
      unfold admits at hadmits
      rw [hprepared] at hadmits
      exact hadmits
  · intro c hc step hstep heq
    exact hroot (heq ▸ List.mem_map_of_mem (h.mem_path hc hstep))
  · intro c hc c' hc' step hstep step' hstep' heq
    exact List.inj_on_of_nodup_map hnodup (h.mem_path hc hstep)
      (h.mem_path hc' hstep') heq
  · exact fun c hc step hstep => h.toOne step (h.mem_path hc hstep)

end Select

end TicketBooking.Query.Selections
