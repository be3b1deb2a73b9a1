import TicketBooking.Library.Outcomes
import TicketBooking.Query.Mutations
/-!
# Paths in expressions

`BaseExpression._resolve_path_to_expression`: the attribute of a path, or the
scalar subquery for it, and the value the subquery has for a row of the class the
statement is on.
-/

namespace TicketBooking.Query.Paths

open TicketBooking.Library.Joins TicketBooking.Library.Outcomes
open TicketBooking.Query.Comparisons TicketBooking.Query.Filters TicketBooking.Query.Operators

variable {M Row Val : Type}

/-! ## The expression -/

inductive PathError
  | attributeError (message : String)
  /-- The attribute is no relationship. -/
  | notRelation
  /-- SQLAlchemy or the database refuses the statement. -/
  | refused
  /-- A scalar subquery returned more than one row. -/
  | manyRows
  deriving DecidableEq, Repr

/-- `select(target).where(...).join(...)` over the relationships of the path, with
`field` of the last class as its only column. -/
inductive Expression (M : Type)
  | attribute (field : String)
  | relationship (owner : M) (field : String)
  | scalarSubquery (steps : List (Step M)) (model : M) (field : String)
  deriving DecidableEq

section Resolve

variable (schema : Schema M Row Val) (className : M → String)

/-- The loop over the relation names. -/
def followNames : M → List String → Except PathError (List (Step M) × M)
  | model, [] => .ok ([], model)
  | model, name :: names =>
      match schema.attr model name with
      | none =>
          .error (.attributeError
            s!"Could not resolve relation '{name}' on model {className model}")
      | some (.column _) => .error .notRelation
      | some (.relation rel) =>
          (followNames rel.target names).map fun rest => (⟨model, rel⟩ :: rest.1, rest.2)

/-- `parts.pop()`. -/
def targetField (path : String) : String := (components path).getLast (components_ne_nil path)

/-- What is left of `parts`. -/
def relationNames (path : String) : List String := (components path).dropLast

/-- `_resolve_path_to_expression`. -/
def BaseExpression.resolvePath (current : M) (path : String) : Except PathError (Expression M) :=
  let field := targetField path
  match relationNames path with
  | [] =>
      match schema.attr current field with
      | some _ => .ok (.attribute field)
      | none =>
          .error (.attributeError s!"Field '{field}' not found on model {className current}")
  | names =>
      match followNames schema className current names with
      | .error e => .error e
      | .ok (steps, model) =>
          match schema.attr model field with
          | some (.column _) => .ok (.scalarSubquery steps model field)
          | some (.relation _) => .ok (.relationship model field)
          | none =>
              .error (.attributeError s!"Field '{field}' not found on model {className model}")

end Resolve

/-! ## Its value -/

/-- `list(prop.local_columns)[0]`. -/
def localCol (step : Step M) : String := step.relation.localColumns.headD ""

/-- `list(prop.remote_side)[0]`. -/
def remoteCol (step : Step M) : String := step.relation.remoteSide.headD ""

def tablesOf (steps : List (Step M)) : List M := steps.map fun step => step.relation.target

section Evaluate

variable [DecidableEq M] [DecidableEq Val] (schema : Schema M Row Val) (db : Db M Row)

def joinOn (step : Step M) (lastCol : String) : Join M Row where
  source := step.source
  target := step.relation.target
  on := sameColumns schema db step.source step.relation.target [(lastCol, remoteCol step)]

/-- The joins of the loop: each compares its remote column with the one of the
join before it. -/
def joinsFrom (lastCol : String) : List (Step M) → List (Join M Row)
  | [] => []
  | step :: steps => joinOn schema db step lastCol :: joinsFrom (remoteCol step) steps

/-- The class of the statement is correlated unless the subquery has its table. -/
def outerRow (current : M) (steps : List (Step M)) (row : Row) : Env M Row :=
  if current ∈ tablesOf steps then fun _ => none else single current row

/-- `remote_col == local_col` of the first relationship. -/
def whereHolds (current : M) (first : Step M) (env : Env M Row) : Bool :=
  match env current, env first.relation.target with
  | some x, some y => (joinOn schema db first (localCol first)).on x y
  | _, _ => false

/-- The environments of the subquery's FROM and WHERE clauses. -/
def subqueryEnvironments (current : M) (row : Row) : List (Step M) → List (Env M Row)
  | [] => []
  | first :: rest =>
      ((db first.relation.target).flatMap fun x =>
        environments db (joinsFrom schema db (remoteCol first) rest)
          (Function.update (outerRow current (first :: rest) row) first.relation.target
            (some x))).filter (whereHolds schema db current first)

/-- A table is joined once; and of a subquery on one table, which the statement has
too, auto-correlation leaves no FROM clause. -/
def refusesSubquery (current : M) (named : List M) (steps : List (Step M)) : Bool :=
  !(tablesOf steps).Nodup ||
    match steps with
    | [first] => first.relation.target ≠ current && first.relation.target ∈ named
    | _ => false

def scalar : List (Option Val) → Except PathError (Option Val)
  | [] => .ok none
  | [value] => .ok value
  | _ => .error .manyRows

/-- The value for a row of `current`, in a statement that names the tables `named`
besides. -/
def evaluate (current : M) (named : List M) (row : Row) :
    Expression M → Except PathError (Option Val)
  | .attribute field => .ok (schema.read db current field row)
  | .relationship _ _ => .error .refused
  | .scalarSubquery steps model field =>
      if refusesSubquery current named steps then .error .refused
      else scalar ((subqueryEnvironments schema db current row steps).map fun env =>
        (env model).bind (schema.read db model field))

/-! ## What it is to be -/

def followed : List (Step M) → Row → Option Row
  | [], row => some row
  | step :: steps, row =>
      ((db step.relation.target).find? ((Step.join schema db step).on row)).bind (followed steps)

/-- Relationships over many-to-one keys, in tables without repeated rows. -/
def Keyed (steps : List (Step M)) : Prop :=
  ∀ step ∈ steps, (db step.relation.target).Nodup ∧ Functional db (Step.join schema db step)

/-- In a statement that names the tables `named` besides, the expression of the path has the
value of its field on the row its relationships lead to, and NULL where one leads to none. -/
def FollowsPath (className : M → String) (current : M) (named : List M) (path : String) : Prop :=
  ∀ steps model, followNames schema className current (relationNames path) = .ok (steps, model) →
    ∀ db, Keyed schema db steps → ∀ row ∈ db current,
      (BaseExpression.resolvePath schema className current path).bind
          (evaluate schema db current named row) =
        .ok ((followed schema db steps row).bind (schema.read db model (targetField path)))

/-- The loop compares every pair of columns: there is one, and it starts at the column
where the relationship before ended. -/
def Chained (lastCol : String) : List (Step M) → Prop
  | [] => True
  | step :: steps =>
      (∀ pair ∈ step.relation.columns, pair = (lastCol, remoteCol step)) ∧
        Chained (remoteCol step) steps

/-- The relationships of a path whose value the expression has. -/
def Straight (current : M) (named : List M) : List (Step M) → Prop
  | [] => True
  | first :: rest =>
      (current :: tablesOf (first :: rest)).Nodup ∧
        (rest = [] → first.relation.target ∉ named) ∧
          Chained (localCol first) (first :: rest)

end Evaluate

/-! ## The rows of the subquery -/

section Rows

variable [DecidableEq M] [DecidableEq Val] {schema : Schema M Row Val} {db : Db M Row}

def Consecutive (model : M) : List (Step M) → Prop
  | [] => True
  | step :: steps => step.source = model ∧ Consecutive step.relation.target steps

def endModel (model : M) : List (Step M) → M
  | [] => model
  | step :: steps => endModel step.relation.target steps

omit [DecidableEq M] [DecidableEq Val] in
theorem followNames_cons {className : M → String} {model last : M} {name : String}
    {names : List String} {steps : List (Step M)}
    (h : followNames schema className model (name :: names) = .ok (steps, last)) :
    ∃ rel rest, schema.attr model name = some (.relation rel) ∧
      followNames schema className rel.target names = .ok (rest, last) ∧
        steps = ⟨model, rel⟩ :: rest := by
  unfold followNames at h
  split at h
  · cases h
  · cases h
  · rename_i rel hattr
    obtain ⟨rest, hrest, heq⟩ := map_eq_ok h
    cases heq
    exact ⟨rel, rest.1, hattr, hrest, rfl⟩

omit [DecidableEq M] [DecidableEq Val] in
theorem followNames_ok {className : M → String} {model : M} {names : List String}
    {steps : List (Step M)} {last : M}
    (h : followNames schema className model names = .ok (steps, last)) :
    Consecutive model steps ∧ last = endModel model steps ∧ steps.length = names.length := by
  induction names generalizing model steps with
  | nil =>
      cases h
      exact ⟨trivial, rfl, rfl⟩
  | cons name names ih =>
      obtain ⟨rel, rest, -, hrest, rfl⟩ := followNames_cons h
      obtain ⟨hconsecutive, hlast, hlength⟩ := ih hrest
      exact ⟨⟨rfl, hconsecutive⟩, hlast, congrArg (· + 1) hlength⟩

omit [DecidableEq M] in
theorem joinsFrom_targets (lastCol : String) (steps : List (Step M)) :
    (joinsFrom schema db lastCol steps).map Join.target = tablesOf steps := by
  induction steps generalizing lastCol with
  | nil => rfl
  | cons step steps ih => exact congrArg (step.relation.target :: ·) (ih (remoteCol step))

omit [DecidableEq M] in
theorem linked_joinsFrom {model : M} {steps : List (Step M)} (h : Consecutive model steps)
    (lastCol : String) : Linked model (joinsFrom schema db lastCol steps) := by
  induction steps generalizing model lastCol with
  | nil => trivial
  | cons step steps ih => exact ⟨h.1, ih h.2 (remoteCol step)⟩

omit [DecidableEq M] in
theorem endOf_joinsFrom (model : M) (lastCol : String) (steps : List (Step M)) :
    endOf model (joinsFrom schema db lastCol steps) = endModel model steps := by
  induction steps generalizing model lastCol with
  | nil => rfl
  | cons step steps ih => exact ih step.relation.target (remoteCol step)

theorem flatMap_filter {α β : Type} (p : α → Bool) (f : α → List β) (xs : List α) :
    (xs.filter p).flatMap f = xs.flatMap fun x => if p x then f x else [] := by
  induction xs with
  | nil => rfl
  | cons x xs ih =>
      rw [List.filter_cons, List.flatMap_cons, ← ih]
      split
      · rw [List.flatMap_cons]
      · rfl

omit [DecidableEq Val] in
/-- The last rows of the joined environments are the rows the joins lead to. -/
theorem environments_ends {path : List (Join M Row)} {m : M} {env : Env M Row} {x : Row}
    (hlinked : Linked m path) (hx : env m = some x) :
    (environments db path env).map (fun env => env (endOf m path)) =
      (reached db path x).map some := by
  induction path generalizing m env x with
  | nil => exact congrArg ([·]) hx
  | cons j path ih =>
      obtain ⟨rfl, hlinked⟩ := hlinked
      simp only [environments, hx, reached, List.map_flatMap]
      refine List.flatMap_congr fun y _ => ?_
      exact ih hlinked (Function.update_self _ _ _)

omit [DecidableEq Val] in
theorem environments_kept {path : List (Join M Row)} {env env' : Env M Row}
    (h : env' ∈ environments db path env) {m : M} (hm : m ∉ path.map Join.target) :
    env' m = env m := by
  induction path generalizing env with
  | nil => rw [List.mem_singleton.mp h]
  | cons j path ih =>
      rw [List.map_cons, List.mem_cons, not_or] at hm
      unfold environments at h
      split at h
      · cases h
      · obtain ⟨y, -, henv⟩ := List.mem_flatMap.mp h
        rw [ih henv hm.2, Function.update_of_ne hm.1]

theorem filter_environments {path : List (Join M Row)} {env : Env M Row}
    {test : Env M Row → Bool}
    (htest : ∀ env' ∈ environments db path env, test env' = test env) :
    (environments db path env).filter test = if test env then environments db path env else [] := by
  split
  · rename_i h
    exact List.filter_eq_self.mpr fun env' henv => (htest env' henv).trans h
  · rename_i h
    exact List.filter_eq_nil_iff.mpr fun env' henv => by rwa [htest env' henv]

/-- A correlated subquery has the rows its joins lead to. -/
theorem subquery_correlated {current : M} {row : Row} {first : Step M} {rest : List (Step M)}
    (hsteps : Consecutive current (first :: rest))
    (hnodup : (current :: tablesOf (first :: rest)).Nodup) :
    (subqueryEnvironments schema db current row (first :: rest)).map
        (fun env => env (endModel current (first :: rest))) =
      (reached db (joinsFrom schema db (localCol first) (first :: rest)) row).map some := by
  obtain ⟨hcurrent, hnodup⟩ := List.nodup_cons.mp hnodup
  obtain ⟨hfirst, -⟩ := List.nodup_cons.mp hnodup
  have hne : current ≠ first.relation.target := fun heq => hcurrent (heq ▸ List.mem_cons_self)
  have hlater : ∀ m, m ∉ tablesOf rest →
      m ∉ (joinsFrom schema db (remoteCol first) rest).map Join.target := by
    intro m hm
    rwa [joinsFrom_targets]
  have houter : outerRow current (first :: rest) row = single current row := if_neg hcurrent
  have hends : ∀ x, (environments db (joinsFrom schema db (remoteCol first) rest)
        (Function.update (single current row) first.relation.target (some x))).map
          (fun env => env (endModel current (first :: rest))) =
      (reached db (joinsFrom schema db (remoteCol first) rest) x).map some := by
    intro x
    have hlinked : Linked first.relation.target (joinsFrom schema db (remoteCol first) rest) :=
      linked_joinsFrom hsteps.2 (remoteCol first)
    have hend : endModel current (first :: rest) =
        endOf first.relation.target (joinsFrom schema db (remoteCol first) rest) :=
      (endOf_joinsFrom first.relation.target (remoteCol first) rest).symm
    rw [hend]
    exact environments_ends hlinked (Function.update_self _ _ _)
  simp only [subqueryEnvironments, houter, joinsFrom, reached, List.filter_flatMap,
    List.map_flatMap]
  rw [flatMap_filter]
  refine List.flatMap_congr fun x _ => ?_
  rw [filter_environments]
  · rw [whereHolds, Function.update_of_ne hne, single_self, Function.update_self]
    dsimp only
    split
    · exact hends x
    · rfl
  · intro env henv
    have hkept := hlater current fun h => hcurrent (List.mem_cons_of_mem _ h)
    rw [whereHolds, whereHolds, environments_kept henv hkept,
      environments_kept henv (hlater first.relation.target hfirst)]

theorem filter_eq_toList_find? {α : Type} {p : α → Bool} {xs : List α} (hnodup : xs.Nodup)
    (hone : ∀ x ∈ xs, ∀ y ∈ xs, p x → p y → x = y) : xs.filter p = (xs.find? p).toList := by
  induction xs with
  | nil => rfl
  | cons x xs ih =>
      obtain ⟨hnew, hnodup⟩ := List.nodup_cons.mp hnodup
      by_cases hx : p x
      · have hnone : xs.filter p = [] := by
          refine List.filter_eq_nil_iff.mpr fun y hy hpy => ?_
          have heq : x = y := hone x List.mem_cons_self y (List.mem_cons_of_mem _ hy) hx hpy
          exact hnew (heq ▸ hy)
        rw [List.filter_cons_of_pos hx, List.find?_cons_of_pos hx, hnone]
        rfl
      · rw [List.filter_cons_of_neg hx, List.find?_cons_of_neg hx]
        exact ih hnodup fun y hy z hz =>
          hone y (List.mem_cons_of_mem _ hy) z (List.mem_cons_of_mem _ hz)

omit [DecidableEq M] in
/-- One pair of columns is the whole join condition when no other is in it. -/
theorem joinOn_eq_join {step : Step M} {lastCol : String} (hcolumns : step.relation.columns ≠ [])
    (hpairs : ∀ pair ∈ step.relation.columns, pair = (lastCol, remoteCol step)) :
    joinOn schema db step lastCol = Step.join schema db step := by
  have hall : ∀ test : String × String → Bool,
      [(lastCol, remoteCol step)].all test = step.relation.columns.all test := by
    intro test
    rw [Bool.eq_iff_iff, List.all_eq_true, List.all_eq_true]
    constructor
    · intro h pair hpair
      rw [hpairs pair hpair]
      exact h _ List.mem_cons_self
    · intro h pair hpair
      obtain ⟨pair', hpair'⟩ := List.exists_mem_of_ne_nil _ hcolumns
      rw [List.mem_singleton.mp hpair, ← hpairs pair' hpair']
      exact h pair' hpair'
  unfold joinOn Step.join
  congr 1
  ext x y
  exact hall _

omit [DecidableEq M] in
/-- Along a chain, the joins of the loop lead where the relationships lead. -/
theorem reached_chained {lastCol : String} {steps : List (Step M)}
    (hcolumns : ∀ step ∈ steps, step.relation.columns ≠ []) (hchained : Chained lastCol steps)
    (hkeyed : Keyed schema db steps) (row : Row) :
    reached db (joinsFrom schema db lastCol steps) row = (followed schema db steps row).toList := by
  induction steps generalizing lastCol row with
  | nil => rfl
  | cons step steps ih =>
      obtain ⟨hfirst, hcolumns⟩ := List.forall_mem_cons.mp hcolumns
      obtain ⟨hpairs, hchained⟩ := hchained
      obtain ⟨⟨hrows, hfunctional⟩, hkeyed⟩ := List.forall_mem_cons.mp hkeyed
      have hone : (db step.relation.target).filter ((Step.join schema db step).on row) =
          ((db step.relation.target).find? ((Step.join schema db step).on row)).toList :=
        filter_eq_toList_find? hrows fun x hx y hy => hfunctional row x y hx hy
      unfold joinsFrom reached followed
      rw [joinOn_eq_join hfirst hpairs]
      change ((db step.relation.target).filter ((Step.join schema db step).on row)).flatMap _ = _
      rw [hone]
      cases (db step.relation.target).find? ((Step.join schema db step).on row) with
      | none => rfl
      | some next =>
          simp only [Option.toList_some, List.flatMap_cons, List.flatMap_nil, List.append_nil,
            Option.bind_some]
          exact ih hcolumns hchained hkeyed next

theorem evaluate_correlated {current : M} {named : List M} {first : Step M} {rest : List (Step M)}
    {field : String} (hsteps : Consecutive current (first :: rest))
    (hnodup : (current :: tablesOf (first :: rest)).Nodup)
    (hallowed : refusesSubquery current named (first :: rest) = false) (row : Row) :
    evaluate schema db current named row
        (.scalarSubquery (first :: rest) (endModel current (first :: rest)) field) =
      scalar ((reached db (joinsFrom schema db (localCol first) (first :: rest)) row).map
        (schema.read db (endModel current (first :: rest)) field)) := by
  let last := endModel current (first :: rest)
  have hrows : (subqueryEnvironments schema db current row (first :: rest)).map
        (fun env => env last) =
      (reached db (joinsFrom schema db (localCol first) (first :: rest)) row).map some :=
    subquery_correlated hsteps hnodup
  have hvalues := congrArg (List.map (Option.bind · (schema.read db last field))) hrows
  rw [List.map_map, List.map_map] at hvalues
  simp only [evaluate, hallowed, Bool.false_eq_true, if_false]
  exact congrArg scalar hvalues

omit [DecidableEq Val] in
theorem not_refused {current : M} {named : List M} {first : Step M} {rest : List (Step M)}
    (hnodup : (tablesOf (first :: rest)).Nodup)
    (hnamed : rest = [] → first.relation.target ∉ named) :
    refusesSubquery current named (first :: rest) = false := by
  unfold refusesSubquery
  rw [Bool.or_eq_false_iff]
  refine ⟨by simpa using hnodup, ?_⟩
  cases rest with
  | nil => simp [hnamed rfl]
  | cons _ _ => rfl

theorem evaluate_straight {current : M} {named : List M} {first : Step M} {rest : List (Step M)}
    {field : String} (hsteps : Consecutive current (first :: rest))
    (hcolumns : ∀ step ∈ first :: rest, step.relation.columns ≠ [])
    (hstraight : Straight current named (first :: rest))
    (hkeyed : Keyed schema db (first :: rest)) (row : Row) :
    evaluate schema db current named row
        (.scalarSubquery (first :: rest) (endModel current (first :: rest)) field) =
      .ok ((followed schema db (first :: rest) row).bind
        (schema.read db (endModel current (first :: rest)) field)) := by
  obtain ⟨hnodup, hnamed, hchained⟩ := hstraight
  have hallowed : refusesSubquery current named (first :: rest) = false :=
    not_refused (List.nodup_cons.mp hnodup).2 hnamed
  rw [evaluate_correlated hsteps hnodup hallowed, reached_chained hcolumns hchained hkeyed]
  cases followed schema db (first :: rest) row with
  | none => rfl
  | some last => rfl

/-! ## Where the value is another -/

omit [DecidableEq Val] in
theorem scalar_many {values : List (Option Val)} (h : 2 ≤ values.length) :
    scalar values = .error .manyRows := by
  match values with
  | [] => simp at h
  | [_] => simp at h
  | _ :: _ :: _ => rfl

omit [DecidableEq Val] in
theorem exists_environment_walk {path : List (Join M Row)} {m : M} {env : Env M Row}
    {walk : M → Row} (hlinked : Linked m path) (hm : env m = some (walk m))
    (hwalk : ∀ j ∈ path, walk j.target ∈ db j.target ∧ j.on (walk j.source) (walk j.target)) :
    ∃ env' ∈ environments db path env, (∀ n, env n = some (walk n) → env' n = some (walk n)) ∧
      ∀ n ∈ path.map Join.target, env' n = some (walk n) := by
  induction path generalizing m env with
  | nil => exact ⟨env, List.mem_singleton_self env, fun _ h => h, by simp⟩
  | cons j path ih =>
      obtain ⟨rfl, hlinked⟩ := hlinked
      obtain ⟨⟨hmem, hon⟩, hwalk⟩ := List.forall_mem_cons.mp hwalk
      obtain ⟨env', henv', hkept, htargets⟩ :=
        ih hlinked (Function.update_self j.target (some (walk j.target)) env) hwalk
      have hupdated : ∀ n, env n = some (walk n) →
          Function.update env j.target (some (walk j.target)) n = some (walk n) := by
        intro n hn
        by_cases heq : n = j.target
        · rw [heq, Function.update_self]
        · rw [Function.update_of_ne heq, hn]
      refine ⟨env', ?_, fun n hn => hkept n (hupdated n hn), ?_⟩
      · unfold environments
        rw [hm]
        exact List.mem_flatMap.mpr ⟨walk j.target, List.mem_filter.mpr ⟨hmem, hon⟩, henv'⟩
      · intro n hn
        rcases List.mem_cons.mp hn with rfl | hn
        · exact hkept _ (Function.update_self _ _ _)
        · exact htargets n hn

omit [DecidableEq M] in
theorem mem_joinsFrom {lastCol : String} {steps : List (Step M)} {j : Join M Row}
    (h : j ∈ joinsFrom schema db lastCol steps) :
    ∃ step ∈ steps, ∃ column, j = joinOn schema db step column := by
  induction steps generalizing lastCol with
  | nil => cases h
  | cons step steps ih =>
      rcases List.mem_cons.mp h with rfl | h
      · exact ⟨step, List.mem_cons_self, lastCol, rfl⟩
      · obtain ⟨step', hstep', column, rfl⟩ := ih h
        exact ⟨step', List.mem_cons_of_mem _ hstep', column, rfl⟩

end Rows

section Plain

abbrev Valuation := String → Option Value

def plain (attr : M → String → Option (Attribute M)) (primaryKey : M → List String) :
    Schema M Valuation Value where
  attr := attr
  primaryKey := primaryKey
  read _ _ field row := row field

variable {attr : M → String → Option (Attribute M)} {primaryKey : M → List String}

def constant (n : Int) : Valuation := fun _ => some (.int n)

def twoRows : Db M Valuation := fun _ => [constant 0, constant 1]

theorem constant_ne (field : String) : constant 0 field ≠ constant 1 field := by
  simp [constant]

theorem keyed_twoRows {steps : List (Step M)}
    (hcolumns : ∀ step ∈ steps, step.relation.columns ≠ []) :
    Keyed (plain attr primaryKey) twoRows steps := by
  intro step hstep
  refine ⟨List.nodup_cons.mpr ⟨fun hmem => ?_, List.nodup_singleton _⟩, ?_⟩
  · exact constant_ne "" (congrFun (List.mem_singleton.mp hmem) "")
  -- a row is joined with rows that have its value in the first pair of columns
  intro x y y' hy hy' hxy hxy'
  obtain ⟨pair, hpair⟩ := List.exists_mem_of_ne_nil _ (hcolumns step hstep)
  obtain ⟨value, hvalue, hread⟩ := sameColumns_iff.mp hxy pair hpair
  obtain ⟨value', hvalue', hread'⟩ := sameColumns_iff.mp hxy' pair hpair
  have heq : y pair.2 = y' pair.2 := hread.trans (hvalue.symm.trans hvalue' |>.trans hread'.symm)
  simp only [twoRows, List.mem_cons, List.not_mem_nil, or_false] at hy hy'
  rcases hy with rfl | rfl <;> rcases hy' with rfl | rfl
  · rfl
  · exact absurd heq (constant_ne pair.2)
  · exact absurd heq.symm (constant_ne pair.2)
  · rfl

theorem joinOn_constant {db : Db M Valuation} (step : Step M) (column : String) (n : Int) :
    (joinOn (plain attr primaryKey) db step column).on (constant n) (constant n) := by
  have hsame : sameColumns (plain attr primaryKey) db step.source step.relation.target
      [(column, remoteCol step)] (constant n) (constant n) :=
    sameColumns_iff.mpr fun _ _ => ⟨.int n, rfl, rfl⟩
  exact hsame

variable [DecidableEq M]

/-- A subquery that has the table of the statement's class is not correlated: it has a
row for each row of the table. -/
theorem evaluate_uncorrelated {current : M} {named : List M} {first : Step M}
    {rest : List (Step M)} {field : String} (hsteps : Consecutive current (first :: rest))
    (hcurrent : current ∈ tablesOf (first :: rest))
    (hallowed : refusesSubquery current named (first :: rest) = false) (row : Valuation) :
    evaluate (plain attr primaryKey) twoRows current named row
        (.scalarSubquery (first :: rest) (endModel current (first :: rest)) field) =
      .error .manyRows := by
  let schema := plain attr primaryKey
  let joins := joinsFrom schema twoRows (remoteCol first) rest
  let start : Valuation → Env M Valuation := fun x =>
    Function.update (fun _ => none) first.relation.target (some x)
  let found : Valuation → List (Env M Valuation) := fun x =>
    (environments twoRows joins (start x)).filter (whereHolds schema twoRows current first)
  have hfound : ∀ n, constant n ∈ [constant 0, constant 1] → 0 < (found (constant n)).length := by
    intro n hn
    have hlinked : Linked first.relation.target joins := linked_joinsFrom hsteps.2 _
    have hself : start (constant n) first.relation.target = some (constant n) :=
      Function.update_self _ _ _
    let walk : M → Valuation := fun _ => constant n
    have hwalk : ∀ j ∈ joins,
        walk j.target ∈ twoRows j.target ∧ j.on (walk j.source) (walk j.target) := by
      intro j hj
      obtain ⟨step, -, column, rfl⟩ := mem_joinsFrom hj
      exact ⟨hn, joinOn_constant step column n⟩
    obtain ⟨env, henv, hstart, htargets⟩ := exists_environment_walk hlinked hself hwalk
    have hfirst : env first.relation.target = some (constant n) := hstart _ hself
    have hown : env current = some (constant n) := by
      rcases List.mem_cons.mp hcurrent with heq | hmem
      · rw [heq]
        exact hfirst
      · refine htargets _ ?_
        rwa [joinsFrom_targets]
    refine List.length_pos_of_mem (List.mem_filter.mpr ⟨henv, ?_⟩)
    rw [whereHolds, hfirst, hown]
    exact joinOn_constant first (localCol first) n
  have hrows : subqueryEnvironments schema twoRows current row (first :: rest) =
      found (constant 0) ++ found (constant 1) := by
    simp only [subqueryEnvironments, outerRow, if_pos hcurrent, List.filter_flatMap]
    exact congrArg (_ ++ ·) (List.append_nil _)
  have hzero := hfound 0 List.mem_cons_self
  have hone := hfound 1 (List.mem_cons_of_mem _ List.mem_cons_self)
  simp only [evaluate, hallowed, Bool.false_eq_true, if_false]
  refine scalar_many ?_
  rw [List.length_map, hrows, List.length_append]
  omega

/-! ### A broken chain -/

def marked (m : M) (column : String) (m' : M) : Valuation := fun column' =>
  some (.int (if m' = m ∧ column' = column then 1 else 0))

def markedRows (m : M) (column : String) : Db M Valuation := fun m' => [marked m column m']

theorem keyed_markedRows {m : M} {column : String} {steps : List (Step M)} :
    Keyed (plain attr primaryKey) (markedRows m column) steps := by
  intro step _
  refine ⟨List.nodup_singleton _, ?_⟩
  intro x y y' hy hy' _ _
  rw [List.mem_singleton.mp hy, List.mem_singleton.mp hy']

theorem sameColumns_marked {db : Db M Valuation} {m source target : M} {column : String}
    {columns : List (String × String)} :
    sameColumns (plain attr primaryKey) db source target columns (marked m column source)
        (marked m column target) ↔
      ∀ pair ∈ columns, (source = m ∧ pair.1 = column ↔ target = m ∧ pair.2 = column) := by
  rw [sameColumns_iff]
  refine forall₂_congr fun pair _ => ?_
  simp only [plain, marked]
  by_cases hsource : source = m ∧ pair.1 = column <;>
    by_cases htarget : target = m ∧ pair.2 = column <;> simp [hsource, htarget]

theorem joinOn_marked {db : Db M Valuation} {m : M} {column lastCol : String} {step : Step M} :
    (joinOn (plain attr primaryKey) db step lastCol).on (marked m column step.source)
        (marked m column step.relation.target) ↔
      (step.source = m ∧ lastCol = column ↔
        step.relation.target = m ∧ remoteCol step = column) := by
  unfold joinOn
  rw [sameColumns_marked]
  exact List.forall_mem_singleton

theorem join_marked {db : Db M Valuation} {m : M} {column : String} {step : Step M} :
    (Step.join (plain attr primaryKey) db step).on (marked m column step.source)
        (marked m column step.relation.target) ↔
      ∀ pair ∈ step.relation.columns,
        (step.source = m ∧ pair.1 = column ↔ step.relation.target = m ∧ pair.2 = column) := by
  unfold Step.join
  rw [sameColumns_marked]

/-- The joins hold where the mark is in no column they compare. -/
theorem on_of_unmarked {db : Db M Valuation} {m current : M} {column lastCol : String}
    {steps : List (Step M)} (hsteps : Consecutive current steps) (hm : m ∉ tablesOf steps)
    (hlast : current = m → lastCol ≠ column) :
    ∀ j ∈ joinsFrom (plain attr primaryKey) db lastCol steps,
      j.on (marked m column j.source) (marked m column j.target) := by
  induction steps generalizing current lastCol with
  | nil => simp [joinsFrom]
  | cons step steps ih =>
      obtain ⟨rfl, hsteps⟩ := hsteps
      have htarget : step.relation.target ≠ m := fun heq => hm (heq ▸ List.mem_cons_self)
      refine List.forall_mem_cons.mpr ⟨joinOn_marked.mpr ?_, ih hsteps ?_ ?_⟩
      · exact ⟨fun h => absurd h.2 (hlast h.1), fun h => absurd h.1 htarget⟩
      · exact fun h => hm (List.mem_cons_of_mem _ h)
      · exact fun h => absurd h htarget

/-- A broken chain has a column that a join condition reads and the loop does not. -/
theorem exists_marked {current : M} {lastCol : String} {steps : List (Step M)}
    (hsteps : Consecutive current steps) (hnodup : (current :: tablesOf steps).Nodup)
    (hbroken : ¬ Chained lastCol steps) :
    ∃ m column, m ∈ current :: tablesOf steps ∧ (current = m → lastCol ≠ column) ∧
      (∀ j ∈ joinsFrom (plain attr primaryKey) (markedRows m column) lastCol steps,
        j.on (marked m column j.source) (marked m column j.target)) ∧
      ∃ step ∈ steps, ¬ (Step.join (plain attr primaryKey) (markedRows m column) step).on
        (marked m column step.source) (marked m column step.relation.target) := by
  induction steps generalizing current lastCol with
  | nil => exact absurd trivial hbroken
  | cons step steps ih =>
      obtain ⟨rfl, hsteps⟩ := hsteps
      obtain ⟨hcurrent, hnodup⟩ := List.nodup_cons.mp hnodup
      have hne : step.source ≠ step.relation.target := fun heq =>
        hcurrent (heq ▸ List.mem_cons_self)
      by_cases hpairs : ∀ pair ∈ step.relation.columns, pair = (lastCol, remoteCol step)
      · -- the chain breaks later
        obtain ⟨m, column, hm, hlast, hon, step', hstep', hoff⟩ :=
          ih hsteps hnodup fun h => hbroken ⟨hpairs, h⟩
        have hsource : step.source ≠ m := fun heq => hcurrent (heq ▸ hm)
        refine ⟨m, column, List.mem_cons_of_mem _ hm, fun h => absurd h hsource,
          List.forall_mem_cons.mpr ⟨joinOn_marked.mpr ?_, hon⟩, step',
          List.mem_cons_of_mem _ hstep', hoff⟩
        exact ⟨fun h => absurd h.1 hsource, fun h => absurd h.2 (hlast h.1)⟩
      · push Not at hpairs
        obtain ⟨pair, hpair, hother⟩ := hpairs
        by_cases hfirst : pair.1 = lastCol
        · -- another remote column
          have hremote : remoteCol step ≠ pair.2 := fun heq => hother (by rw [heq, ← hfirst])
          refine ⟨step.relation.target, pair.2, List.mem_cons_of_mem _ List.mem_cons_self,
            fun h => absurd h hne, List.forall_mem_cons.mpr ⟨joinOn_marked.mpr ?_, ?_⟩, step,
            List.mem_cons_self, fun h => ?_⟩
          · exact ⟨fun h => absurd h.1 hne, fun h => absurd h.2 hremote⟩
          · exact on_of_unmarked hsteps (List.nodup_cons.mp hnodup).1 fun _ => hremote
          · exact hne ((join_marked.mp h pair hpair).mpr ⟨rfl, rfl⟩).1
        · -- another local column
          refine ⟨step.source, pair.1, List.mem_cons_self, fun _ h => hfirst h.symm,
            on_of_unmarked ⟨rfl, hsteps⟩ hcurrent fun _ h => hfirst h.symm, step,
            List.mem_cons_self, fun h => ?_⟩
          exact hne ((join_marked.mp h pair hpair).mp ⟨rfl, rfl⟩).1.symm

theorem reached_marked {m n : M} {column : String} {path : List (Join M Valuation)}
    (hlinked : Linked n path)
    (hon : ∀ j ∈ path, j.on (marked m column j.source) (marked m column j.target)) :
    reached (markedRows m column) path (marked m column n) =
      [marked m column (endOf n path)] := by
  induction path generalizing n with
  | nil => rfl
  | cons j path ih =>
      obtain ⟨rfl, hlinked⟩ := hlinked
      obtain ⟨hfirst, hon⟩ := List.forall_mem_cons.mp hon
      have hrows : (markedRows m column j.target).filter (j.on (marked m column j.source)) =
          [marked m column j.target] := List.filter_cons_of_pos hfirst
      unfold reached
      rw [hrows, List.flatMap_cons, List.flatMap_nil, List.append_nil]
      exact ih hlinked hon

theorem followed_marked {m current : M} {column : String} {steps : List (Step M)}
    (hsteps : Consecutive current steps)
    (hoff : ∃ step ∈ steps, ¬ (Step.join (plain attr primaryKey) (markedRows m column) step).on
      (marked m column step.source) (marked m column step.relation.target)) :
    followed (plain attr primaryKey) (markedRows m column) steps (marked m column current) =
      none := by
  induction steps generalizing current with
  | nil => simp at hoff
  | cons step steps ih =>
      obtain ⟨rfl, hsteps⟩ := hsteps
      unfold followed
      by_cases hon : (Step.join (plain attr primaryKey) (markedRows m column) step).on
          (marked m column step.source) (marked m column step.relation.target)
      · have hfind : (markedRows m column step.relation.target).find?
            ((Step.join (plain attr primaryKey) (markedRows m column) step).on
              (marked m column step.source)) = some (marked m column step.relation.target) :=
          List.find?_cons_of_pos hon
        rw [hfind]
        refine ih hsteps ?_
        obtain ⟨step', hstep', hoff⟩ := hoff
        rcases List.mem_cons.mp hstep' with rfl | hstep'
        · exact absurd hon hoff
        · exact ⟨step', hstep', hoff⟩
      · have hfind : (markedRows m column step.relation.target).find?
            ((Step.join (plain attr primaryKey) (markedRows m column) step).on
              (marked m column step.source)) = none :=
          List.find?_cons_of_neg hon
        rw [hfind]
        rfl

/-! ## The paths that are followed -/

section Followed

variable {className : M → String} {current : M} {named : List M}

/-- A chain that breaks gives another value. -/
theorem evaluate_broken {first : Step M} {rest : List (Step M)} (field : String)
    (hsteps : Consecutive current (first :: rest))
    (hnodup : (current :: tablesOf (first :: rest)).Nodup)
    (hallowed : refusesSubquery current named (first :: rest) = false)
    (hbroken : ¬ Chained (localCol first) (first :: rest)) :
    ∃ db, Keyed (plain attr primaryKey) db (first :: rest) ∧ ∃ row ∈ db current,
      evaluate (plain attr primaryKey) db current named row
          (.scalarSubquery (first :: rest) (endModel current (first :: rest)) field) ≠
        .ok ((followed (plain attr primaryKey) db (first :: rest) row).bind
          ((plain attr primaryKey).read db (endModel current (first :: rest)) field)) := by
  obtain ⟨m, column, -, -, hon, hoff⟩ := exists_marked hsteps hnodup hbroken
  refine ⟨markedRows m column, keyed_markedRows, marked m column current,
    List.mem_singleton_self _, ?_⟩
  rw [evaluate_correlated hsteps hnodup hallowed, followed_marked hsteps hoff,
    reached_marked (linked_joinsFrom hsteps _) hon]
  simp [scalar, plain, marked]

/-- The subquery has the value of its path exactly when the path is straight. -/
theorem evaluate_iff_straight {first : Step M} {rest : List (Step M)} {field : String}
    (hsteps : Consecutive current (first :: rest))
    (hcolumns : ∀ step ∈ first :: rest, step.relation.columns ≠ []) :
    (∀ db, Keyed (plain attr primaryKey) db (first :: rest) → ∀ row ∈ db current,
      evaluate (plain attr primaryKey) db current named row
          (.scalarSubquery (first :: rest) (endModel current (first :: rest)) field) =
        .ok ((followed (plain attr primaryKey) db (first :: rest) row).bind
          ((plain attr primaryKey).read db (endModel current (first :: rest)) field))) ↔
      Straight current named (first :: rest) := by
  constructor
  · intro hvalue
    have hvalues := hvalue twoRows (keyed_twoRows hcolumns) (constant 0) List.mem_cons_self
    have hallowed : refusesSubquery current named (first :: rest) = false := by
      by_contra hrefused
      rw [Bool.not_eq_false] at hrefused
      simp [evaluate, hrefused] at hvalues
    have hcurrent : current ∉ tablesOf (first :: rest) := by
      intro hmem
      rw [evaluate_uncorrelated hsteps hmem hallowed] at hvalues
      cases hvalues
    have hnodup : (current :: tablesOf (first :: rest)).Nodup := by
      refine List.nodup_cons.mpr ⟨hcurrent, ?_⟩
      have htables := (Bool.or_eq_false_iff.mp hallowed).1
      simpa using htables
    refine ⟨hnodup, ?_, ?_⟩
    · rintro rfl hnamed
      have hne : first.relation.target ≠ current := fun heq =>
        hcurrent (heq ▸ List.mem_cons_self)
      simp [refusesSubquery, hne, hnamed] at hallowed
    · by_contra hbroken
      obtain ⟨db, hkeyed, row, hrow, hother⟩ :=
        evaluate_broken field hsteps hnodup hallowed hbroken
      exact hother (hvalue db hkeyed row hrow)
  · exact fun hstraight db hkeyed row _ =>
      evaluate_straight hsteps hcolumns hstraight hkeyed row

omit [DecidableEq M] in
theorem followNames_columns {schema : Schema M Row Val}
    (hcolumns : ∀ m name rel, schema.attr m name = some (.relation rel) → rel.columns ≠ [])
    {model last : M} {names : List String} {steps : List (Step M)}
    (h : followNames schema className model names = .ok (steps, last)) :
    ∀ step ∈ steps, step.relation.columns ≠ [] := by
  induction names generalizing model steps with
  | nil =>
      cases h
      simp
  | cons name names ih =>
      obtain ⟨rel, rest, hrel, hrest, rfl⟩ := followNames_cons h
      exact List.forall_mem_cons.mpr ⟨hcolumns _ _ _ hrel, ih hrest⟩

omit [DecidableEq M] in
/-- A path of relationships to a column is a subquery, or the attribute without one. -/
theorem BaseExpression.resolvePath_ok {schema : Schema M Row Val} {path : String}
    {steps : List (Step M)} {model : M}
    (hpath : followNames schema className current (relationNames path) = .ok (steps, model))
    (hfield : ∃ name, schema.attr model (targetField path) = some (.column name)) :
    BaseExpression.resolvePath schema className current path =
      .ok (if steps = [] then .attribute (targetField path)
        else .scalarSubquery steps model (targetField path)) := by
  obtain ⟨name, hfield⟩ := hfield
  unfold BaseExpression.resolvePath
  cases hnames : relationNames path with
  | nil =>
      rw [hnames] at hpath
      cases hpath
      simp [hfield]
  | cons relation names =>
      have hlength := (followNames_ok hpath).2.2
      have hsome : steps ≠ [] := by
        rintro rfl
        rw [hnames] at hlength
        cases hlength
      rw [hnames] at hpath
      simp [hpath, hfield, hsome]

/-- The expression of a path follows it exactly when it is straight. -/
theorem followsPath_iff_straight {path : String} {steps : List (Step M)} {model : M}
    (hcolumns : ∀ m name rel, attr m name = some (.relation rel) → rel.columns ≠ [])
    (hpath : followNames (plain attr primaryKey) className current (relationNames path) =
      .ok (steps, model))
    (hfield : ∃ name, attr model (targetField path) = some (.column name)) :
    FollowsPath (plain attr primaryKey) className current named path ↔
      Straight current named steps := by
  obtain ⟨hsteps, rfl, -⟩ := followNames_ok hpath
  have hresolved := BaseExpression.resolvePath_ok hpath hfield
  have hfollows : FollowsPath (plain attr primaryKey) className current named path ↔
      ∀ db, Keyed (plain attr primaryKey) db steps → ∀ row ∈ db current,
        (BaseExpression.resolvePath (plain attr primaryKey) className current path).bind
            (evaluate (plain attr primaryKey) db current named row) =
          .ok ((followed (plain attr primaryKey) db steps row).bind
            ((plain attr primaryKey).read db (endModel current steps) (targetField path))) := by
    constructor
    · exact fun h => h steps _ hpath
    · intro h steps' model' hpath'
      rw [hpath] at hpath'
      cases hpath'
      exact h
  rw [hfollows, hresolved]
  cases steps with
  | nil => exact ⟨fun _ => trivial, fun _ _ _ _ _ => rfl⟩
  | cons first rest =>
      exact evaluate_iff_straight hsteps (followNames_columns hcolumns hpath)

end Followed

end Plain

/-! ## The booking system's paths -/

section Booking

open TicketBooking.Database.Models TicketBooking.Database.Tables

def attributeOf (model : Model) (field : String) : Option (Attribute Model) :=
  TicketBooking.Library.Dict.get field (attributes model)

theorem attributes_columns {model : Model} {name : String} {rel : Relation Model}
    (h : attributeOf model name = some (.relation rel)) : rel.columns ≠ [] := by
  have hmem := TicketBooking.Library.Dict.mem_of_get h
  cases model <;> simp [attributes, column, relationship, hybrid] at hmem <;>
    grind

theorem event_title_followed :
    FollowsPath (plain attributeOf fun _ => ["id"]) Model.name .ticketCategory []
      "event__title" := by
  have hstraight : Straight Model.ticketCategory []
      [⟨.ticketCategory, ⟨.event, [("event_id", "id")], ["event_id"], ["id"], false⟩⟩] := by
    refine ⟨by decide, by decide, fun pair hpair => ?_, trivial⟩
    exact List.mem_singleton.mp hpair
  exact (followsPath_iff_straight (fun _ _ _ h => attributes_columns h) rfl
    ⟨some "title", rfl⟩).mpr hstraight

def twoOrders : Rows
  | .order => [.order ⟨1, none, some "a@b.c", .paid⟩, .order ⟨2, none, some "a@b.c", .pending⟩]
  | .orderItem => [.orderItem ⟨1, 2, 1, 1, none⟩]
  | .ticket => [.ticket ⟨1, 1, some 1, .reserved⟩]
  | _ => []

def ticketOrder : List (Step Model) :=
  [⟨.ticket, ⟨.orderItem, [("order_item_id", "id")], ["order_item_id"], ["id"], false⟩⟩,
    ⟨.orderItem, ⟨.order, [("order_id", "id")], ["order_id"], ["id"], false⟩⟩]

theorem keyed_ticketOrder : Keyed (mapping 0).schema twoOrders ticketOrder := by
  have hkeyed : Mutations.Keyed (mapping 0).schema twoOrders := by
    intro model
    cases model <;> decide
  intro step hstep
  simp only [ticketOrder, List.mem_cons, List.not_mem_nil, or_false] at hstep
  rcases hstep with rfl | rfl
  · exact ⟨by decide, Mutations.functional_of_toOne hkeyed (by simp [Mutations.ToOne, mapping])⟩
  · exact ⟨by decide, Mutations.functional_of_toOne hkeyed (by simp [Mutations.ToOne, mapping])⟩

/-- The ticket's order is looked up by the id of its item. -/
theorem ticket_order_differs :
    ¬ FollowsPath (mapping 0).schema Model.name .ticket [] "order_item__order__status" := by
  intro h
  have hvalue := h ticketOrder .order rfl twoOrders keyed_ticketOrder _ List.mem_cons_self
  revert hvalue
  decide

end Booking

end TicketBooking.Query.Paths
