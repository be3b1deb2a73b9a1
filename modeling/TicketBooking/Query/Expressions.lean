import TicketBooking.Query.Matching
import TicketBooking.Query.Paths
/-!
# Case expressions

`When` and `Case`: the CASE they are resolved to, and its value for a row of the class
the statement is on.
-/

namespace TicketBooking.Query.Expressions

open TicketBooking.Library TicketBooking.Library.Joins TicketBooking.Library.Outcomes
open TicketBooking.Query.Builder TicketBooking.Query.Filters TicketBooking.Query.Matching
open TicketBooking.Query.Operators TicketBooking.Query.Paths

variable {M Row Val Arg : Type}

/-! ## The clauses -/

/-- `When(then=..., **kwargs)`, which has a condition. -/
structure When (Val Arg : Type) where
  thenVal : Option Val := none
  conditionsDict : List (String × Arg)
  conditioned : conditionsDict ≠ []

def When.init (thenVal : Option Val) (kwargs : List (String × Arg)) :
    Except QueryError (When Val Arg) :=
  if h : kwargs = [] then .error (.valueError "When clause must contain at least one condition")
  else .ok ⟨thenVal, kwargs, h⟩

structure Case (Val Arg : Type) where
  whens : List (When Val Arg)
  default : Option Val := none

/-- `then_value`, for a condition on `id` the column value its argument is; `none` when
it is none. -/
def When.thenValue (literal : Arg → Option Val) (w : When Val Arg) : Option (Option Val) :=
  match w.thenVal, Dict.get "id" w.conditionsDict with
  | some v, _ => some (some v)
  | none, some arg => (literal arg).map some
  | none, none => some none

/-! ## Resolving them -/

/-- `operators_map[operator](column_expression, value)`. -/
structure Condition (M Arg : Type) where
  expression : Expression M
  operator : Operator
  value : Arg

/-- `case(*whens_list, else_=default)`. -/
structure CaseExpression (M Val Arg : Type) where
  whens : List (List (Condition M Arg) × Option Val)
  default : Option Val

section Resolve

variable (schema : Schema M Row Val) (comparison : Comparison M Row Val Arg)
  (className : M → String) (current : M)

/-- What a condition compares; the value is that of a scalar subquery. -/
def subject (value : Option Val) : Expression M → Subject M Row Val Arg
  | .attribute field => .field current field ((schema.attr current field).getD (.column none))
  | .relationship owner field => .field owner field ((schema.attr owner field).getD (.column none))
  | .scalarSubquery _ _ _ => .annotated ⟨[], none, fun _ _ _ => value⟩

/-- The condition as a clause on the row itself. -/
def Condition.clause (value : Option Val) (c : Condition M Arg) : Clause M Row Val Arg :=
  ⟨[], subject schema current value c.expression, c.operator, c.value⟩

def Condition.builds (c : Condition M Arg) : Bool :=
  (c.clause schema current none).builds comparison

/-- One round of the loop over the conditions. -/
def resolveCondition (kwarg : String × Arg) : Except PathError (Condition M Arg) :=
  let reading := preparedReading kwarg.1
  (BaseExpression.resolvePath schema className current reading.1).bind fun expression =>
    let condition : Condition M Arg := ⟨expression, reading.2, kwarg.2⟩
    if condition.builds schema comparison current then .ok condition else .error .refused

def When.resolve (literal : Arg → Option Val) (w : When Val Arg) :
    Except PathError (List (Condition M Arg) × Option (Option Val)) :=
  (w.conditionsDict.mapM (resolveCondition schema comparison className current)).map
    fun conditions => (conditions, w.thenValue literal)

/-- The database refuses a CASE without a clause. -/
def Case.resolve (literal : Arg → Option Val) (c : Case Val Arg) :
    Except PathError (CaseExpression M Val Arg) :=
  (c.whens.mapM (When.resolve schema comparison className current literal)).bind fun whens =>
    if whens ≠ [] ∧ whens.all fun w => w.2.isSome then
      .ok ⟨whens.map fun w => (w.1, w.2.join), c.default⟩
    else .error .refused

end Resolve

/-! ## Their values -/

section Evaluate

variable [DecidableEq M] [DecidableEq Val] (schema : Schema M Row Val)
  (comparison : Comparison M Row Val Arg) (current : M) (named : List M) (db : Db M Row)
  (binds : List (String × Arg)) (env : Env M Row) (row : Row)

/-- The condition is TRUE.  `any()` on a relationship of another class is about the row the
statement has of that class, or about any row when it has none. -/
def Condition.holds (c : Condition M Arg) : Except PathError Bool :=
  let test (value : Option Val) (x : Row) : Bool :=
    (c.clause schema current value).holds schema comparison db binds row x
  match c.expression with
  | .attribute _ => .ok (test none row)
  | .relationship owner _ =>
      .ok (match env owner with
        | some x => test none x
        | none => (db owner).any (test none))
  | .scalarSubquery steps model field =>
      (evaluate schema db current named row (.scalarSubquery steps model field)).map
        fun value => test value row

def allHold (conditions : List (Condition M Arg)) : Except PathError Bool :=
  (conditions.mapM (Condition.holds schema comparison current named db binds env row)).map
    fun answers => answers.all id

/-- A CASE looks at a clause when those before it do not hold. -/
def caseValue (default : Option Val) :
    List (List (Condition M Arg) × Option Val) → Except PathError (Option Val)
  | [] => .ok default
  | (conditions, result) :: whens =>
      (allHold schema comparison current named db binds env row conditions).bind fun hold =>
        if hold then .ok result else caseValue default whens

def CaseExpression.value (e : CaseExpression M Val Arg) : Except PathError (Option Val) :=
  caseValue schema comparison current named db binds env row e.default e.whens

end Evaluate

/-! ## What they say -/

section Meaning

variable [DecidableEq Val] (schema : Schema M Row Val) (comparison : Comparison M Row Val Arg)
  (className : M → String) (current : M) (db : Db M Row) (row : Row)

/-- The comparison holds of the field at the end of the path: of NULL when the path leads
to no row. -/
def conditionMet (kwarg : String × Arg) : Bool :=
  let reading := preparedReading kwarg.1
  match followNames schema className current (relationNames reading.1) with
  | .error _ => false
  | .ok (steps, model) =>
      let field := targetField reading.1
      let reached := followed schema db steps row
      match schema.attr model field with
      | some (.column _) =>
          (comparison reading.2 kwarg.2).any fun test =>
            test db row (reached.bind (schema.read db model field))
      | some (.relation rel) =>
          reached.any fun x =>
            (db rel.target).any (sameColumns schema db model rel.target rel.columns x)
      | none => false

def Case.firstOf (literal : Arg → Option Val) (c : Case Val Arg) : Option Val :=
  let met := conditionMet schema comparison className current db row
  match c.whens.find? fun w => w.conditionsDict.all met with
  | some w => (w.thenValue literal).join
  | none => c.default

end Meaning

/-- The path of a condition is straight and leads to a column, or names a relationship of
the class itself. -/
def StraightCondition (schema : Schema M Row Val) (className : M → String) (current : M)
    (named : List M) (kwarg : String × Arg) : Prop :=
  let path := (preparedReading kwarg.1).1
  ∀ steps model, followNames schema className current (relationNames path) = .ok (steps, model) →
    Straight current named steps ∧
      ∀ rel, schema.attr model (targetField path) = some (.relation rel) → steps = []

/-! ## Resolved conditions -/

section Resolved

variable {schema : Schema M Row Val} {comparison : Comparison M Row Val Arg}
  {className : M → String} {current : M}

theorem BaseExpression.resolvePath_cases {path : String} {e : Expression M}
    (h : BaseExpression.resolvePath schema className current path = .ok e) :
    ∃ steps model attr,
      followNames schema className current (relationNames path) = .ok (steps, model) ∧
        schema.attr model (targetField path) = some attr ∧
          (steps = [] ∧ model = current ∧ e = .attribute (targetField path) ∨
            steps ≠ [] ∧ match attr with
              | .column _ => e = .scalarSubquery steps model (targetField path)
              | .relation _ => e = .relationship model (targetField path)) := by
  unfold BaseExpression.resolvePath at h
  dsimp only at h
  split at h
  · rename_i hnames
    split at h
    · rename_i attr hattr
      cases h
      exact ⟨[], current, attr, by rw [hnames]; rfl, hattr, .inl ⟨rfl, rfl, rfl⟩⟩
    · cases h
  · rename_i hnames
    split at h
    · cases h
    · rename_i steps model hfollow
      have hsome : steps ≠ [] := by
        intro hnil
        have hlength := (followNames_ok hfollow).2.2
        rw [hnil] at hlength
        exact hnames (List.length_eq_zero_iff.mp hlength.symm)
      split at h
      · rename_i name hattr
        cases h
        exact ⟨steps, model, _, hfollow, hattr, .inr ⟨hsome, rfl⟩⟩
      · rename_i rel hattr
        cases h
        exact ⟨steps, model, _, hfollow, hattr, .inr ⟨hsome, rfl⟩⟩
      · cases h

theorem resolveCondition_ok {kwarg : String × Arg} {c : Condition M Arg}
    (h : resolveCondition schema comparison className current kwarg = .ok c) :
    BaseExpression.resolvePath schema className current (preparedReading kwarg.1).1 =
        .ok c.expression ∧
      c.operator = (preparedReading kwarg.1).2 ∧ c.value = kwarg.2 ∧
        c.builds schema comparison current := by
  obtain ⟨e, he, h⟩ := bind_eq_ok h
  dsimp only at h
  split at h
  · rename_i hbuilds
    cases h
    exact ⟨he, rfl, rfl, hbuilds⟩
  · cases h

/-- Its parameters are executed with its own values. -/
def Unshared (binds : List (String × Arg)) (c : Clause M Row Val Arg) : Prop :=
  ∀ bind ∈ c.binds, boundValue binds bind.1 bind.2 = bind.2

theorem bound_of_unshared {binds : List (String × Arg)} {c : Clause M Row Val Arg}
    (h : Unshared binds c) : c.bound binds = c.val := by
  unfold Clause.bound
  cases hname : c.bindName with
  | none => rfl
  | some name =>
      refine h (name, c.val) ?_
      unfold Clause.binds
      rw [hname]
      cases c.subject <;> simp

variable [DecidableEq M] [DecidableEq Val] {named : List M} {db : Db M Row}
  {binds : List (String × Arg)} {env : Env M Row} {row : Row}

omit [DecidableEq M] in
theorem holds_column {c : Clause M Row Val Arg} {owner : M} {field : String}
    {name : Option String} (hsubject : c.subject = .field owner field (.column name))
    (h : Unshared binds c) (x : Row) :
    c.holds schema comparison db binds row x =
      (comparison c.operator c.val).any fun test => test db row (schema.read db owner field x) := by
  simp only [Clause.holds, hsubject, bound_of_unshared h]
  cases comparison c.operator c.val <;> rfl

omit [DecidableEq M] in
/-- A scalar subquery has no name, and so no parameter of its own. -/
theorem holds_value {c : Clause M Row Val Arg} {value : Option Val}
    (hsubject : c.subject = .annotated ⟨[], none, fun _ _ _ => value⟩) (x : Row) :
    c.holds schema comparison db binds row x =
      (comparison c.operator c.val).any fun test => test db row value := by
  have hunshared : Unshared binds c := by
    have hbinds : c.binds = [] := by
      unfold Clause.binds Clause.bindName
      rw [hsubject]
      cases c.operator <;> rfl
    intro bind hbind
    rw [hbinds] at hbind
    cases hbind
  simp only [Clause.holds, hsubject, bound_of_unshared hunshared]
  cases comparison c.operator c.val <;> rfl

/-- A resolved condition is TRUE of the rows it is met by. -/
theorem holds_eq_met {kwarg : String × Arg} {c : Condition M Arg}
    (hc : resolveCondition schema comparison className current kwarg = .ok c)
    (hcolumns : ∀ m name rel, schema.attr m name = some (.relation rel) → rel.columns ≠ [])
    (hstraight : StraightCondition schema className current named kwarg)
    (hkeyed : ∀ steps model, followNames schema className current
      (relationNames (preparedReading kwarg.1).1) = .ok (steps, model) → Keyed schema db steps)
    (hbinds : Unshared binds (c.clause schema current none)) :
    c.holds schema comparison current named db binds env row =
      .ok (conditionMet schema comparison className current db row kwarg) := by
  obtain ⟨hpath, hoperator, hvalue, -⟩ := resolveCondition_ok hc
  obtain ⟨steps, model, attr, hfollow, hattr, hends⟩ := BaseExpression.resolvePath_cases hpath
  obtain ⟨hline, hrelation⟩ := hstraight steps model hfollow
  simp only [conditionMet, hfollow, hattr]
  rcases hends with ⟨rfl, rfl, hexpression⟩ | ⟨hsome, hends⟩
  · -- a name of the class itself
    simp only [Condition.clause, hexpression, subject, hattr, Option.getD_some] at hbinds
    simp only [Condition.holds, hexpression, Condition.clause, subject, hattr, Option.getD_some]
    cases attr with
    | column name =>
        rw [holds_column rfl hbinds]
        simp only [hoperator, hvalue]
        rfl
    | relation rel => rfl
  · cases attr with
    | relation rel => exact absurd (hrelation rel hattr) hsome
    | column name =>
        have hends : c.expression = .scalarSubquery steps model _ := hends
        cases steps with
        | nil => exact absurd rfl hsome
        | cons first rest =>
            obtain ⟨hsteps, rfl, -⟩ := followNames_ok hfollow
            have hread : evaluate schema db current named row
                (.scalarSubquery (first :: rest) (endModel current (first :: rest))
                  (targetField (preparedReading kwarg.1).1)) = .ok _ :=
              evaluate_straight hsteps (followNames_columns hcolumns hfollow) hline
                (hkeyed _ _ hfollow) row
            simp only [Condition.holds, hends, hread, Except.map, Condition.clause, subject]
            rw [holds_value rfl, hoperator, hvalue]

end Resolved

/-! ## Resolved cases -/

section Cases

variable {schema : Schema M Row Val} {comparison : Comparison M Row Val Arg}
  {className : M → String} {current : M} {literal : Arg → Option Val}

theorem resolve_branches {c : Case Val Arg} {e : CaseExpression M Val Arg}
    (h : c.resolve schema comparison className current literal = .ok e) :
    e.default = c.default ∧ List.Forall₂ (fun w branch =>
      w.conditionsDict.mapM (resolveCondition schema comparison className current) =
          .ok branch.1 ∧ branch.2 = (w.thenValue literal).join) c.whens e.whens := by
  obtain ⟨whens, hwhens, h⟩ := bind_eq_ok h
  split at h
  · cases h
    refine ⟨rfl, ?_⟩
    rw [List.forall₂_map_right_iff]
    rw [mapM_eq_ok_iff] at hwhens
    refine hwhens.imp fun w resolved hw => ?_
    obtain ⟨conditions, hconditions, rfl⟩ := map_eq_ok hw
    exact ⟨hconditions, rfl⟩
  · cases h

/-- Each clause has a value for its result, and conditions on names there are, which their
operators take. -/
def Case.Resolvable (schema : Schema M Row Val) (comparison : Comparison M Row Val Arg)
    (className : M → String) (current : M) (literal : Arg → Option Val) (c : Case Val Arg) : Prop :=
  c.whens ≠ [] ∧ ∀ w ∈ c.whens, (w.thenValue literal).isSome ∧ ∀ kwarg ∈ w.conditionsDict,
    ∃ e, BaseExpression.resolvePath schema className current (preparedReading kwarg.1).1 = .ok e ∧
      Condition.builds schema comparison current ⟨e, (preparedReading kwarg.1).2, kwarg.2⟩

theorem resolveCondition_ok_iff {kwarg : String × Arg} :
    (∃ c, resolveCondition schema comparison className current kwarg = .ok c) ↔
      ∃ e, BaseExpression.resolvePath schema className current (preparedReading kwarg.1).1 = .ok e ∧
        Condition.builds schema comparison current ⟨e, (preparedReading kwarg.1).2, kwarg.2⟩ := by
  constructor
  · rintro ⟨c, hc⟩
    obtain ⟨hpath, hoperator, hvalue, hbuilds⟩ := resolveCondition_ok hc
    refine ⟨c.expression, hpath, ?_⟩
    rw [← hoperator, ← hvalue]
    exact hbuilds
  · rintro ⟨e, hpath, hbuilds⟩
    refine ⟨⟨e, (preparedReading kwarg.1).2, kwarg.2⟩, ?_⟩
    simp only [resolveCondition, hpath]
    exact if_pos hbuilds

theorem resolve_when_iff {w : When Val Arg} :
    (∃ r, w.resolve schema comparison className current literal = .ok r ∧ r.2.isSome) ↔
      (w.thenValue literal).isSome ∧ ∀ kwarg ∈ w.conditionsDict,
        ∃ c, resolveCondition schema comparison className current kwarg = .ok c := by
  have hconditions : (∃ cs, w.conditionsDict.mapM
      (resolveCondition schema comparison className current) = .ok cs) ↔
        ∀ kwarg ∈ w.conditionsDict,
          ∃ c, resolveCondition schema comparison className current kwarg = .ok c := by
    simpa only [and_true, implies_true] using exists_mapM_ok (p := fun _ => True)
  rw [← hconditions]
  constructor
  · rintro ⟨r, hr, hsome⟩
    obtain ⟨conditions, hmap, rfl⟩ := map_eq_ok hr
    exact ⟨hsome, conditions, hmap⟩
  · rintro ⟨hsome, conditions, hmap⟩
    exact ⟨(conditions, w.thenValue literal), by rw [When.resolve, hmap]; rfl, hsome⟩

theorem resolves_iff {c : Case Val Arg} :
    (∃ e, c.resolve schema comparison className current literal = .ok e) ↔
      c.Resolvable schema comparison className current literal := by
  have hparts : (∃ e, c.resolve schema comparison className current literal = .ok e) ↔
      c.whens ≠ [] ∧ ∃ resolved,
        c.whens.mapM (When.resolve schema comparison className current literal) = .ok resolved ∧
          ∀ w ∈ resolved, w.2.isSome := by
    constructor
    · rintro ⟨e, he⟩
      obtain ⟨whens, hwhens, h⟩ := bind_eq_ok he
      split at h
      · rename_i hbranches
        refine ⟨?_, whens, hwhens, List.all_eq_true.mp hbranches.2⟩
        intro hnil
        rw [hnil] at hwhens
        cases hwhens
        exact hbranches.1 rfl
      · cases h
    · rintro ⟨hne, whens, hwhens, hall⟩
      refine ⟨⟨whens.map fun w => (w.1, w.2.join), c.default⟩, ?_⟩
      have hsome : whens ≠ [] := by
        rintro rfl
        rw [mapM_eq_ok_iff, List.forall₂_nil_right_iff] at hwhens
        exact hne hwhens
      unfold Case.resolve
      rw [hwhens]
      exact if_pos ⟨hsome, List.all_eq_true.mpr hall⟩
  rw [hparts, exists_mapM_ok]
  refine and_congr_right fun _ => forall₂_congr fun w _ => ?_
  rw [resolve_when_iff]
  exact and_congr_right fun _ => forall₂_congr fun kwarg _ => resolveCondition_ok_iff

variable [DecidableEq M] [DecidableEq Val] {named : List M} {db : Db M Row}
  {binds : List (String × Arg)} {env : Env M Row} {row : Row}

/-- The statement reads the field of a condition on the row its path leads to. -/
structure ReadsPath (schema : Schema M Row Val) (className : M → String) (current : M)
    (named : List M) (db : Db M Row) (kwarg : String × Arg) : Prop where
  straight : StraightCondition schema className current named kwarg
  keyed : ∀ steps model, followNames schema className current
    (relationNames (preparedReading kwarg.1).1) = .ok (steps, model) → Keyed schema db steps

theorem allHold_eq {kwargs : List (String × Arg)} {conditions : List (Condition M Arg)}
    (hresolved : kwargs.mapM (resolveCondition schema comparison className current) =
      .ok conditions)
    (hcolumns : ∀ m name rel, schema.attr m name = some (.relation rel) → rel.columns ≠ [])
    (hreads : ∀ kwarg ∈ kwargs, ReadsPath schema className current named db kwarg)
    (hbinds : ∀ c ∈ conditions, Unshared binds (c.clause schema current none)) :
    allHold schema comparison current named db binds env row conditions =
      .ok (kwargs.all (conditionMet schema comparison className current db row)) := by
  have hanswers : conditions.mapM
      (Condition.holds schema comparison current named db binds env row) =
        .ok (kwargs.map (conditionMet schema comparison className current db row)) := by
    rw [mapM_eq_ok_iff]
    rw [mapM_eq_ok_iff] at hresolved
    induction hresolved with
    | nil => exact .nil
    | cons hc _ ih =>
        obtain ⟨hfirst, hreads⟩ := List.forall_mem_cons.mp hreads
        obtain ⟨hown, hbinds⟩ := List.forall_mem_cons.mp hbinds
        exact .cons (holds_eq_met hc hcolumns hfirst.straight hfirst.keyed hown)
          (ih hreads hbinds)
  have hall : ∀ met : String × Arg → Bool, (kwargs.map met).all id = kwargs.all met := by
    intro met
    rw [List.all_map]
    rfl
  rw [← hall]
  exact congrArg (Except.map fun answers : List Bool => answers.all id) hanswers

/-- The CASE has the result of the first clause whose conditions all hold. -/
theorem value_eq_firstOf {c : Case Val Arg} {e : CaseExpression M Val Arg}
    (hresolve : c.resolve schema comparison className current literal = .ok e)
    (hcolumns : ∀ m name rel, schema.attr m name = some (.relation rel) → rel.columns ≠ [])
    (hreads : ∀ w ∈ c.whens, ∀ kwarg ∈ w.conditionsDict,
      ReadsPath schema className current named db kwarg)
    (hbinds : ∀ branch ∈ e.whens, ∀ condition ∈ branch.1,
      Unshared binds (condition.clause schema current none)) :
    e.value schema comparison current named db binds env row =
      .ok (c.firstOf schema comparison className current db row literal) := by
  obtain ⟨hdefault, hbranches⟩ := resolve_branches hresolve
  unfold CaseExpression.value Case.firstOf
  rw [hdefault]
  clear hresolve hdefault
  generalize c.whens = whens at hbranches hreads
  generalize e.whens = branches at hbranches hbinds
  -- the clauses and the branches run out together
  induction hbranches with
  | nil => rfl
  | @cons w branch ws branches hw _ ih =>
      obtain ⟨hfirst, hreads⟩ := List.forall_mem_cons.mp hreads
      obtain ⟨hown, hbinds⟩ := List.forall_mem_cons.mp hbinds
      have hhold : allHold schema comparison current named db binds env row branch.1 = .ok _ :=
        allHold_eq hw.1 hcolumns hfirst hown
      simp only [caseValue, hhold, Except.bind, List.find?_cons]
      cases w.conditionsDict.all (conditionMet schema comparison className current db row) with
      | true =>
          show _ = Except.ok (w.thenValue literal).join
          rw [if_pos rfl, hw.2]
      | false =>
          rw [if_neg (by decide)]
          exact ih hreads hbinds

/-- A case is resolved exactly when it can be; and where the statement reads the paths of its
conditions straight and gives their parameters no other value, its value on a row is the
result of the first clause whose conditions hold of what their paths lead to. -/
theorem case_first_match (c : Case Val Arg)
    (hcolumns : ∀ m name rel, schema.attr m name = some (.relation rel) → rel.columns ≠ []) :
    ((∃ e, c.resolve schema comparison className current literal = .ok e) ↔
        c.Resolvable schema comparison className current literal) ∧
      ∀ e, c.resolve schema comparison className current literal = .ok e →
        (∀ w ∈ c.whens, ∀ kwarg ∈ w.conditionsDict,
          ReadsPath schema className current named db kwarg) →
        (∀ branch ∈ e.whens, ∀ condition ∈ branch.1,
          Unshared binds (condition.clause schema current none)) →
        e.value schema comparison current named db binds env row =
          .ok (c.firstOf schema comparison className current db row literal) :=
  ⟨resolves_iff, fun _ he hreads hbinds => value_eq_firstOf he hcolumns hreads hbinds⟩

end Cases

/-! ## The booking system's cases -/

section Booking

open TicketBooking.Database.Models TicketBooking.Database.Tables
open TicketBooking.Query.Comparisons

def scalarOf : Argument → Option Value
  | .one v => some v
  | .many _ => none

def jazzCase : Case Value Argument where
  whens := [⟨some (.bool true),
    [("event__title", .one (.text "Jazz")), ("total_quantity__gte", .one (.int 2))], by simp⟩]
  default := some (.bool false)

def jazzEvent : Event := ⟨1, "Jazz", "", 1, 1, .approved, .online, none, 5⟩
def jazzCategory : TicketCategory := ⟨1, 1, "parterre", 10, 3⟩
def jazzDb : Rows := records { events := [jazzEvent], ticketCategories := [jazzCategory] }

def eventStep : Step Model :=
  ⟨.ticketCategory, ⟨.event, [("event_id", "id")], ["event_id"], ["id"], false⟩⟩

theorem reads_jazz : ∀ w ∈ jazzCase.whens, ∀ kwarg ∈ w.conditionsDict,
    ReadsPath (mapping 0).schema Model.name .ticketCategory [] jazzDb kwarg := by
  have htitle : followNames (mapping 0).schema Model.name .ticketCategory
      (relationNames (preparedReading "event__title").1) = .ok ([eventStep], .event) := by
    rfl
  have htotal : followNames (mapping 0).schema Model.name .ticketCategory
      (relationNames (preparedReading "total_quantity__gte").1) = .ok ([], .ticketCategory) := by
    rfl
  have hfunctional : Functional jazzDb (Step.join (mapping 0).schema jazzDb eventStep) :=
    Mutations.functional_of_toOne (by intro model; cases model <;> decide)
      (by simp [Mutations.ToOne, mapping, eventStep])
  intro w hw kwarg hkwarg
  cases List.mem_singleton.mp hw
  simp only [List.mem_cons, List.not_mem_nil, or_false] at hkwarg
  rcases hkwarg with rfl | rfl
  · refine ⟨fun steps model h => ?_, fun steps model h => ?_⟩
    · cases htitle.symm.trans h
      refine ⟨⟨by decide, by decide, fun pair hpair => ?_, trivial⟩, fun rel hrel => ?_⟩
      · exact List.mem_singleton.mp hpair
      · cases hrel
    · cases htitle.symm.trans h
      intro step hstep
      cases List.mem_singleton.mp hstep
      exact ⟨List.nodup_singleton _, hfunctional⟩
  · refine ⟨fun steps model h => ?_, fun steps model h => ?_⟩
    · cases htotal.symm.trans h
      exact ⟨trivial, fun _ _ => rfl⟩
    · cases htotal.symm.trans h
      intro step hstep
      cases hstep

theorem case_first_match_jazz :
    ∃ e, jazzCase.resolve (mapping 0).schema (mapping 0).comparison Model.name .ticketCategory
        scalarOf = .ok e ∧
      e.value (mapping 0).schema (mapping 0).comparison .ticketCategory [] jazzDb []
        (single .ticketCategory (.ticketCategory jazzCategory)) (.ticketCategory jazzCategory) =
          .ok (some (.bool true)) := by
  have hresolve : jazzCase.resolve (mapping 0).schema (mapping 0).comparison Model.name
      .ticketCategory scalarOf =
        .ok ⟨[([⟨.scalarSubquery [eventStep] .event "title", .eq, .one (.text "Jazz")⟩,
          ⟨.attribute "total_quantity", .gte, .one (.int 2)⟩], some (.bool true))],
            some (.bool false)⟩ := rfl
  refine ⟨_, hresolve, ?_⟩
  refine ((case_first_match jazzCase fun _ _ _ h => attributes_columns h).2 _ hresolve reads_jazz
    ?_).trans rfl
  intro branch hbranch condition hcondition bind hbind
  cases List.mem_singleton.mp hbranch
  simp only [List.mem_cons, List.not_mem_nil, or_false] at hcondition
  rcases hcondition with rfl | rfl <;> cases hbind

end Booking

end TicketBooking.Query.Expressions
