import Mathlib.Data.Finset.Card
import TicketBooking.Database.Lookups
import TicketBooking.Library.Outcomes
import TicketBooking.Library.Sessions
import TicketBooking.Query.Inserts
/-!
# Getting or creating a row

`GenericRepository.get_or_create`, statement by statement, for calls in sessions
of their own.  It waits for a `ValueError` that `GenericRepository.get` has
already made `None`.
-/

namespace TicketBooking.Database.GetOrCreate

open TicketBooking.App.Exceptions (AppException)
open TicketBooking.Database.Lookups (raised)
open TicketBooking.Library TicketBooking.Library.Outcomes TicketBooking.Library.Sessions
open TicketBooking.Library.Joins
open TicketBooking.Query.Builder TicketBooking.Query.Filters TicketBooking.Query.Matching
open TicketBooking.Query.Operators
open TicketBooking.Query.Respect (mem_unique)
open TicketBooking.Query.Sorting (fetch_of_plain)
open TicketBooking.Query.Comparisons (Value compare)
open TicketBooking.Query.Inserts (OnConflict Refusal Returned Returning Row Stored Table create_one
  not_continued_empty refusal_of_create)

variable {M Val Arg : Type}

/-! ## The repository -/

/-- The class as the queries read it, and as rows are inserted into its table;
`column` is the value a keyword has as a column. -/
structure GenericRepository (M Val Arg : Type) where
  mapping : Mapping M (Row (Option Val)) Val Arg
  model : M
  table : Query.Inserts.Model (Option Val)
  column : Arg → Val

/-- The committed rows, and the insertions the sequences have counted. -/
structure Store (M Val : Type) where
  rows : Query.Filters.Db M (Row (Option Val))
  attempts : Nat

/-- The parameters beside `**kwargs` of the functions the keywords go through. -/
def parameters : List String := ["self", "query"]

namespace GenericRepository

variable [DecidableEq M] [DecidableEq Val] (repo : GenericRepository M Val Arg)
  (rows : Query.Filters.Db M (Row (Option Val))) (kwargs : FilterDict Arg)

def query : QueryBuilder M (Row (Option Val)) Val Arg := { model := repo.model, filters := kwargs }

def queryGet : Except AppException (Row (Option Val)) :=
  if kwargs.any fun keyword => keyword.1 ∈ parameters then .error (.other "TypeError")
  else (ReadQueryExecutor.get repo.mapping (repo.query kwargs) rows).mapError raised

def get : Except AppException (Option (Row (Option Val))) :=
  match repo.queryGet rows kwargs with
  | .ok row => .ok (some row)
  | .error (.valueError _) => .ok none
  | .error e => .error e

/-- The rows that match the keywords: those a SELECT with them as filters finds. -/
def matching : List (Row (Option Val)) :=
  if kwargs.any fun keyword => keyword.1 ∈ parameters then []
  else
    match ReadQueryExecutor.all repo.mapping (repo.query kwargs) rows with
    | .ok found => found
    | .error _ => []

def dto (found : Option (Row (Option Val))) : Returned (Option Val) :=
  match found with
  | some row => .one (repo.table.toDto row)
  | none => .none

/-! ## The INSERT -/

def item : Row (Option Val) := kwargs.map fun keyword => (keyword.1, keyword.2.map repo.column)

/-- The entries of the unique indexes that the keywords fill. -/
def entries : List (Row (Option Val)) :=
  (repo.table.unique.filter fun index => index.all fun name =>
    kwargs.any fun keyword => keyword.1 = name && keyword.2.isSome).map fun index =>
      index.map fun name => (name, (Dict.get name (repo.item kwargs)).join)

def create (s : Store M Val) :
    Except AppException (Table (Option Val) × Returned (Option Val)) :=
  Query.Inserts.MutationQueryExecutor.create repo.table .raise .entities {}
    ⟨s.rows repo.model, s.attempts⟩ none (repo.item kwargs)

end GenericRepository

def created {V : Type} : Returned V → Except AppException (Returned V)
  | .none => .error (.valueError "Failed to create.")
  | .list [] => .error (.other "IndexError")
  | .list (.dto dto :: _) => .ok (.one dto)
  | .list (.count n :: _) => .ok (.int n)
  | answer => .ok answer

/-- `except ValueError`. -/
def isValueError : AppException → Bool
  | .valueError _ => true
  | _ => false

/-- `except (IntegrityError, ValueError)`. -/
def caught (e : AppException) : Bool := isValueError e || e = .other "IntegrityError"

/-! ## The call -/

inductive Pc (Val : Type)
  | start
  /-- In the savepoint; the INSERT waits for the entries in `todo`. -/
  | nested (todo : List (Row (Option Val)))
  /-- The rows are inserted and not committed. -/
  | inserted (rows : List (Row (Option Val))) (answer : Returned (Option Val))
  /-- In the handler, after the savepoint was rolled back. -/
  | handling
  | ended (result : Except AppException (Returned (Option Val) × Bool))

section Step

variable [DecidableEq M] [DecidableEq Val] (repo : GenericRepository M Val Arg)
  (kwargs : FilterDict Arg)

/-- The exception of the savepoint's block. -/
def leave (e : AppException) : Pc Val := if caught e then .handling else .ended (.error e)

def callStep (s : Store M Val) : Pc Val →
    Option (Effect (Store M Val) (Row (Option Val)) × Pc Val)
  | .start =>
      match repo.get s.rows kwargs with
      | .ok found => some (.stay, .ended (.ok (repo.dto found, false)))
      | .error e =>
          if isValueError e then some (.stay, .nested (repo.entries kwargs))
          else some (.rollback, .ended (.error e))
  | .nested (entry :: todo) => some (.lock entry, .nested todo)
  | .nested [] =>
      match repo.create kwargs s with
      | .error e => some (.rollback, leave e)
      | .ok (table, answer) =>
          match created answer with
          | .error e => some (.rollback, leave e)
          | .ok answer =>
              some (.emit fun t => { t with attempts := t.attempts + 1 },
                .inserted (table.rows.drop (s.rows repo.model).length) answer)
  | .inserted rows answer =>
      some (.commit fun t =>
        { t with rows := Function.update t.rows repo.model (t.rows repo.model ++ rows) },
          .ended (.ok (answer, true)))
  | .handling =>
      match repo.get s.rows kwargs with
      | .ok found => some (.stay, .ended (.ok (repo.dto found, false)))
      | .error e => some (.rollback, .ended (.error e))
  | .ended _ => none

end Step

/-- Calls of `get_or_create`, each with its keywords. -/
def getOrCreateStep {ι : Type} [DecidableEq M] [DecidableEq Val]
    (repo : GenericRepository M Val Arg) (kwargs : ι → FilterDict Arg) :
    Protocol ι (Store M Val) (Row (Option Val)) (Pc Val) Unit :=
  fun i s pc _ => callStep repo (kwargs i) s pc

/-! ## What `get` answers -/

section Get

variable [DecidableEq M] [DecidableEq Val] {repo : GenericRepository M Val Arg}
  {rows : Query.Filters.Db M (Row (Option Val))} {kwargs : FilterDict Arg}

/-- The ways a lookup ends. -/
inductive Looked (repo : GenericRepository M Val Arg)
    (rows : Query.Filters.Db M (Row (Option Val))) (kwargs : FilterDict Arg) :
    Except AppException (Option (Row (Option Val))) → Prop
  | found {row : Row (Option Val)} (h : repo.matching rows kwargs = [row]) :
      Looked repo rows kwargs (.ok (some row))
  | notOne (h : ∀ row, repo.matching rows kwargs ≠ [row]) : Looked repo rows kwargs (.ok none)
  | raised {e : AppException} (hvalue : isValueError e = false)
      (h : repo.matching rows kwargs = []) : Looked repo rows kwargs (.error e)

theorem looked_get : Looked repo rows kwargs (repo.get rows kwargs) := by
  unfold GenericRepository.get GenericRepository.queryGet
  by_cases hpasses : kwargs.any fun keyword => keyword.1 ∈ parameters
  · rw [if_pos hpasses]
    exact .raised rfl (if_pos hpasses)
  rw [if_neg hpasses]
  have hmatching : repo.matching rows kwargs =
      match ReadQueryExecutor.all repo.mapping (repo.query kwargs) rows with
      | .ok found => found
      | .error _ => [] := if_neg hpasses
  unfold ReadQueryExecutor.all at hmatching
  unfold ReadQueryExecutor.get
  cases hfetch : fetch repo.mapping (repo.query kwargs) rows with
  | error e =>
      rw [hfetch] at hmatching
      have hempty : repo.matching rows kwargs = [] := hmatching
      cases e with
      | valueError message => exact .notOne (by simp [hempty])
      | attributeError => exact .raised rfl hempty
      | typeError => exact .raised rfl hempty
      | refused => exact .raised rfl hempty
  | ok found =>
      rw [hfetch] at hmatching
      have hunique : repo.matching rows kwargs = unique found := hmatching
      dsimp only
      rcases hrows : unique found with _ | ⟨row, _ | ⟨row', rest⟩⟩
      · exact .notOne (by simp [hunique, hrows])
      · exact .found (hunique.trans hrows)
      · exact .notOne (by simp [hunique, hrows])

/-- What `get_or_create` answers. -/
def GenericRepository.answer (repo : GenericRepository M Val Arg)
    (rows : Query.Filters.Db M (Row (Option Val))) (kwargs : FilterDict Arg) :
    Except AppException (Returned (Option Val) × Bool) :=
  (repo.get rows kwargs).map fun found => (repo.dto found, false)

theorem answer_of_matching {row : Row (Option Val)} (h : repo.matching rows kwargs = [row]) :
    repo.answer rows kwargs = .ok (.one (repo.table.toDto row), false) := by
  have hlooked : Looked repo rows kwargs (repo.get rows kwargs) := looked_get
  unfold GenericRepository.answer
  generalize repo.get rows kwargs = found at hlooked ⊢
  cases hlooked with
  | found h' =>
      cases h.symm.trans h'
      rfl
  | notOne h' => exact absurd h (h' row)
  | raised _ h' => cases h.symm.trans h'

theorem matching_of_answer {dto : Row (Option Val)} {flag : Bool}
    (h : repo.answer rows kwargs = .ok (.one dto, flag)) :
    ∃ row, repo.matching rows kwargs = [row] := by
  have hlooked : Looked repo rows kwargs (repo.get rows kwargs) := looked_get
  unfold GenericRepository.answer at h
  generalize repo.get rows kwargs = found at hlooked h
  cases hlooked with
  | found h' => exact ⟨_, h'⟩
  | notOne => cases h
  | raised => cases h

theorem callStep_start (repo : GenericRepository M Val Arg) (kwargs : FilterDict Arg)
    (s : Store M Val) : ∃ eff, callStep repo kwargs s .start =
      some (eff, .ended (repo.answer s.rows kwargs)) ∧ (eff = .stay ∨ eff = .rollback) := by
  have hlooked : Looked repo s.rows kwargs (repo.get s.rows kwargs) := looked_get
  simp only [callStep, GenericRepository.answer]
  generalize repo.get s.rows kwargs = found at hlooked ⊢
  cases hlooked with
  | found => exact ⟨.stay, rfl, .inl rfl⟩
  | notOne => exact ⟨.stay, rfl, .inl rfl⟩
  | raised hvalue =>
      refine ⟨.rollback, ?_, .inr rfl⟩
      simp only [hvalue, Bool.false_eq_true, if_false]
      rfl

end Get

/-! ## The savepoint -/

section Savepoint

variable [DecidableEq M] [DecidableEq Val] {repo : GenericRepository M Val Arg}
  {kwargs : FilterDict Arg}

/-- What the INSERT raises is not what the handler waits for. -/
theorem caught_of_refusal {e : AppException} (h : Refusal e) : caught e = false := by
  cases h with
  | compile => decide
  | database kind => cases kind <;> decide

/-- With the unique entries free, the block inserts one row and has its DTO, or
its exception ends the call. -/
theorem callStep_insert (repo : GenericRepository M Val Arg) (kwargs : FilterDict Arg)
    (s : Store M Val) :
    (∃ r, Stored repo.table (repo.item kwargs) r ∧ callStep repo kwargs s (.nested []) =
        some (.emit fun t => { t with attempts := t.attempts + 1 },
          .inserted [r] (.one (repo.table.toDto r)))) ∨
      ∃ e, Refusal e ∧
        callStep repo kwargs s (.nested []) = some (.rollback, .ended (.error e)) := by
  simp only [callStep]
  cases hcreate : repo.create kwargs s with
  | error e =>
      have hrefusal : Refusal e := refusal_of_create not_continued_empty hcreate
      refine .inr ⟨e, hrefusal, ?_⟩
      simp only [leave, caught_of_refusal hrefusal, Bool.false_eq_true, if_false]
  | ok created =>
      obtain ⟨table, answer⟩ := created
      obtain ⟨r, hrows, hstored, rfl⟩ := create_one not_continued_empty hcreate
      refine .inl ⟨r, hstored, ?_⟩
      have hnew : table.rows.drop (s.rows repo.model).length = [r] := by
        rw [hrows, List.drop_left]
      simp only [GetOrCreate.created, hnew]

end Savepoint

/-! ## Keywords that name columns -/

section Columns

variable {repo : GenericRepository M Val Arg} {rows : Query.Filters.Db M (Row (Option Val))}
  {kwargs : FilterDict Arg}

structure IsColumn (repo : GenericRepository M Val Arg) (key : String) : Prop where
  parts : components key = [key]
  attr : ∃ name, repo.mapping.schema.attr repo.model key = some (.column name)

def HasValue (repo : GenericRepository M Val Arg)
    (rows : Query.Filters.Db M (Row (Option Val))) (keyword : String × Arg)
    (row : Row (Option Val)) : Prop :=
  ∃ test, repo.mapping.comparison .eq keyword.2 = some test ∧
    test rows row (repo.mapping.schema.read rows repo.model keyword.1 row)

theorem resolvedReading_of_parts {key : String} (h : components key = [key]) :
    resolvedReading key = (key, .eq) := by
  unfold resolvedReading
  cases hsplit : splitOnce key with
  | none => rfl
  | some parts =>
      rw [components_eq, hsplit] at h
      exact absurd (List.cons.inj h).2 (components_ne_nil parts.2)

theorem prepare_of_isColumn {keyword : String × Arg} (h : IsColumn repo keyword.1) :
    ∃ name, prepare repo.mapping.schema repo.model [] keyword =
      some ⟨[], .field repo.model keyword.1 (.column name), .eq, keyword.2⟩ := by
  obtain ⟨name, hattr⟩ := h.attr
  refine ⟨name, ?_⟩
  simp only [prepare, Dict.get, FilterResolver.resolve, resolvedReading_of_parts h.parts,
    h.parts, List.dropLast, List.getLast_singleton, followRelations, hattr]
  rfl

/-- The clause of such a key, and that it says the column has the value. -/
theorem mem_selectClauses (hcolumns : ∀ keyword ∈ given kwargs, IsColumn repo keyword.1)
    {c : Clause M (Row (Option Val)) Val Arg} :
    c ∈ selectClauses repo.mapping (repo.query kwargs) ↔ ∃ keyword ∈ given kwargs, ∃ name,
      prepare repo.mapping.schema repo.model [] keyword = some c ∧
        c = ⟨[], .field repo.model keyword.1 (.column name), .eq, keyword.2⟩ := by
  rw [selectClauses, mem_prepareFilters]
  refine exists_congr fun keyword => and_congr_right fun hkeyword => ?_
  obtain ⟨name, hprepare⟩ := prepare_of_isColumn (hcolumns keyword hkeyword)
  constructor
  · intro h
    exact ⟨name, h, Option.some.inj (h.symm.trans hprepare)⟩
  · rintro ⟨_, h, -⟩
    exact h

variable [DecidableEq M] [DecidableEq Val]

theorem fetch_query (hfree : ∀ keyword ∈ kwargs, keyword.1 ∉ reserved)
    (hcolumns : ∀ keyword ∈ given kwargs, IsColumn repo keyword.1)
    (hcompared : ∀ keyword ∈ given kwargs, (repo.mapping.comparison .eq keyword.2).isSome) :
    fetch repo.mapping (repo.query kwargs) rows =
      .ok ((rows repo.model).filter fun row => clausesHold repo.mapping (repo.query kwargs) rows
        (selectClauses repo.mapping (repo.query kwargs))
        (selectBinds repo.mapping (repo.query kwargs)) row (single repo.model row)) := by
  have hbuilds : (selectClauses repo.mapping (repo.query kwargs)).all
      (Clause.builds repo.mapping.comparison) := by
    rw [List.all_eq_true]
    intro c hc
    obtain ⟨keyword, hkeyword, name, -, rfl⟩ := (mem_selectClauses hcolumns).mp hc
    exact hcompared keyword hkeyword
  have hreserved : ¬ (repo.query kwargs).filters.any fun filter => filter.1 ∈ reserved := by
    rw [List.any_eq_true]
    rintro ⟨keyword, hkeyword, hmem⟩
    exact hfree keyword hkeyword (of_decide_eq_true hmem)
  have hprepare : prepareQuery repo.mapping (repo.query kwargs) =
      .ok (selectClauses repo.mapping (repo.query kwargs)) := by
    rw [prepareQuery, if_neg (fun h => h rfl), if_neg hreserved, if_pos hbuilds]
  refine fetch_of_plain hprepare fun c hc => ?_
  obtain ⟨keyword, -, name, -, rfl⟩ := (mem_selectClauses hcolumns).mp hc
  rfl

omit [DecidableEq M] in
theorem holds_iff_hasValue {binds : List (String × Arg)} {keyword : String × Arg}
    {row : Row (Option Val)} (name : Option String) :
    Clause.holds repo.mapping.schema repo.mapping.comparison rows binds
        ⟨[], .field repo.model keyword.1 (.column name), .eq, keyword.2⟩ row row ↔
      HasValue repo rows keyword row := by
  have hbound : Clause.bound binds (⟨[], .field repo.model keyword.1 (.column name), .eq,
      keyword.2⟩ : Clause M (Row (Option Val)) Val Arg) = keyword.2 := rfl
  simp only [Clause.holds, hbound, HasValue]
  cases repo.mapping.comparison .eq keyword.2 with
  | none => simp
  | some test => simp

theorem mem_matching (hfree : ∀ keyword ∈ kwargs, keyword.1 ∉ parameters ∧ keyword.1 ∉ reserved)
    (hcolumns : ∀ keyword ∈ given kwargs, IsColumn repo keyword.1)
    (hcompared : ∀ keyword ∈ given kwargs, (repo.mapping.comparison .eq keyword.2).isSome)
    {row : Row (Option Val)} :
    row ∈ repo.matching rows kwargs ↔
      row ∈ rows repo.model ∧ ∀ keyword ∈ given kwargs, HasValue repo rows keyword row := by
  have hpasses : ¬ kwargs.any fun keyword => keyword.1 ∈ parameters := by
    rw [List.any_eq_true]
    rintro ⟨keyword, hkeyword, hmem⟩
    exact (hfree keyword hkeyword).1 (of_decide_eq_true hmem)
  rw [GenericRepository.matching, if_neg hpasses, ReadQueryExecutor.all,
    fetch_query (fun keyword hkeyword => (hfree keyword hkeyword).2) hcolumns hcompared]
  dsimp only [Except.map]
  rw [mem_unique, List.mem_filter, clausesHold, List.all_eq_true]
  refine and_congr_right fun _ => ?_
  have hself : ∀ c ∈ selectClauses repo.mapping (repo.query kwargs),
      single repo.model row (c.owner (repo.query kwargs).model) = some row := by
    intro c hc
    obtain ⟨keyword, -, name, -, rfl⟩ := (mem_selectClauses hcolumns).mp hc
    exact single_self _ _
  constructor
  · intro hall keyword hkeyword
    obtain ⟨name, hprepare⟩ := prepare_of_isColumn (hcolumns keyword hkeyword)
    have hmem := (mem_selectClauses hcolumns).mpr ⟨keyword, hkeyword, name, hprepare, rfl⟩
    have hholds := hall _ hmem
    simp only [hself _ hmem] at hholds
    exact (holds_iff_hasValue name).mp hholds
  · intro hall c hc
    simp only [hself c hc]
    obtain ⟨keyword, hkeyword, name, -, rfl⟩ := (mem_selectClauses hcolumns).mp hc
    exact (holds_iff_hasValue name).mpr (hall keyword hkeyword)

end Columns

/-! ## Every run of calls -/

section Run

variable {ι : Type} [DecidableEq ι] [DecidableEq M] [DecidableEq Val]
  (repo : GenericRepository M Val Arg) (kwargs : ι → FilterDict Arg)

def atCalls (s : Store M Val) : World ι (Store M Val) (Row (Option Val)) (Pc Val) :=
  World.start s fun _ => .start

/-- The call is yet to start, or has ended with what `get` finds in `s`. -/
def Settled (s : Store M Val) (i : ι) (pc : Pc Val) : Prop :=
  pc = .start ∨ pc = .ended (repo.answer s.rows (kwargs i))

/-- Nothing is ever inserted. -/
theorem settled {s : Store M Val} {w : World ι (Store M Val) (Row (Option Val)) (Pc Val)}
    (h : Run (getOrCreateStep repo kwargs) anyStep (atCalls s) w) :
    w.shared = s ∧ ∀ i, Settled repo kwargs s i (w.pc i) := by
  apply h.invariant (I := fun w => w.shared = s ∧ ∀ i, Settled repo kwargs s i (w.pc i))
  · rintro v v' i a ⟨hshared, hpcs⟩ - hstep
    obtain ⟨eff, pc, hP, -, rfl⟩ := World.step_eq_some.mp hstep
    have hstart : v.pc i = .start := by
      refine (hpcs i).resolve_right fun hended => ?_
      simp [getOrCreateStep, hended, callStep] at hP
    obtain ⟨eff', hcall, heff⟩ := callStep_start repo (kwargs i) v.shared
    rw [getOrCreateStep, hstart, hcall] at hP
    cases hP
    refine ⟨?_, World.after_pc_forall (.inr (by rw [hshared])) fun j _ => hpcs j⟩
    rw [World.after_shared]
    rcases heff with rfl | rfl
    · exact hshared
    · exact hshared
  · exact ⟨rfl, fun _ => .inl rfl⟩

theorem step_start {w : World ι (Store M Val) (Row (Option Val)) (Pc Val)} {i : ι}
    (h : w.pc i = .start) : ∃ w', w.step (getOrCreateStep repo kwargs) i () = some w' ∧
      w'.pc i = .ended (repo.answer w.shared.rows (kwargs i)) ∧ ∀ j, j ≠ i → w'.pc j = w.pc j := by
  obtain ⟨eff, hcall, heff⟩ := callStep_start repo (kwargs i) w.shared
  have hgrant : eff.Granted i w.holder := by
    rcases heff with rfl | rfl
    · trivial
    · trivial
  have hP : getOrCreateStep repo kwargs i w.shared (w.pc i) () =
      some (eff, .ended (repo.answer w.shared.rows (kwargs i))) := by rw [h, ← hcall]; rfl
  exact ⟨_, World.step_eq_some.mpr ⟨_, _, hP, hgrant, rfl⟩, World.after_pc_self _ _ _ _,
    fun j hj => World.after_pc_other w hj _ _⟩

/-- The calls that have ended were served as `get_or_create` is meant to: each has
the DTO of the one row that matches now, which was inserted by exactly one of them
unless it was there before. -/
structure Correct (s : Store M Val) (w : World ι (Store M Val) (Row (Option Val)) (Pc Val)) :
    Prop where
  answered : ∀ i result, w.pc i = .ended result → ∃ row flag,
    result = .ok (.one (repo.table.toDto row), flag) ∧
      repo.matching w.shared.rows (kwargs i) = [row] ∧
        (flag = true → row ∉ s.rows repo.model)
  found : ∀ i row result, repo.matching s.rows (kwargs i) = [row] → w.pc i = .ended result →
    result = .ok (.one (repo.table.toDto row), false)
  credited : ∀ row ∈ w.shared.rows repo.model, row ∉ s.rows repo.model →
    ∃ i, w.pc i = .ended (.ok (.one (repo.table.toDto row), true))
  once : ∀ callers : Finset ι, (∀ i ∈ callers, ∃ dto, w.pc i = .ended (.ok (dto, true))) →
    (s.rows repo.model).length + callers.card ≤ (w.shared.rows repo.model).length
  ends : ∀ i, (∃ result, w.pc i = .ended result) ∨
    ∃ w', w.step (getOrCreateStep repo kwargs) i () = some w'

variable {repo kwargs}

theorem result_of_matching {s : Store M Val}
    {w : World ι (Store M Val) (Row (Option Val)) (Pc Val)}
    (h : Run (getOrCreateStep repo kwargs) anyStep (atCalls s) w) {i : ι} {row : Row (Option Val)}
    (hrow : repo.matching s.rows (kwargs i) = [row])
    {result : Except AppException (Returned (Option Val) × Bool)}
    (hended : w.pc i = .ended result) : result = .ok (.one (repo.table.toDto row), false) := by
  rcases (settled repo kwargs h).2 i with hstart | hsettled
  · rw [hstart] at hended
    cases hended
  · rw [hsettled, answer_of_matching hrow] at hended
    exact (Pc.ended.inj hended).symm

theorem correct_of_matching {s : Store M Val}
    {w : World ι (Store M Val) (Row (Option Val)) (Pc Val)}
    (hmatch : ∀ i, ∃ row, repo.matching s.rows (kwargs i) = [row])
    (h : Run (getOrCreateStep repo kwargs) anyStep (atCalls s) w) : Correct repo kwargs s w := by
  obtain ⟨hshared, hpcs⟩ := settled repo kwargs h
  constructor
  · intro i result hended
    obtain ⟨row, hrow⟩ := hmatch i
    refine ⟨row, false, result_of_matching h hrow hended, ?_, fun hfalse => by cases hfalse⟩
    rw [hshared, hrow]
  · intro i row result hrow hended
    exact result_of_matching h hrow hended
  · intro row hrow hnew
    rw [hshared] at hrow
    exact absurd hrow hnew
  · intro callers hcallers
    have hnone : callers = ∅ := by
      refine Finset.eq_empty_of_forall_notMem fun i hi => ?_
      obtain ⟨dto, hended⟩ := hcallers i hi
      obtain ⟨row, hrow⟩ := hmatch i
      cases result_of_matching h hrow hended
    rw [hnone, hshared, Finset.card_empty, Nat.add_zero]
  · intro i
    rcases hpcs i with hstart | hsettled
    · obtain ⟨w', hstep, -⟩ := step_start repo kwargs hstart
      exact .inr ⟨w', hstep⟩
    · exact .inl ⟨_, hsettled⟩

/-- In whatever order calls run, they are served right exactly when one row matches
the keywords of each to begin with. -/
theorem getOrCreate_correct_iff {s : Store M Val} :
    (∀ w, Run (getOrCreateStep repo kwargs) anyStep (atCalls s) w → Correct repo kwargs s w) ↔
      ∀ i, ∃ row, repo.matching s.rows (kwargs i) = [row] := by
  constructor
  · intro hcorrect i
    obtain ⟨w, hstep, hended, -⟩ := step_start repo kwargs (w := atCalls s) (i := i) rfl
    have hrun : Run (getOrCreateStep repo kwargs) anyStep (atCalls s) w :=
      .step .refl trivial hstep
    obtain ⟨row, flag, hanswer, -⟩ := (hcorrect w hrun).answered i _ hended
    exact matching_of_answer hanswer
  · exact fun hmatch w => correct_of_matching hmatch

end Run

/-! ## Event categories -/

section Examples

/-- The class `EventCategory` with its DTO, at a moment; no two categories have
one name. -/
def eventCategories (now : Int) : Query.Inserts.Model (Option Value) where
  columns := [⟨"id", .server fun n => some (.int (n + 1))⟩,
    ⟨"created_at", .server fun _ => some (.time now)⟩,
    ⟨"updated_at", .server fun _ => some (.time now)⟩, ⟨"name", .required⟩,
    ⟨"parent_id", .server fun _ => none⟩]
  unique := [["id"], ["name"]]
  null := none
  refusal row := if Dict.get "name" row = some none then some .notNullViolation else none
  fields := ["id", "name", "parent_id", "can_create_events", "can_create_subcategories"]
  hybrids := []
  distinct := by simp
  plain := fun _ _ => List.not_mem_nil
  narrow := by simp
  given := .inr ⟨⟨"name", .required⟩, by simp, rfl⟩

/-- `uow.event_category`, for keywords with single values. -/
def eventCategory (now : Int) : GenericRepository Database.Models.Model Value Value where
  mapping := {
    schema := { (Database.Models.mapping now).schema with
      read := fun _ _ field row => (Dict.get field row).join }
    comparison := fun op v => (compare op (.one v)).map fun test _ _ u => test u
    className := Database.Models.Model.name }
  model := .eventCategory
  table := eventCategories now
  column := id

def music : FilterDict Value := [("name", some (.text "Music"))]

/-- Two calls for a category that is not there: both return `None` with `False`, and
there is still none. -/
theorem getOrCreate_returns_none :
    ∃ w, Run (getOrCreateStep (eventCategory 0) fun _ : Bool => music) anyStep
        (atCalls ⟨fun _ => [], 0⟩) w ∧
      (∀ i, w.pc i = .ended (.ok (.none, false))) ∧ w.shared = ⟨fun _ => [], 0⟩ ∧
        ¬ Correct (eventCategory 0) (fun _ => music) ⟨fun _ => [], 0⟩ w := by
  have hanswer : (eventCategory 0).answer (fun _ => []) music = .ok (.none, false) := by
    decide +kernel
  obtain ⟨v, hfirst, hended, hothers⟩ := step_start (eventCategory 0) (fun _ : Bool => music)
    (w := atCalls ⟨fun _ => [], 0⟩) (i := false) rfl
  have hwaits : v.pc true = .start := hothers true (by decide)
  have honce : Run (getOrCreateStep (eventCategory 0) fun _ : Bool => music) anyStep
      (atCalls ⟨fun _ => [], 0⟩) v := .step .refl trivial hfirst
  obtain ⟨hshared, -⟩ := settled _ _ honce
  obtain ⟨w, hsecond, hended', hothers'⟩ := step_start (eventCategory 0) (fun _ : Bool => music)
    hwaits
  have htwice : Run (getOrCreateStep (eventCategory 0) fun _ : Bool => music) anyStep
      (atCalls ⟨fun _ => [], 0⟩) w := .step honce trivial hsecond
  obtain ⟨hshared', -⟩ := settled _ _ htwice
  have hnone : ∀ i, w.pc i = .ended (.ok (.none, false)) := by
    intro i
    cases i with
    | false => rw [hothers' false (by decide), hended, atCalls, World.start_shared, hanswer]
    | true => rw [hended', hshared, hanswer]
  refine ⟨w, htwice, hnone, hshared', fun hcorrect => ?_⟩
  obtain ⟨row, flag, heq, -⟩ := hcorrect.answered true _ (hnone true)
  cases heq

end Examples

end TicketBooking.Database.GetOrCreate
