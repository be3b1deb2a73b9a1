import TicketBooking.App.Exceptions
import TicketBooking.Database.Models
import TicketBooking.Query.Respect
import TicketBooking.Query.Sorting
/-!
# Lookups

Queries by columns of the queried class, and the two `get`s: the query layer
raises a `ValueError` unless it finds one row, `GenericRepository.get` makes it
`None`.
-/

namespace TicketBooking.Database.Lookups

open TicketBooking.App.Exceptions (AppException)
open TicketBooking.Database.Models
open TicketBooking.Library TicketBooking.Library.Joins
open TicketBooking.Query.Builder TicketBooking.Query.Comparisons TicketBooking.Query.Filters
open TicketBooking.Query.Operators TicketBooking.Query.Respect TicketBooking.Query.Sorting

/-! ## Queries by columns -/

/-- The key names a column of the class, and no operator. -/
structure NamesColumn (model : Model) (key : String) : Prop where
  resolved : resolvedReading key = (key, .eq)
  parts : components key = [key]
  attr : Dict.get key (attributes model) = some (column key)
  free : key ∉ reserved

theorem namesColumn_id (model : Model) : NamesColumn model "id" where
  resolved := by decide +kernel
  parts := by decide +kernel
  attr := by cases model <;> rfl
  free := by decide

theorem namesColumn_userId : NamesColumn .event "user_id" where
  resolved := by decide +kernel
  parts := by decide +kernel
  attr := rfl
  free := by decide

def columnClause (model : Model) (filter : String × Value) :
    Clause Model Record Value Argument :=
  ⟨[], .field model filter.1 (column filter.1), .eq, .one filter.2⟩

theorem prepare_column {model : Model} {key : String} (h : NamesColumn model key) (now : Int)
    (value : Value) :
    prepare (mapping now).schema model [] (key, .one value) =
      some (columnClause model (key, value)) :=
  prepare_field now (.one value) rfl h.resolved h.parts h.attr

section Columns

variable {model : Model} {filters : List (String × Value)}

theorem selectClauses_columns (h : ∀ f ∈ filters, NamesColumn model f.1) (now : Int) :
    selectClauses (mapping now) (filter model filters) = filters.map (columnClause model) := by
  have hprepared : (given (filter model filters).filters).filterMap
      (prepare (mapping now).schema model []) = filters.map (columnClause model) := by
    induction filters with
    | nil => rfl
    | cons f filters ih =>
        have hrest := ih fun f hf => h f (List.mem_cons_of_mem _ hf)
        show List.filterMap _ ((f.1, Argument.one f.2) :: given (filter model filters).filters) = _
        rw [List.filterMap_cons, prepare_column (h f List.mem_cons_self), hrest]
        rfl
  rw [← List.append_nil (filters.map _)] at hprepared ⊢
  refine prepareFilters_eq hprepared (fun c hc => ?_) fun c hc => by cases hc
  obtain ⟨f, -, rfl⟩ := List.mem_map.mp hc
  exact ⟨_, _, _, rfl⟩

theorem prepareQuery_columns (h : ∀ f ∈ filters, NamesColumn model f.1) (now : Int) :
    prepareQuery (mapping now) (filter model filters) = .ok (filters.map (columnClause model)) := by
  have hreserved : ¬ (filter model filters).filters.any fun f => f.1 ∈ reserved := by
    simp only [filter, List.any_map, List.any_eq_true, not_exists, not_and]
    intro f hf
    exact decide_eq_true_iff.not.mpr (h f hf).free
  have hbuilds :
      (filters.map (columnClause model)).all (Clause.builds (mapping now).comparison) := by
    simp only [List.all_map, List.all_eq_true]
    exact fun f _ => rfl
  unfold prepareQuery
  rw [selectClauses_columns h, if_neg (by simp [filter]), if_neg hreserved, if_pos hbuilds]

def rowsWith (now : Int) (db : Database.Tables.Db) (model : Model)
    (filters : List (String × Value)) : List Record :=
  (records db model).filter fun row =>
    filters.all fun f => readRecord now (records db) f.1 row = some f.2

theorem mem_rowsWith {now : Int} {db : Database.Tables.Db} {row : Record} :
    row ∈ rowsWith now db model filters ↔ row ∈ records db model ∧
      ∀ f ∈ filters, readRecord now (records db) f.1 row = some f.2 := by
  simp [rowsWith]

theorem fetch_columns (h : ∀ f ∈ filters, NamesColumn model f.1) (now : Int)
    (db : Database.Tables.Db) :
    fetch (mapping now) (filter model filters) (records db) =
      .ok (rowsWith now db model filters) := by
  have hplain : ∀ c ∈ filters.map (columnClause model), c.relations = [] := by
    intro c hc
    obtain ⟨f, -, rfl⟩ := List.mem_map.mp hc
    rfl
  rw [fetch_of_plain (prepareQuery_columns h now) hplain]
  refine congrArg Except.ok (List.filter_congr fun row _ => ?_)
  unfold clausesHold
  rw [List.all_map]
  refine List.all_congr rfl fun f => ?_
  have hself : single (filter model filters).model row
      ((columnClause model f).owner (filter model filters).model) = some row :=
    single_self model row
  simp only [Function.comp_apply, hself]
  rfl

end Columns

/-! ## The two `get`s -/

/-- The exceptions of the query layer; what SQLAlchemy raises is no `ValueError`. -/
def raised : QueryError → AppException
  | .valueError message => .valueError message
  | .attributeError => .other "AttributeError"
  | .typeError => .other "TypeError"
  | .refused => .other "SQLAlchemyError"

def queryGet (now : Int) (db : Database.Tables.Db) (model : Model)
    (filters : List (String × Value)) : Except AppException Record :=
  (ReadQueryExecutor.get (mapping now) (filter model filters) (records db)).mapError raised

def repositoryGet (now : Int) (db : Database.Tables.Db) (model : Model)
    (filters : List (String × Value)) : Except AppException (Option Record) :=
  match queryGet now db model filters with
  | .ok row => .ok (some row)
  | .error (.valueError _) => .ok none
  | .error e => .error e

section Gets

variable {now : Int} {db : Database.Tables.Db} {model : Model} {filters : List (String × Value)}

theorem queryGet_eq (h : ∀ f ∈ filters, NamesColumn model f.1) :
    queryGet now db model filters =
      match unique (rowsWith now db model filters) with
      | [] => .error (.valueError s!"No {model.name} found matching criteria.")
      | [row] => .ok row
      | _ => .error (.valueError s!"Multiple {model.name} returned matching criteria.") := by
  unfold queryGet ReadQueryExecutor.get
  rw [fetch_columns h]
  dsimp only
  rcases unique (rowsWith now db model filters) with _ | ⟨row, _ | ⟨row', rows⟩⟩ <;> rfl

theorem mem_of_queryGet (h : ∀ f ∈ filters, NamesColumn model f.1) {row : Record}
    (hget : queryGet now db model filters = .ok row) :
    row ∈ records db model ∧ ∀ f ∈ filters, readRecord now (records db) f.1 row = some f.2 := by
  rw [queryGet_eq h] at hget
  split at hget
  · cases hget
  · rename_i row' hunique
    cases hget
    refine mem_rowsWith.mp (mem_unique.mp ?_)
    rw [hunique]
    exact List.mem_singleton_self row
  · cases hget

theorem queryGet_of_none (h : ∀ f ∈ filters, NamesColumn model f.1)
    (hnone : rowsWith now db model filters = []) :
    queryGet now db model filters =
      .error (.valueError s!"No {model.name} found matching criteria.") := by
  rw [queryGet_eq h, hnone]
  rfl

theorem queryGet_of_only (h : ∀ f ∈ filters, NamesColumn model f.1) {row : Record}
    (hrow : row ∈ rowsWith now db model filters)
    (honly : ∀ other ∈ rowsWith now db model filters, other = row) :
    queryGet now db model filters = .ok row := by
  have hsame : ∀ other ∈ unique (rowsWith now db model filters), other = row :=
    fun other hother => honly other (mem_unique.mp hother)
  have hnodup : (unique (rowsWith now db model filters)).Nodup :=
    List.nodup_reverse.mpr (List.nodup_dedup _)
  have hmem := mem_unique.mpr hrow
  rw [queryGet_eq h]
  rcases hunique : unique (rowsWith now db model filters) with _ | ⟨first, _ | ⟨second, rest⟩⟩
  · rw [hunique] at hmem
    cases hmem
  · rw [hunique] at hsame
    rw [hsame first (List.mem_singleton_self first)]
  · rw [hunique] at hsame hnodup
    refine absurd ?_ (List.nodup_cons.mp hnodup).1
    rw [hsame first List.mem_cons_self, ← hsame second (by simp)]
    exact List.mem_cons_self

theorem repositoryGet_of_mem (h : ∀ f ∈ filters, NamesColumn model f.1) {found : Option Record}
    (hget : repositoryGet now db model filters = .ok found) :
    ∀ row ∈ found, row ∈ rowsWith now db model filters := by
  intro row hrow
  unfold repositoryGet at hget
  split at hget
  · rename_i row' hquery
    cases hget
    cases hrow
    exact mem_rowsWith.mpr (mem_of_queryGet h hquery)
  · cases hget
    cases hrow
  · cases hget

theorem repositoryGet_ok (h : ∀ f ∈ filters, NamesColumn model f.1) :
    ∃ found, repositoryGet now db model filters = .ok found := by
  unfold repositoryGet
  rw [queryGet_eq h]
  rcases unique (rowsWith now db model filters) with _ | ⟨row, _ | ⟨row', rows⟩⟩
  · exact ⟨none, rfl⟩
  · exact ⟨some row, rfl⟩
  · exact ⟨none, rfl⟩

end Gets

end TicketBooking.Database.Lookups
