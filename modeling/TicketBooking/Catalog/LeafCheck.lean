import TicketBooking.Catalog.Editing
import TicketBooking.Query.Matching
/-!
# The leaf check

`EventService.create` asks for the category with `children__has_no=True`.  The
key names no operator, so the query layer reads it as a field `has_no` of the
children, finds no such field and drops the filter.
-/

namespace TicketBooking.Catalog.LeafCheck

open TicketBooking.Catalog.Editing
open TicketBooking.Database.Models TicketBooking.Database.Tables
open TicketBooking.Library TicketBooking.Library.Joins
open TicketBooking.Query.Builder TicketBooking.Query.Comparisons TicketBooking.Query.Filters
open TicketBooking.Query.Matching TicketBooking.Query.Operators

theorem prepare_id (now : Int) (val : Argument) :
    prepare (mapping now).schema .eventCategory [] ("id", val) =
      some ⟨[], .field .eventCategory "id" (column "id"), .eq, val⟩ :=
  prepare_field now val rfl (by decide +kernel) (by decide +kernel) rfl

/-- `has_no` is no operator and no field, so the filter is dropped. -/
theorem prepare_children_has_no (now : Int) (val : Argument) :
    prepare (mapping now).schema .eventCategory [] ("children__has_no", val) = none := by
  have hreading : resolvedReading "children__has_no" = ("children__has_no", .eq) := by
    decide +kernel
  have hparts : components "children__has_no" = ["children", "has_no"] := by decide +kernel
  simp only [prepare, Dict.get, FilterResolver.resolve, hreading, hparts]
  rfl

def idClause (categoryId : Nat) : Clause Model Record Value Argument :=
  ⟨[], .field .eventCategory "id" (column "id"), .eq, .one (.int categoryId)⟩

theorem selectClauses_leafQuery (now : Int) (categoryId : Nat) :
    selectClauses (mapping now) (leafQuery categoryId) = [idClause categoryId] := by
  have hgiven : given (leafQuery categoryId).filters =
      [("id", .one (.int categoryId)), ("children__has_no", .one (.bool true))] := rfl
  unfold selectClauses prepareFilters
  rw [hgiven]
  simp only [leafQuery, filter, List.filterMap_cons, prepare_id, prepare_children_has_no,
    List.filterMap_nil]
  rfl

theorem execute_leafQuery (now : Int) (db : Db) (categoryId : Nat) :
    ∃ rows, execute (mapping now) (leafQuery categoryId) (records db) = .ok rows := by
  have hreserved : ∀ filter ∈ (leafQuery categoryId).filters, filter.1 ∉ reserved := by
    simp [leafQuery, filter, reserved]
  have hbuilds : (selectClauses (mapping now) (leafQuery categoryId)).all
      (Clause.builds (mapping now).comparison) := by
    rw [selectClauses_leafQuery]
    rfl
  have hprepare : prepareQuery (mapping now) (leafQuery categoryId) =
      .ok (selectClauses (mapping now) (leafQuery categoryId)) := by
    unfold prepareQuery
    rw [if_neg (by simp [leafQuery, filter]), if_neg (by simpa using hreserved), if_pos hbuilds]
  have hjoins : selectJoins (mapping now) (leafQuery categoryId) (records db) = [] := by
    unfold selectJoins
    rw [selectClauses_leafQuery]
    rfl
  simp [execute, hprepare, hjoins]

theorem mem_execute_leafQuery {now : Int} {db : Db} {categoryId : Nat} {rows : List Record}
    (h : execute (mapping now) (leafQuery categoryId) (records db) = .ok rows) {row : Record} :
    row ∈ rows ↔
      ∃ category ∈ db.eventCategories,
        .eventCategory category = row ∧ category.id = categoryId := by
  have hclauses := selectClauses_leafQuery now categoryId
  have hmet : ∀ category binds, Met (mapping now) (records db) binds (idClause categoryId)
      (.eventCategory category) ↔ category.id = categoryId := by
    intro category binds
    have hholds : (idClause categoryId).holds (mapping now).schema (mapping now).comparison
        (records db) binds (.eventCategory category) (.eventCategory category) =
          decide (some (Value.int category.id) = some (Value.int categoryId)) := rfl
    constructor
    · rintro ⟨row, hrow, h⟩
      rw [List.mem_singleton.mp hrow, hholds, decide_eq_true_eq, Option.some.injEq,
        Value.int.injEq] at h
      omega
    · rintro rfl
      exact ⟨_, List.mem_singleton_self _, by rw [hholds]; simp⟩
  rw [mem_execute_iff_met (by simp [OneJoin, hclauses, idClause]) (by simp [hclauses]) h, hclauses,
    List.forall_mem_singleton]
  constructor
  · rintro ⟨hrow, hrowmet⟩
    obtain ⟨category, hcategory, rfl⟩ := List.mem_map.mp hrow
    exact ⟨category, hcategory, rfl, (hmet category _).mp hrowmet⟩
  · rintro ⟨category, hcategory, rfl, hid⟩
    exact ⟨List.mem_map_of_mem hcategory, (hmet category _).mpr hid⟩

/-- The leaf check finds the category whether or not it has children. -/
theorem isLeafCategory_eq (now : Int) (db : Db) (categoryId : Nat) :
    isLeafCategory now db categoryId = .ok (categoryExists db categoryId) := by
  obtain ⟨rows, hrows⟩ := execute_leafQuery now db categoryId
  have hfound : rows ≠ [] ↔ categoryExists db categoryId := by
    rw [categoryExists_iff]
    constructor
    · intro hne
      obtain ⟨row, hrow⟩ := List.exists_mem_of_ne_nil rows hne
      obtain ⟨category, hcategory, -, hid⟩ := (mem_execute_leafQuery hrows).mp hrow
      exact ⟨category, hcategory, hid⟩
    · rintro ⟨category, hcategory, hid⟩
      exact List.ne_nil_of_mem ((mem_execute_leafQuery hrows).mpr ⟨category, hcategory, rfl, hid⟩)
  unfold isLeafCategory ReadQueryExecutor.exists
  rw [hrows]
  show Except.ok (decide (rows ≠ [])) = _
  rw [Except.ok.injEq, Bool.eq_iff_iff, decide_eq_true_eq, hfound]

end TicketBooking.Catalog.LeafCheck
