import TicketBooking.Catalog.Listing
import TicketBooking.Query.Annotated
/-!
# The flags of the categories

`get_categories` annotates two flags, which a request without filters does not get.
-/

namespace TicketBooking.Catalog.Flags

open TicketBooking.Catalog.Listing
open TicketBooking.Database.Models TicketBooking.Database.Tables
open TicketBooking.Library TicketBooking.Library.Joins
open TicketBooking.Query.Annotated TicketBooking.Query.Builder TicketBooking.Query.Comparisons
open TicketBooking.Query.Filters TicketBooking.Query.Sorting

def eventCategoryFields : List String :=
  ["id", "name", "parent_id", "can_create_events", "can_create_subcategories"]

/-- Every listed category has both flags, with their values. -/
def FlagsReported (precedes : Option Value → Option Value → Bool) (now : Int)
    (db : Database.Tables.Db) (p : EventCategoryFilterParams) : Prop :=
  ∀ response, EventService.getCategories precedes now db p = .ok response →
    ∀ c ∈ response.results,
      c.canCreateEvents = some (canCreateEvents db ⟨c.id, c.name, c.parentId⟩) ∧
        c.canCreateSubcategories = some (canCreateSubcategories db ⟨c.id, c.name, c.parentId⟩)

theorem of_mem_results {precedes : Option Value → Option Value → Bool} {now : Int}
    {db : Database.Tables.Db} {p : EventCategoryFilterParams}
    {response : PaginatedResponse EventCategoryResponse}
    (h : EventService.getCategories precedes now db p = .ok response) {c : EventCategoryResponse}
    (hc : c ∈ response.results) : ∃ category, c = shown db p category := by
  rw [getCategories_eq] at h
  unfold categoryListing at h
  split at h
  · cases h
  · cases h
    obtain ⟨category, -, rfl⟩ := List.mem_map.mp hc
    exact ⟨category, rfl⟩

theorem flagsReported_iff (precedes : Option Value → Option Value → Bool) (now : Int)
    (db : Database.Tables.Db) (p : EventCategoryFilterParams) :
    FlagsReported precedes now db p ↔ p.specificFilters ≠ [] ∨
      ∀ response, EventService.getCategories precedes now db p = .ok response →
        response.results = [] := by
  constructor
  · intro h
    by_contra hnot
    obtain ⟨hfilters, hlisted⟩ := not_or.mp hnot
    refine hlisted fun response hresponse => List.eq_nil_iff_forall_not_mem.mpr fun c hc => ?_
    obtain ⟨hflag, -⟩ := h response hresponse c hc
    obtain ⟨category, rfl⟩ := of_mem_results hresponse hc
    rw [shown, if_pos (not_not.mp hfilters)] at hflag
    cases hflag
  · rintro (hfilters | hempty) response hresponse c hc
    · obtain ⟨category, rfl⟩ := of_mem_results hresponse hc
      simp [shown, hfilters]
    · rw [hempty response hresponse] at hc
      cases hc

/-- Annotations reach the rows that are returned exactly where they are carried, and
the flags of the categories exactly when the request has a filter or nothing is
listed. -/
theorem annotations_shown_iff {M Row Val Arg : Type} [DecidableEq M] [DecidableEq Val]
    [DecidableEq Row] (mapping : Mapping M Row Val Arg)
    (precedes : Option Val → Option Val → Bool) (fields : List String)
    (b : QueryBuilder M Row Val Arg) (tables : Query.Filters.Db M Row) (orderBy : Option String)
    (sorted : Option Value → Option Value → Bool) (now : Int) (db : Database.Tables.Db)
    (p : EventCategoryFilterParams) :
    (Shows mapping precedes fields b tables orderBy ↔
      ∀ rows, sortedRows mapping precedes b tables orderBy = .ok rows → ∀ row ∈ rows,
        ∀ name expr, Dict.get name b.annotations = some expr →
          Carried mapping fields b tables row name expr) ∧
      (FlagsReported sorted now db p ↔ p.specificFilters ≠ [] ∨
        ∀ response, EventService.getCategories sorted now db p = .ok response →
          response.results = []) :=
  ⟨shows_iff, flagsReported_iff sorted now db p⟩

/-- With a filter both flags are carried. -/
example (now : Int) (p : EventCategoryFilterParams) (hfilters : p.specificFilters ≠ [])
    (db : Database.Tables.Db) (row : Record) :
    Carried (mapping now) eventCategoryFields (categoryQuery now p) (records db) row
        "can_create_events" (hasNone now "children") ∧
      Carried (mapping now) eventCategoryFields (categoryQuery now p) (records db) row
        "can_create_subcategories" (hasNone now "events") :=
  ⟨.of_unclashed (by decide) (by decide) hfilters (List.forall_mem_nil _) row,
    .of_unclashed (by decide) (by decide) hfilters (List.forall_mem_nil _) row⟩

def oneCategory : Database.Tables.Db := { eventCategories := [⟨1, "Music", none⟩] }

/-- Without a filter the flags of the one category are not reported. -/
theorem unfiltered_flags_missing :
    EventService.getCategories (fun _ _ => true) 0 oneCategory {} =
        .ok ⟨1, 10, [⟨1, "Music", none, none, none⟩]⟩ ∧
      ¬ FlagsReported (fun _ _ => true) 0 oneCategory {} ∧
      ¬ Shows (mapping 0) (fun _ _ => true) eventCategoryFields (categoryQuery 0 {})
        (records oneCategory) none := by
  have hresponse : EventService.getCategories (fun _ _ => true) 0 oneCategory {} =
      .ok ⟨1, 10, [⟨1, "Music", none, none, none⟩]⟩ := by rfl
  refine ⟨hresponse, fun h => ?_, fun h => ?_⟩
  · exact absurd (h _ hresponse _ List.mem_cons_self).1 nofun
  · have hvalue := h .all _ rfl _ List.mem_cons_self "can_create_events" _ rfl
    cases hvalue

end TicketBooking.Catalog.Flags
