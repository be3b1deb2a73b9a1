import Mathlib.Data.List.Dedup
import TicketBooking.Database.Models
import TicketBooking.Query.Sorting
/-!
# The numbers of a page

`paginate` with `GenericService._paginate`: the total, the page and the number of
pages of a response, against the rows that match.
-/

namespace TicketBooking.Query.PageCounts

open TicketBooking.Database.Models
open TicketBooking.Library.Joins
open TicketBooking.Query.Builder TicketBooking.Query.Comparisons TicketBooking.Query.Filters
open TicketBooking.Query.Sorting

/-- `PaginationParamsSchema`. -/
structure PaginationParams where
  limit : Nat := 10
  offset : Nat := 0
  limit_ge : 1 ≤ limit
  limit_le : limit ≤ 100

section Statements

variable {M Row Val Arg : Type} [DecidableEq M] [DecidableEq Val] [DecidableEq Row]
  (mapping : Mapping M Row Val Arg) (precedes : Option Val → Option Val → Bool)
  (b : QueryBuilder M Row Val Arg) (db : Db M Row)

/-- `order_by(order_by).paginate(offset=offset, limit=limit)` and `_paginate`. -/
def listing (orderBy : Option String) (params : PaginationParams) :
    Except QueryError (PaginatedResponse Row) :=
  (sortedPage mapping precedes b db orderBy params.offset params.limit).map fun (items, count) =>
    paginateRaw items count params.limit

end Statements

/-! ## What a response should say -/

def IsPageCount (n limit pages : Nat) : Prop :=
  n ≤ pages * limit ∧ ∀ fewer, n ≤ fewer * limit → pages ≤ fewer

variable {Row : Type}

/-- The response of a page of the rows that match. -/
structure Correct (matching : List Row) (params : PaginationParams)
    (response : PaginatedResponse Row) : Prop where
  count : response.count = matching.length
  results : response.results = (matching.drop params.offset).take params.limit
  maxPages : IsPageCount matching.length params.limit response.maxPages

variable [DecidableEq Row] {rows : List Row} {params : PaginationParams}

/-- What the code makes of the rows of the SELECT. -/
def responseOf (rows : List Row) (params : PaginationParams) : PaginatedResponse Row :=
  let page := (rows.drop params.offset).take params.limit
  paginateRaw (unique page) (if page = [] then 0 else rows.length) params.limit

theorem unique_of_nodup (h : rows.Nodup) : unique rows = rows := by
  rw [unique, List.dedup_eq_self.mpr (List.nodup_reverse.mpr h), List.reverse_reverse]

theorem nodup_of_length (h : (unique rows).length = rows.length) : rows.Nodup := by
  have hsublist : rows.reverse.dedup.Sublist rows.reverse := List.dedup_sublist _
  have hlength : rows.reverse.dedup.length = rows.reverse.length := by
    simpa [unique] using h
  rw [← List.nodup_reverse, ← hsublist.eq_of_length hlength]
  exact List.nodup_dedup _

omit [DecidableEq Row] in
theorem page_eq_nil : (rows.drop params.offset).take params.limit = [] ↔
    rows.length ≤ params.offset := by
  have hlimit := params.limit_ge
  rw [← List.length_eq_zero_iff, List.length_take, List.length_drop]
  omega

/-- The limit is the number of pages for the totals up to its square. -/
theorem isPageCount_self {n limit : Nat} (hlimit : 1 ≤ limit) :
    IsPageCount n limit limit ↔ (limit - 1) * limit < n ∧ n ≤ limit * limit := by
  constructor
  · rintro ⟨hfits, hleast⟩
    refine ⟨?_, hfits⟩
    by_contra hle
    have hfewer := hleast (limit - 1) (Nat.not_lt.mp hle)
    omega
  · rintro ⟨hmore, hfits⟩
    refine ⟨hfits, fun fewer hfewer => ?_⟩
    have hlt : limit - 1 < fewer := Nat.lt_of_mul_lt_mul_right (Nat.lt_of_lt_of_le hmore hfewer)
    omega

/-- The total is right for the pages that are not empty when no row is found twice,
and when there is nothing to find. -/
theorem count_iff : (responseOf rows params).count = (unique rows).length ↔
    (rows.Nodup ∧ params.offset < rows.length) ∨ rows = [] := by
  show (if (rows.drop params.offset).take params.limit = [] then 0 else rows.length) = _ ↔ _
  split_ifs with hempty
  · rw [page_eq_nil] at hempty
    constructor
    · intro hcount
      have hnil : unique rows = [] := List.length_eq_zero_iff.mp hcount.symm
      right
      simpa [unique] using hnil
    · rintro (⟨-, hoffset⟩ | rfl)
      · omega
      · rfl
  · rw [page_eq_nil] at hempty
    constructor
    · intro hcount
      exact .inl ⟨nodup_of_length hcount.symm, Nat.not_le.mp hempty⟩
    · rintro (⟨hnodup, -⟩ | rfl)
      · rw [unique_of_nodup hnodup]
      · exact absurd (Nat.zero_le _) hempty

theorem results_of_nodup (h : rows.Nodup) : (responseOf rows params).results =
    ((unique rows).drop params.offset).take params.limit := by
  rw [unique_of_nodup h]
  refine unique_of_nodup ?_
  exact h.sublist ((List.take_sublist _ _).trans (List.drop_sublist _ _))

/-- The response is right in all three exactly when no row is found twice, the page
is not empty and the limit happens to be the number of pages. -/
theorem correct_iff : Correct (unique rows) params (responseOf rows params) ↔
    rows.Nodup ∧ params.offset < rows.length ∧
      (params.limit - 1) * params.limit < rows.length ∧
      rows.length ≤ params.limit * params.limit := by
  constructor
  · intro h
    have hpages := (isPageCount_self params.limit_ge).mp h.maxPages
    rcases count_iff.mp h.count with ⟨hnodup, hoffset⟩ | rfl
    · rw [unique_of_nodup hnodup] at hpages
      exact ⟨hnodup, hoffset, hpages⟩
    · exact absurd hpages.1 (Nat.not_lt_zero _)
  · rintro ⟨hnodup, hoffset, hpages⟩
    refine ⟨count_iff.mpr (.inl ⟨hnodup, hoffset⟩), results_of_nodup hnodup, ?_⟩
    rw [unique_of_nodup hnodup]
    exact (isPageCount_self params.limit_ge).mpr hpages

section Listing

variable {M Val Arg : Type} [DecidableEq M] [DecidableEq Val] {mapping : Mapping M Row Val Arg}
  {precedes : Option Val → Option Val → Bool} {b : QueryBuilder M Row Val Arg} {db : Db M Row}
  {orderBy : Option String}

/-- When a listing's response is right, and when its total and its number of pages
are. -/
theorem listing_correct_iff
    (hrows : sortedRows mapping precedes b db orderBy = .ok rows) (params : PaginationParams) :
    ∃ response, listing mapping precedes b db orderBy params = .ok response ∧
      (Correct (unique rows) params response ↔
        rows.Nodup ∧ params.offset < rows.length ∧
          (params.limit - 1) * params.limit < rows.length ∧
          rows.length ≤ params.limit * params.limit) ∧
      (response.count = (unique rows).length ↔
        (rows.Nodup ∧ params.offset < rows.length) ∨ rows = []) ∧
      (IsPageCount (unique rows).length params.limit response.maxPages ↔
        (params.limit - 1) * params.limit < (unique rows).length ∧
          (unique rows).length ≤ params.limit * params.limit) := by
  refine ⟨responseOf rows params, ?_, correct_iff, count_iff, isPageCount_self params.limit_ge⟩
  unfold listing sortedPage
  rw [hrows]
  rfl

end Listing

/-! ## Three categories -/

def threeCategories : Rows
  | .eventCategory =>
      [.eventCategory ⟨1, "Music", none⟩, .eventCategory ⟨2, "Theatre", none⟩,
        .eventCategory ⟨3, "Jazz", some 1⟩]
  | _ => []

def twoPerPage (offset : Nat) : PaginationParams := ⟨2, offset, by decide, by decide⟩

/-- The second of two pages. -/
theorem secondPage_correct :
    ∃ response, listing (mapping 0) (fun _ _ => true) (filter .eventCategory []) threeCategories
        none (twoPerPage 2) = .ok response ∧
      Correct (threeCategories .eventCategory) (twoPerPage 2) response := by
  have hrows : sortedRows (mapping 0) (fun _ _ => true) (filter .eventCategory []) threeCategories
      none = .ok (threeCategories .eventCategory) := rfl
  obtain ⟨response, hresponse, hcorrect, -⟩ := listing_correct_iff hrows (twoPerPage 2)
  exact ⟨response, hresponse, hcorrect.mpr (by decide)⟩

/-- Behind the last page the total is zero, and ten pages are announced for three rows. -/
theorem listing_wrong :
    (∃ response, listing (mapping 0) (fun _ _ => true) (filter .eventCategory []) threeCategories
        none (twoPerPage 4) = .ok response ∧ response.count = 0 ∧
          ¬ Correct (threeCategories .eventCategory) (twoPerPage 4) response) ∧
      ∃ response, listing (mapping 0) (fun _ _ => true) (filter .eventCategory []) threeCategories
        none ⟨10, 0, by decide, by decide⟩ = .ok response ∧ response.maxPages = 10 ∧
          ¬ Correct (threeCategories .eventCategory) ⟨10, 0, by decide, by decide⟩ response := by
  refine ⟨⟨_, rfl, rfl, fun h => ?_⟩, _, rfl, rfl, fun h => ?_⟩
  · exact absurd h.count (by decide)
  · exact absurd (h.maxPages.2 1 (by decide)) (by decide)

end TicketBooking.Query.PageCounts
