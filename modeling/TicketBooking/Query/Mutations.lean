import TicketBooking.Database.Models
import TicketBooking.Library.Outcomes
import TicketBooking.Query.Matching
/-!
# Reading, updating and deleting the same rows

`filter(X).all()`, `filter(X).update(...)` and `filter(X).delete()` find their
rows in three ways; when the three find the same rows.
-/

namespace TicketBooking.Query.Mutations

open TicketBooking.Library TicketBooking.Library.Joins TicketBooking.Library.Outcomes
open TicketBooking.Query.Builder TicketBooking.Query.Filters TicketBooking.Query.Matching
open TicketBooking.Query.Operators

variable {M Row Val Arg : Type}

/-- Rows of a class with one primary key are one row. -/
def Keyed (schema : Schema M Row Val) (db : Db M Row) : Prop :=
  ∀ model, ∀ row ∈ db model, ∀ row' ∈ db model,
    (∀ key ∈ schema.primaryKey model,
      schema.read db model key row = schema.read db model key row') → row = row'

/-- The relationship compares the primary key of its target. -/
def ToOne (schema : Schema M Row Val) (step : Step M) : Prop :=
  ∀ key ∈ schema.primaryKey step.relation.target, key ∈ step.relation.columns.map Prod.snd

theorem functional_of_toOne [DecidableEq Val] {schema : Schema M Row Val} {db : Db M Row}
    (hkeyed : Keyed schema db) {step : Step M} (h : ToOne schema step) :
    Functional db (step.join schema db) := by
  intro x y y' hy hy' hon hon'
  refine hkeyed _ y hy y' hy' fun key hkey => ?_
  obtain ⟨pair, hpair, rfl⟩ := List.mem_map.mp (h key hkey)
  obtain ⟨v, hv, hread⟩ := sameColumns_iff.mp hon pair hpair
  obtain ⟨v', hv', hread'⟩ := sameColumns_iff.mp hon' pair hpair
  exact hread.trans (hv.symm.trans hv' |>.trans hread'.symm)

/-- The mutation goes through and changes the rows found, no more and no fewer. -/
def Changes (mutation : Except QueryError (List Row)) (found : List Row) : Prop :=
  ∃ changed, mutation = .ok changed ∧ ∀ row, row ∈ changed ↔ row ∈ found

def OwnColumns (mapping : Mapping M Row Val Arg) (b : QueryBuilder M Row Val Arg) : Prop :=
  ∀ c ∈ selectClauses mapping b, c.relations = []

/-- No filter is on an annotated name; a class is reached by one relationship,
and by several filters only through to-one relationships; composite keys are
listed in one order. -/
structure Deletable (mapping : Mapping M Row Val Arg) (b : QueryBuilder M Row Val Arg) : Prop where
  plain : ∀ filter ∈ given b.filters, Dict.get (preparedReading filter.1).1 b.annotations = none
  oneJoin : OneJoin (selectClauses mapping b)
  shared : (selectClauses mapping b).Pairwise fun c c' => ∀ step ∈ c.relations,
    ∀ step' ∈ c'.relations, step.relation.target = step'.relation.target →
      ToOne mapping.schema step
  linedUp : ∀ c ∈ selectClauses mapping b, LinedUp c

section Statements

variable {mapping : Mapping M Row Val Arg} {b : QueryBuilder M Row Val Arg} {db : Db M Row}

theorem deleteClauses_eq
    (h : ∀ filter ∈ given b.filters, Dict.get (preparedReading filter.1).1 b.annotations = none) :
    deleteClauses mapping b = selectClauses mapping b := by
  have hprepare : (given b.filters).filterMap (prepare mapping.schema b.model []) =
      (given b.filters).filterMap (prepare mapping.schema b.model b.annotations) := by
    refine List.filterMap_congr fun filter hfilter => ?_
    simp only [prepare, h filter hfilter, Dict.get]
  unfold deleteClauses selectClauses prepareFilters
  rw [hprepare]

variable [DecidableEq M] [DecidableEq Val] [DecidableEq Row]

theorem mem_all {found : List Row} (h : ReadQueryExecutor.all mapping b db = .ok found) :
    ∃ rows, execute mapping b db = .ok rows ∧ ∀ row, row ∈ found ↔ row ∈ rows := by
  obtain ⟨rows, hfetch, rfl⟩ := map_eq_ok h
  exact ⟨rows, (fetch_eq_ok.mp hfetch).1, fun row => by simp [unique]⟩

/-- Without relations both statements read one table only. -/
theorem update_changes {found : List Row} (hfound : ReadQueryExecutor.all mapping b db = .ok found)
    (hown : OwnColumns mapping b) : Changes (MutationQueryExecutor.update mapping b db) found := by
  obtain ⟨rows, hrows, hmem⟩ := mem_all hfound
  have hone : OneJoin (selectClauses mapping b) := by
    intro c hc c' _ step hstep
    rw [hown c hc] at hstep
    cases hstep
  have hshared : (selectClauses mapping b).Pairwise fun c c' =>
      ∀ j ∈ joinsOf mapping.schema db c.relations, ∀ j' ∈ joinsOf mapping.schema db c'.relations,
        j.target = j'.target → Functional db j := by
    refine List.pairwise_of_forall_mem_list fun c hc c' _ j hj => ?_
    rw [hown c hc] at hj
    cases hj
  cases hupdate : MutationQueryExecutor.update mapping b db with
  | error e => simp [MutationQueryExecutor.update, execute_prepared hrows] at hupdate
  | ok changed =>
      refine ⟨changed, rfl, fun row => ?_⟩
      rw [mem_update hupdate hown, hmem, mem_execute_iff_met hone hshared hrows]

theorem delete_changes (hkeyed : Keyed mapping.schema db) {found : List Row}
    (hfound : ReadQueryExecutor.all mapping b db = .ok found) (h : Deletable mapping b) :
    Changes (MutationQueryExecutor.delete mapping b db) found := by
  obtain ⟨rows, hrows, hmem⟩ := mem_all hfound
  have hclauses : deleteClauses mapping b = selectClauses mapping b := deleteClauses_eq h.plain
  have hshared : (selectClauses mapping b).Pairwise fun c c' =>
      ∀ j ∈ joinsOf mapping.schema db c.relations, ∀ j' ∈ joinsOf mapping.schema db c'.relations,
        j.target = j'.target → Functional db j := by
    refine h.shared.imp fun hstep j hj j' hj' heq => ?_
    obtain ⟨step, hmem, rfl⟩ := List.mem_map.mp hj
    obtain ⟨step', hmem', rfl⟩ := List.mem_map.mp hj'
    exact functional_of_toOne hkeyed (hstep step hmem step' hmem' heq)
  have hnames : ∀ c ∈ selectClauses mapping b, namesOnce c := by
    intro c hc
    have hnodup := nodup_of_linked (leads_of_mem db hc).1 (selectJoins_root hrows c hc)
      fun j hj j' hj' heq => h.oneJoin.join_eq hc hc hj hj' heq
    unfold joinsOf at hnodup
    rw [List.map_map] at hnodup
    exact decide_eq_true hnodup
  have hbuilds : ((selectClauses mapping b).all fun c =>
      c.builds mapping.comparison && namesOnce c) = true := by
    rw [List.all_eq_true]
    intro c hc
    rw [builds_of_prepareQuery (execute_prepared hrows) c hc, hnames c hc]
    rfl
  simp only [MutationQueryExecutor.delete, hclauses, hbuilds, if_true]
  refine ⟨_, rfl, fun row => ?_⟩
  rw [List.mem_filter, hmem, mem_execute_iff_met h.oneJoin hshared hrows, List.all_eq_true]
  exact and_congr_right fun _ => forall₂_congr fun c hc =>
    deleteClause_iff (leads_of_mem db hc) (hnames c hc) (h.linedUp c hc) _ row

/-- The rows of `all()` are those an update on own columns and annotations and a
delete over separate to-many relationships change. -/
theorem mutations_change_found (hkeyed : Keyed mapping.schema db) {found : List Row}
    (hfound : ReadQueryExecutor.all mapping b db = .ok found) :
    (OwnColumns mapping b → Changes (MutationQueryExecutor.update mapping b db) found) ∧
      (Deletable mapping b → Changes (MutationQueryExecutor.delete mapping b db) found) :=
  ⟨update_changes hfound, delete_changes hkeyed hfound⟩

end Statements

/-! ## The booking system's queries -/

section Examples

open TicketBooking.Database.Models TicketBooking.Database.Tables

def twoEvents : TicketBooking.Database.Tables.Db where
  ticketCategories := [⟨1, 1, "parterre", 10, 5⟩, ⟨2, 2, "balcony", 10, 5⟩]
  tickets := [⟨1, 1, none, .reserved⟩, ⟨2, 2, none, .reserved⟩]

def eventTickets : ModelQuery := filter .ticket [("category__event_id", .int 1)]

/-- Deleting the tickets of the first event deletes the ticket found. -/
theorem mutations_change_found_eventTickets :
    Changes (MutationQueryExecutor.delete (mapping 0) eventTickets (records twoEvents))
      [.ticket ⟨1, 1, none, .reserved⟩] := by
  have hkeyed : Keyed (mapping 0).schema (records twoEvents) := by
    intro model
    cases model <;> decide +kernel
  have hfound : ReadQueryExecutor.all (mapping 0) eventTickets (records twoEvents) =
      .ok [.ticket ⟨1, 1, none, .reserved⟩] := by
    rfl
  have hgiven : given eventTickets.filters = [("category__event_id", .one (.int 1))] := rfl
  refine (mutations_change_found hkeyed hfound).2 ⟨?_, ?_, ?_, ?_⟩
  · rw [hgiven, List.forall_mem_singleton]
    rfl
  · unfold OneJoin
    decide +kernel
  · exact List.pairwise_singleton _ _
  · have hzip : ∀ c ∈ selectClauses (mapping 0) eventTickets, ∀ step ∈ c.relations.head?,
        step.relation.localColumns.zip step.relation.remoteSide = step.relation.columns := by
      decide +kernel
    intro c hc step hstep pair
    rw [hzip c hc step hstep]

/-- An update of the first event's tickets changes the other event's too. -/
theorem update_changes_more :
    ReadQueryExecutor.all (mapping 0) eventTickets (records twoEvents) =
        .ok [.ticket ⟨1, 1, none, .reserved⟩] ∧
      ¬ Changes (MutationQueryExecutor.update (mapping 0) eventTickets (records twoEvents))
        [.ticket ⟨1, 1, none, .reserved⟩] := by
  have hupdate : MutationQueryExecutor.update (mapping 0) eventTickets (records twoEvents) =
      .ok [.ticket ⟨1, 1, none, .reserved⟩, .ticket ⟨2, 2, none, .reserved⟩] := by
    rfl
  refine ⟨by rfl, ?_⟩
  rintro ⟨changed, hchanged, hmem⟩
  cases hupdate.symm.trans hchanged
  exact absurd ((hmem (.ticket ⟨2, 2, none, .reserved⟩)).mp (by decide)) (by decide)

end Examples

end TicketBooking.Query.Mutations
