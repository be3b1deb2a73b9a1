import TicketBooking.Library.Merges
import TicketBooking.Query.Mutations
/-!
# Filters together

The rows of `filter(...)` with two sets of filters at once, and the rows that
each of the sets selects alone.
-/

namespace TicketBooking.Query.Conjunction

open TicketBooking.Library TicketBooking.Library.Joins TicketBooking.Library.Merges
open TicketBooking.Query.Builder TicketBooking.Query.Filters TicketBooking.Query.Matching

variable {M Row Val Arg : Type}

section Statements

variable [DecidableEq M] [DecidableEq Val] (mapping : Mapping M Row Val Arg) (db : Db M Row)

def Accepted (b : QueryBuilder M Row Val Arg) : Prop := ∃ rows, fetch mapping b db = .ok rows

def Selects (b : QueryBuilder M Row Val Arg) (row : Row) : Prop :=
  ∃ rows, fetch mapping b db = .ok rows ∧ row ∈ rows

/-- `both` goes through when the other two do, and selects the rows they both select. -/
structure Conjoins (both left right : QueryBuilder M Row Val Arg) : Prop where
  accepted : Accepted mapping db both ↔ Accepted mapping db left ∧ Accepted mapping db right
  selected : ∀ row,
    Selects mapping db both row ↔ Selects mapping db left row ∧ Selects mapping db right row

/-- The relationship a class is joined by: the first to reach it. -/
def JoinedBy (clauses : List (Clause M Row Val Arg)) (step : Step M) : Prop :=
  (clauses.flatMap Clause.relations).find? (fun step' =>
    step'.relation.target = step.relation.target) = some step

/-- The value of a parameter: the last one given. -/
def boundTo (clauses : List (Clause M Row Val Arg)) (name : String) : Option Arg :=
  Dict.get name (Dict.ofList Prod.fst Prod.snd (clauses.flatMap Clause.binds))

/-- The statement can be built, and joins the queried class nowhere. -/
structure Builds (b : QueryBuilder M Row Val Arg) : Prop where
  fresh : b.contextHistory = []
  free : ∀ filter ∈ b.filters, filter.1 ∉ reserved
  builds : ∀ c ∈ selectClauses mapping b, c.builds mapping.comparison
  root : ∀ c ∈ selectClauses mapping b, ∀ step ∈ c.relations, step.relation.target ≠ b.model

/-- A class both sets of filters join is joined by one relationship, and a parameter both
bind has one value. -/
structure Compatible (left right : QueryBuilder M Row Val Arg) : Prop where
  joins : ∀ step step', JoinedBy (selectClauses mapping left) step →
    JoinedBy (selectClauses mapping right) step' →
    step.relation.target = step'.relation.target → step = step'
  binds : ∀ name value value', boundTo (selectClauses mapping left) name = some value →
    boundTo (selectClauses mapping right) name = some value' → value = value'

end Statements

section Merging

variable {mapping : Mapping M Row Val Arg} {b : QueryBuilder M Row Val Arg}
  {left right both : FilterDict Arg}

theorem merged_selectClauses (mapping : Mapping M Row Val Arg) (b : QueryBuilder M Row Val Arg)
    (h : Merged left right both) :
    Merged (selectClauses mapping { b with filters := left })
      (selectClauses mapping { b with filters := right })
      (selectClauses mapping { b with filters := both }) := by
  have hprepared := (h.filterMap fun filter => filter.2.map fun val => (filter.1, val)).filterMap
    (prepare mapping.schema b.model b.annotations)
  exact (hprepared.filter _).append (hprepared.filter _)

theorem boundTo_merged {clauses clauses' all : List (Clause M Row Val Arg)}
    (h : Merged clauses clauses' all) {name : String} {value : Arg}
    (hvalue : boundTo all name = some value) :
    boundTo clauses name = some value ∨ boundTo clauses' name = some value := by
  unfold boundTo at hvalue ⊢
  rw [Dict.get_ofList] at hvalue ⊢
  rw [Dict.get_ofList]
  obtain ⟨bind, hbind, rfl⟩ := Option.map_eq_some_iff.mp hvalue
  rcases (h.flatMap Clause.binds).reverse.find? hbind with hfound | hfound
  · exact .inl (by rw [hfound]; rfl)
  · exact .inr (by rw [hfound]; rfl)

variable [DecidableEq M] [DecidableEq Val] {db : Db M Row}

theorem mem_selectJoins {j : Join M Row} :
    j ∈ selectJoins mapping b db ↔
      ∃ step, JoinedBy (selectClauses mapping b) step ∧ step.join mapping.schema db = j := by
  have hpaths : ((selectClauses mapping b).map fun c => joinsOf mapping.schema db c.relations) =
      ((selectClauses mapping b).map Clause.relations).map
        (List.map (Step.join mapping.schema db)) := by
    rw [List.map_map]
    rfl
  unfold selectJoins JoinedBy
  rw [mem_joinPaths_iff, hpaths, ← List.map_flatten, List.find?_map, Option.map_eq_some_iff,
    ← List.flatMap_def]
  refine exists_congr fun step => and_congr_left ?_
  rintro rfl
  rfl

omit [DecidableEq Val] in
theorem joinedBy_unique {clauses : List (Clause M Row Val Arg)} {step step' : Step M}
    (h : JoinedBy clauses step) (h' : JoinedBy clauses step')
    (htarget : step.relation.target = step'.relation.target) : step = step' := by
  unfold JoinedBy at h h'
  rw [htarget, h'] at h
  exact (Option.some.inj h).symm

omit [DecidableEq Val] in
theorem exists_joinedBy {clauses : List (Clause M Row Val Arg)} {step : Step M}
    (h : step ∈ clauses.flatMap Clause.relations) :
    ∃ step', JoinedBy clauses step' ∧ step'.relation.target = step.relation.target := by
  cases hfind : (clauses.flatMap Clause.relations).find? (fun step' =>
      step'.relation.target = step.relation.target) with
  | none => exact absurd (List.find?_eq_none.mp hfind step h) (by simp)
  | some step' =>
      have htarget : step'.relation.target = step.relation.target := by
        simpa using List.find?_some hfind
      refine ⟨step', ?_, htarget⟩
      unfold JoinedBy
      rw [htarget, hfind]

theorem target_mem_selectJoins {m : M} :
    m ∈ (selectJoins mapping b db).map Join.target ↔
      ∃ c ∈ selectClauses mapping b, ∃ step ∈ c.relations, step.relation.target = m := by
  constructor
  · intro hmem
    obtain ⟨j, hj, rfl⟩ := List.mem_map.mp hmem
    obtain ⟨step, hstep, rfl⟩ := mem_selectJoins.mp hj
    obtain ⟨c, hc, hstep⟩ := List.mem_flatMap.mp (List.mem_of_find?_eq_some hstep)
    exact ⟨c, hc, step, hstep, rfl⟩
  · rintro ⟨c, hc, step, hstep, rfl⟩
    obtain ⟨j, hj, htarget⟩ : ∃ j ∈ selectJoins mapping b db,
        j.target = (step.join mapping.schema db).target :=
      exists_joinPaths (List.mem_map_of_mem hc) (List.mem_map_of_mem hstep)
    exact List.mem_map.mpr ⟨j, hj, htarget⟩

theorem accepted_iff :
    Accepted mapping db b ↔ Builds mapping b ∧ eagerLoads mapping b := by
  unfold Accepted
  simp only [fetch_eq_ok, exists_and_right]
  refine and_congr_left fun _ => ⟨?_, ?_⟩
  · rintro ⟨rows, h⟩
    have hprepared := execute_prepared h
    refine ⟨?_, ?_, builds_of_prepareQuery hprepared, fun c hc step hstep heq => ?_⟩
    · by_contra hcontext
      simp [prepareQuery, hcontext] at hprepared
    · intro filter hfilter hreserved
      have hany : (b.filters.any fun filter => filter.1 ∈ reserved) = true :=
        List.any_eq_true.mpr ⟨filter, hfilter, by simpa using hreserved⟩
      unfold prepareQuery at hprepared
      split_ifs at hprepared
    · refine selectJoins_root h c hc (List.mem_map.mpr ⟨step.join mapping.schema db, ?_, heq⟩)
      exact List.mem_map_of_mem hstep
  · rintro ⟨hcontext, hreserved, hbuilds, hroot⟩
    have hany : (b.filters.any fun filter => filter.1 ∈ reserved) = false := by
      rw [List.any_eq_false]
      simpa using hreserved
    have hall : (selectClauses mapping b).all (Clause.builds mapping.comparison) = true :=
      List.all_eq_true.mpr hbuilds
    have hjoined : b.model ∉ (selectJoins mapping b db).map Join.target := by
      rw [target_mem_selectJoins]
      rintro ⟨c, hc, step, hstep, heq⟩
      exact hroot c hc step hstep heq
    have hprepared : prepareQuery mapping b = .ok (selectClauses mapping b) := by
      simp [prepareQuery, hcontext, hany, hall]
    unfold execute
    rw [hprepared]
    exact ⟨_, if_neg hjoined⟩

omit [DecidableEq M] [DecidableEq Val] in
theorem builds_merged (h : Merged left right both) :
    Builds mapping { b with filters := both } ↔
      Builds mapping { b with filters := left } ∧ Builds mapping { b with filters := right } := by
  have hclauses := merged_selectClauses mapping b h
  constructor
  · rintro ⟨hfresh, hfree, hbuilds, hroot⟩
    simp only [h.mem_iff, hclauses.mem_iff, or_imp, forall_and] at hfree hbuilds hroot
    exact ⟨⟨hfresh, hfree.1, hbuilds.1, hroot.1⟩, ⟨hfresh, hfree.2, hbuilds.2, hroot.2⟩⟩
  · rintro ⟨hleft, hright⟩
    refine ⟨hleft.fresh, fun filter hfilter => ?_, fun c hc => ?_, fun c hc => ?_⟩
    · exact (h.mem_iff.mp hfilter).elim (hleft.free filter) (hright.free filter)
    · exact (hclauses.mem_iff.mp hc).elim (hleft.builds c) (hright.builds c)
    · exact (hclauses.mem_iff.mp hc).elim (hleft.root c) (hright.root c)

/-- The owner of a clause is the queried class or a joined one. -/
theorem owner_joined {c : Clause M Row Val Arg} (hc : c ∈ selectClauses mapping b) :
    c.owner b.model = b.model ∨
      c.owner b.model ∈ (selectJoins mapping b db).map Join.target := by
  rw [← (leads_of_mem db hc).2]
  refine (endOf_mem b.model _).imp_right fun hmem => ?_
  obtain ⟨j, hj, htarget⟩ := List.mem_map.mp hmem
  obtain ⟨step, hstep, rfl⟩ := List.mem_map.mp hj
  exact target_mem_selectJoins.mpr ⟨c, hc, step, hstep, htarget⟩

theorem selects_iff {row : Row} :
    Selects mapping db b row ↔ Accepted mapping db b ∧ row ∈ db b.model ∧
      ∃ env, Fits db b.model row (selectJoins mapping b db) env ∧
        ∀ c ∈ selectClauses mapping b, ∃ other, env (c.owner b.model) = some other ∧
          c.holds mapping.schema mapping.comparison db (selectBinds mapping b) row other := by
  constructor
  · rintro ⟨rows, hrows, hrow⟩
    obtain ⟨hmem, env, hkept, hjoins, hall⟩ := (mem_execute (fetch_eq_ok.mp hrows).1).mp hrow
    exact ⟨⟨rows, hrows⟩, hmem, env, ⟨hkept, hjoins⟩, clausesHold_iff.mp hall⟩
  · rintro ⟨⟨rows, hrows⟩, hmem, env, ⟨hkept, hjoins⟩, hall⟩
    exact ⟨rows, hrows, (mem_execute (fetch_eq_ok.mp hrows).1).mpr
      ⟨hmem, env, hkept, hjoins, clausesHold_iff.mpr hall⟩⟩

omit [DecidableEq M] [DecidableEq Val] in
theorem exists_boundTo {clauses : List (Clause M Row Val Arg)} {bind : String × Arg}
    (h : bind ∈ clauses.flatMap Clause.binds) : ∃ value, boundTo clauses bind.1 = some value :=
  Dict.get_ofList_of_mem h

omit [DecidableEq M] in
/-- A clause has the same values in both statements when its parameters have. -/
theorem holds_both {b b' : QueryBuilder M Row Val Arg} {c : Clause M Row Val Arg}
    (hc : c ∈ selectClauses mapping b) (hc' : c ∈ selectClauses mapping b')
    (hbound : ∀ name value, boundTo (selectClauses mapping b) name = some value →
      boundTo (selectClauses mapping b') name = some value) (root row : Row) :
    c.holds mapping.schema mapping.comparison db (selectBinds mapping b) root row =
      c.holds mapping.schema mapping.comparison db (selectBinds mapping b') root row := by
  refine holds_congr (fun bind hbind => ?_) root row
  have hmem : bind ∈ (selectClauses mapping b).flatMap Clause.binds :=
    List.mem_flatMap.mpr ⟨c, hc, hbind⟩
  have hmem' : bind ∈ (selectClauses mapping b').flatMap Clause.binds :=
    List.mem_flatMap.mpr ⟨c, hc', hbind⟩
  obtain ⟨value, hvalue⟩ := exists_boundTo hmem
  have hvalue' := hbound bind.1 value hvalue
  unfold boundTo at hvalue hvalue'
  unfold selectBinds
  rw [boundValue_append hmem, boundValue_append hmem', boundValue, boundValue, hvalue, hvalue']

theorem model_notMem (h : Accepted mapping db b) :
    b.model ∉ (selectJoins mapping b db).map Join.target := by
  rw [target_mem_selectJoins]
  rintro ⟨c, hc, step, hstep, heq⟩
  exact (accepted_iff.mp h).1.root c hc step hstep heq

theorem scoped_of_accepted (h : Accepted mapping db b) :
    Scoped [b.model] (selectJoins mapping b db) := by
  obtain ⟨rows, hrows⟩ := h
  exact scoped_selectJoins (fetch_eq_ok.mp hrows).1

theorem selects_part {fewer : FilterDict Arg}
    (hfewer : Accepted mapping db { b with filters := fewer })
    (hclauses : ∀ c ∈ selectClauses mapping { b with filters := fewer },
      c ∈ selectClauses mapping { b with filters := both })
    (hjoins : ∀ j ∈ selectJoins mapping { b with filters := fewer } db,
      j ∈ selectJoins mapping { b with filters := both } db)
    (hbound : ∀ name value,
      boundTo (selectClauses mapping { b with filters := fewer }) name = some value →
      boundTo (selectClauses mapping { b with filters := both }) name = some value) {row : Row}
    (h : Selects mapping db { b with filters := both } row) :
    Selects mapping db { b with filters := fewer } row := by
  obtain ⟨hall, hrow, env, hfits, hholds⟩ := selects_iff.mp h
  have hscoped : Scoped [b.model] (selectJoins mapping { b with filters := fewer } db) :=
    scoped_of_accepted hfewer
  obtain ⟨env', hfits', hsame⟩ := hfits.part (model_notMem hall) hscoped hjoins
  refine selects_iff.mpr ⟨hfewer, hrow, env', hfits', fun c hc => ?_⟩
  obtain ⟨other, hother, htrue⟩ := hholds c (hclauses c hc)
  refine ⟨other, (hsame _ (owner_joined hc)).trans hother, ?_⟩
  rwa [holds_both hc (hclauses c hc) hbound]

section Compatible

variable (h : Merged left right both)
  (hcompatible : Compatible mapping { b with filters := left } { b with filters := right })

include h hcompatible

theorem mem_joins_both {j : Join M Row} :
    j ∈ selectJoins mapping { b with filters := both } db ↔
      j ∈ selectJoins mapping { b with filters := left } db ∨
        j ∈ selectJoins mapping { b with filters := right } db := by
  have hclauses := merged_selectClauses mapping b h
  have hfirst : ∀ step, JoinedBy (selectClauses mapping { b with filters := both }) step →
      JoinedBy (selectClauses mapping { b with filters := left }) step ∨
        JoinedBy (selectClauses mapping { b with filters := right }) step :=
    fun step hstep => (hclauses.flatMap Clause.relations).find? hstep
  have hboth : ∀ step, JoinedBy (selectClauses mapping { b with filters := left }) step ∨
      JoinedBy (selectClauses mapping { b with filters := right }) step →
      JoinedBy (selectClauses mapping { b with filters := both }) step := by
    intro step hstep
    -- the class is joined by some relationship, and both sets have no other for it
    have hmem : step ∈ (selectClauses mapping { b with filters := both }).flatMap
        Clause.relations := by
      rw [(hclauses.flatMap Clause.relations).mem_iff]
      exact hstep.imp List.mem_of_find?_eq_some List.mem_of_find?_eq_some
    obtain ⟨step', hstep', htarget⟩ := exists_joinedBy hmem
    suffices heq : step' = step from heq ▸ hstep'
    rcases hfirst step' hstep' with hleft | hright <;> rcases hstep with hstep | hstep
    · exact joinedBy_unique hleft hstep htarget
    · exact hcompatible.joins step' step hleft hstep htarget
    · exact (hcompatible.joins step step' hstep hright htarget.symm).symm
    · exact joinedBy_unique hright hstep htarget
  rw [mem_selectJoins, mem_selectJoins, mem_selectJoins, ← exists_or]
  refine exists_congr fun step => ?_
  rw [← or_and_right]
  exact and_congr_left fun _ => ⟨hfirst step, hboth step⟩

omit [DecidableEq Val] in
theorem boundTo_both {name : String} {value : Arg}
    (hvalue : boundTo (selectClauses mapping { b with filters := left }) name = some value ∨
      boundTo (selectClauses mapping { b with filters := right }) name = some value) :
    boundTo (selectClauses mapping { b with filters := both }) name = some value := by
  have hclauses := merged_selectClauses mapping b h
  have hmem : ∃ bind ∈ (selectClauses mapping { b with filters := both }).flatMap Clause.binds,
      bind.1 = name := by
    have hbinds := hclauses.flatMap Clause.binds
    rcases hvalue with hvalue | hvalue <;>
      obtain ⟨bind, hbind, hname, -⟩ := Dict.get_ofList_eq_some hvalue
    · exact ⟨bind, hbinds.mem_iff.mpr (.inl hbind), hname⟩
    · exact ⟨bind, hbinds.mem_iff.mpr (.inr hbind), hname⟩
  obtain ⟨bind, hbind, rfl⟩ := hmem
  obtain ⟨value', hboth⟩ := exists_boundTo hbind
  rw [hboth]
  rcases boundTo_merged hclauses hboth with hvalue' | hvalue' <;> rcases hvalue with hvalue | hvalue
  · exact hvalue'.symm.trans hvalue
  · exact congrArg some (hcompatible.binds _ _ _ hvalue' hvalue)
  · exact congrArg some (hcompatible.binds _ _ _ hvalue hvalue').symm
  · exact hvalue'.symm.trans hvalue

/-- The rows that `row` is joined with on the two sides are the same where both sides join
a class, so together they meet the clauses of both. -/
theorem selects_both
    (htoOne : ∀ c ∈ selectClauses mapping { b with filters := left }, ∀ step ∈ c.relations,
      Functional db (step.join mapping.schema db))
    (haccepted : Accepted mapping db { b with filters := both }) {row : Row}
    (hleft : Selects mapping db { b with filters := left } row)
    (hright : Selects mapping db { b with filters := right } row) :
    Selects mapping db { b with filters := both } row := by
  obtain ⟨hside, hrow, env, hfits, hholds⟩ := selects_iff.mp hleft
  obtain ⟨hside', -, env', hfits', hholds'⟩ := selects_iff.mp hright
  have hclauses := merged_selectClauses mapping b h
  have hsame : ∀ j ∈ selectJoins mapping { b with filters := left } db,
      ∀ j' ∈ selectJoins mapping { b with filters := right } db, j.target = j'.target →
        j = j' := by
    intro j hj j' hj' htarget
    obtain ⟨step, hstep, rfl⟩ := mem_selectJoins.mp hj
    obtain ⟨step', hstep', rfl⟩ := mem_selectJoins.mp hj'
    rw [hcompatible.joins step step' hstep hstep' htarget]
  have hfunctional : ∀ j ∈ selectJoins mapping { b with filters := left } db,
      Functional db j := by
    intro j hj
    obtain ⟨step, hstep, rfl⟩ := mem_selectJoins.mp hj
    obtain ⟨c, hc, hstep⟩ := List.mem_flatMap.mp (List.mem_of_find?_eq_some hstep)
    exact htoOne c hc step hstep
  have hroot := model_notMem hside
  have hroot' := model_notMem hside'
  obtain ⟨joint, hjoint, hextends, hextends'⟩ := hfits.union hfits'
    (fun n hn hn' => hfits.agree hfits' hroot hroot' (scoped_of_accepted hside)
      (scoped_of_accepted hside') hsame hfunctional hn hn') hroot hroot'
    (fun j => mem_joins_both h hcompatible)
  refine selects_iff.mpr ⟨haccepted, hrow, joint, hjoint, fun c hc => ?_⟩
  rcases hclauses.mem_iff.mp hc with hmem | hmem
  · obtain ⟨other, hother, htrue⟩ := hholds c hmem
    refine ⟨other, hextends _ _ hother, ?_⟩
    rwa [← holds_both hmem hc fun _ _ hvalue => boundTo_both h hcompatible (.inl hvalue)]
  · obtain ⟨other, hother, htrue⟩ := hholds' c hmem
    refine ⟨other, hextends' _ _ hother, ?_⟩
    rwa [← holds_both hmem hc fun _ _ hvalue => boundTo_both h hcompatible (.inr hvalue)]

/-- Sets of filters that agree on joins and parameters select together what both select,
over to-one relationships, exactly when the statement of both breaks no chain of
`contains_eager` but those that one of the sets breaks alone. -/
theorem conjoins_iff
    (htoOne : ∀ c ∈ selectClauses mapping { b with filters := both }, ∀ step ∈ c.relations,
      Functional db (step.join mapping.schema db)) :
    Conjoins mapping db { b with filters := both } { b with filters := left }
        { b with filters := right } ↔
      (Builds mapping { b with filters := both } →
        (eagerLoads mapping { b with filters := both } ↔
          eagerLoads mapping { b with filters := left } ∧
            eagerLoads mapping { b with filters := right })) := by
  constructor
  · intro hconjoins hbuilds
    obtain ⟨hleft, hright⟩ := (builds_merged h).mp hbuilds
    have haccepted := hconjoins.accepted
    simpa only [accepted_iff, hbuilds, hleft, hright, true_and] using haccepted
  · intro hchains
    have haccepted : Accepted mapping db { b with filters := both } ↔
        Accepted mapping db { b with filters := left } ∧
          Accepted mapping db { b with filters := right } := by
      rw [accepted_iff, accepted_iff, accepted_iff, and_and_and_comm, ← builds_merged h]
      exact and_congr_right hchains
    have hclauses := merged_selectClauses mapping b h
    refine ⟨haccepted, fun row => ⟨fun hboth => ?_, fun hsides => ?_⟩⟩
    · obtain ⟨hleft, hright⟩ := haccepted.mp (selects_iff.mp hboth).1
      constructor
      · exact selects_part hleft (fun c hc => hclauses.mem_iff.mpr (.inl hc))
          (fun j hj => (mem_joins_both h hcompatible).mpr (.inl hj))
          (fun _ _ hvalue => boundTo_both h hcompatible (.inl hvalue)) hboth
      · exact selects_part hright (fun c hc => hclauses.mem_iff.mpr (.inr hc))
          (fun j hj => (mem_joins_both h hcompatible).mpr (.inr hj))
          (fun _ _ hvalue => boundTo_both h hcompatible (.inr hvalue)) hboth
    · obtain ⟨hleft, hright⟩ := hsides
      have hside := (selects_iff.mp hleft).1
      have hside' := (selects_iff.mp hright).1
      exact selects_both h hcompatible (fun c hc => htoOne c (hclauses.mem_iff.mpr (.inl hc)))
        (haccepted.mpr ⟨hside, hside'⟩) hleft hright

end Compatible

end Merging

/-! ## The tickets of an order -/

section Tickets

open TicketBooking.Database.Models TicketBooking.Query.Comparisons

def movedTicket : Rows
  | .ticketCategory =>
      [.ticketCategory ⟨1, 1, "parterre", 10, 5⟩, .ticketCategory ⟨2, 1, "balcony", 10, 5⟩]
  | .orderItem => [.orderItem ⟨1, 1, 2, 1, none⟩]
  | .ticket => [.ticket ⟨1, 1, some 1, .reserved⟩]
  | _ => []

def tickets (filters : List (String × Value)) : ModelQuery := filter .ticket filters

def inParterre : List (String × Value) := [("category__name", .text "parterre")]

def ofFirstOrder : List (String × Value) := [("order_item__order_id", .int 1)]

theorem keyed_movedTicket : Mutations.Keyed (mapping 0).schema movedTicket := by
  intro model
  cases model <;> decide

theorem parterre_of_first_order :
    Conjoins (mapping 0) movedTicket (tickets (inParterre ++ ofFirstOrder)) (tickets inParterre)
      (tickets ofFirstOrder) := by
  have hcategory : ∀ step, JoinedBy (selectClauses (mapping 0) (tickets inParterre)) step →
      step.relation.target = .ticketCategory := by
    intro step hstep
    have hmem := List.mem_of_find?_eq_some hstep
    rw [List.mem_singleton.mp hmem]
  have hitem : ∀ step, JoinedBy (selectClauses (mapping 0) (tickets ofFirstOrder)) step →
      step.relation.target = .orderItem := by
    intro step hstep
    have hmem := List.mem_of_find?_eq_some hstep
    rw [List.mem_singleton.mp hmem]
  refine (conjoins_iff (b := tickets []) (Merged.one_after_other (tickets inParterre).filters
    (tickets ofFirstOrder).filters) ⟨?_, ?_⟩ ?_).mpr fun _ => by decide
  · intro step step' hstep hstep' htarget
    rw [hcategory step hstep, hitem step' hstep'] at htarget
    cases htarget
  · intro name value value' hvalue
    cases hvalue
  · have hkeys : ∀ c ∈ selectClauses (mapping 0) (tickets (inParterre ++ ofFirstOrder)),
        ∀ step ∈ c.relations, step.relation.columns.map Prod.snd = ["id"] := by decide
    intro c hc step hstep
    refine Mutations.functional_of_toOne keyed_movedTicket fun key hkey => ?_
    rw [hkeys c hc step hstep]
    exact hkey

/-- The item's category is never joined. -/
theorem balcony_item_lost :
    ¬ Conjoins (mapping 0) movedTicket
      (tickets [("category__name", .text "parterre"),
        ("order_item__category__name", .text "balcony")])
      (tickets [("category__name", .text "parterre")])
      (tickets [("order_item__category__name", .text "balcony")]) := by
  intro h
  have hboth : Selects (mapping 0) movedTicket
      (tickets [("category__name", .text "parterre"),
        ("order_item__category__name", .text "balcony")]) (.ticket ⟨1, 1, some 1, .reserved⟩) :=
    (h.selected _).mpr ⟨⟨_, rfl, by decide⟩, ⟨_, rfl, by decide⟩⟩
  obtain ⟨rows, hrows, hrow⟩ := hboth
  cases hrows
  revert hrow
  decide

def ofFirstEvent : List (String × Value) := [("category__event__id", .int 1)]

-- behind the category's name, the chain to the event starts at the category
example : ¬ eagerLoads (mapping 0) (tickets (inParterre ++ ofFirstEvent)) ∧
    eagerLoads (mapping 0) (tickets (ofFirstEvent ++ inParterre)) := by
  decide

end Tickets

end TicketBooking.Query.Conjunction
