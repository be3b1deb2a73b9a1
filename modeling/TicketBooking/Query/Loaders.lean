import TicketBooking.Database.Models
import TicketBooking.Library.Outcomes
/-!
# Loader options

`with_joined` and `with_selectin` make a chain of loaders out of a path of
relations.  The first takes the class of the next relation from the relation
before it, the second from the first name of the path, looked up again on the
class it has come to.
-/

namespace TicketBooking.Query.Loaders

open TicketBooking.Library.Outcomes
open TicketBooking.Query.Builder TicketBooking.Query.Filters TicketBooking.Query.Operators

variable {M Row Val Arg : Type}

/-! ## Attributes and loaders -/

/-- `getattr(model, key)`: an attribute knows the class it was taken from. -/
structure InstrumentedAttribute (M : Type) where
  parent : M
  key : String
  property : Attribute M

inductive Strategy
  | joined
  | selectin
  deriving DecidableEq, Repr

structure LoadElement (M : Type) where
  strategy : Strategy
  attr : InstrumentedAttribute M

/-- A loader option: the loaders one after the other. -/
abbrev Load (M : Type) := List (LoadElement M)

/-- A query with its loader options. -/
structure LoadingQuery (M Row Val Arg : Type) where
  query : QueryBuilder M Row Val Arg
  options : List (Load M) := []

def targetOf : Attribute M → Option M
  | .relation rel => some rel.target
  | .column _ => none

/-- `prop.mapper.class_`; a column has no mapper. -/
def mapperClass (prop : Attribute M) : Except QueryError M :=
  match targetOf prop with
  | some model => .ok model
  | none => .error .attributeError

def endOf (opt : Load M) : Option M := opt.getLast?.bind fun element =>
  targetOf element.attr.property

section Options

variable (schema : Schema M Row Val)

def getattr (model : M) (key : String) : Except QueryError (InstrumentedAttribute M) :=
  match schema.attr model key with
  | some property => .ok ⟨model, key, property⟩
  | none => .error .attributeError

variable [DecidableEq M]

/-- `opt.joinedload(attr)`: the attribute must be of the class the chain has come to. -/
def joinedload (opt : Load M) (attr : InstrumentedAttribute M) : Except QueryError (Load M) :=
  if endOf opt = some attr.parent then .ok (opt ++ [⟨.joined, attr⟩]) else .error .refused

/-! ## The two methods -/

/-- The loop of `with_joined`, with `opt` and `prop`. -/
def joinedStep (state : Load M × Attribute M) (part : String) :
    Except QueryError (Load M × Attribute M) :=
  (mapperClass state.2).bind fun parentModel =>
    (getattr schema parentModel part).bind fun nextAttr =>
      (joinedload state.1 nextAttr).map fun opt => (opt, nextAttr.property)

def joinedOption (currentModel : M) (rel : String) : Except QueryError (Load M) :=
  let parts := components rel
  (getattr schema currentModel (parts.head (components_ne_nil rel))).bind fun modelAttr =>
    (parts.tail.foldlM (joinedStep schema) ([⟨.joined, modelAttr⟩], modelAttr.property)).map
      Prod.fst

/-- The loop of `with_selectin`, with `opt` and `parent_model`; `first` is `parts[0]`. -/
def selectinStep (first : String) (state : Load M × M) (part : String) :
    Except QueryError (Load M × M) :=
  (getattr schema state.2 first).bind fun attr =>
    (mapperClass attr.property).bind fun parentModel =>
      (getattr schema parentModel part).bind fun nextAttr =>
        (joinedload state.1 nextAttr).map fun opt => (opt, parentModel)

def selectinOption (currentModel : M) (rel : String) : Except QueryError (Load M) :=
  let parts := components rel
  let first := parts.head (components_ne_nil rel)
  (getattr schema currentModel first).bind fun modelAttr =>
    (parts.tail.foldlM (selectinStep schema first) ([⟨.selectin, modelAttr⟩], currentModel)).map
      Prod.fst

def LoadingQuery.withJoined (q : LoadingQuery M Row Val Arg) (relations : List String) :
    Except QueryError (LoadingQuery M Row Val Arg) :=
  (relations.mapM (joinedOption schema q.query.model)).map fun options =>
    { q with options := q.options ++ options }

def LoadingQuery.withSelectin (q : LoadingQuery M Row Val Arg) (relations : List String) :
    Except QueryError (LoadingQuery M Row Val Arg) :=
  (relations.mapM (selectinOption schema q.query.model)).map fun options =>
    { q with options := q.options ++ options }

end Options

/-! ## Relations of a path -/

section Paths

variable (schema : Schema M Row Val)

/-- The relations the names of a path stand for, each on the class the one before
it leads to. -/
def relationsOf : M → List String → Option (List (InstrumentedAttribute M))
  | _, [] => some []
  | model, name :: names =>
      match schema.attr model name with
      | some (.relation rel) =>
          (relationsOf rel.target names).map fun rest => ⟨model, name, .relation rel⟩ :: rest
      | _ => none

def Names (model : M) (rel : String) (chain : List (InstrumentedAttribute M)) : Prop :=
  relationsOf schema model (components rel) = some chain

def leadsTo (model : M) (name : String) : Option M := (schema.attr model name).bind targetOf

/-- Every relation but the last leads where the first one's name leads from its class. -/
def FirstNameLeads (chain : List (InstrumentedAttribute M)) : Prop :=
  ∀ first ∈ chain.head?, ∀ attr ∈ chain.dropLast,
    leadsTo schema attr.parent first.key = targetOf attr.property

variable {schema}

theorem relationsOf_cons {model : M} {name : String} {names : List String}
    {chain : List (InstrumentedAttribute M)}
    (h : relationsOf schema model (name :: names) = some chain) :
    ∃ rel rest, schema.attr model name = some (.relation rel) ∧
      relationsOf schema rel.target names = some rest ∧
      chain = ⟨model, name, .relation rel⟩ :: rest := by
  unfold relationsOf at h
  split at h
  · rename_i rel hattr
    obtain ⟨rest, hrest, rfl⟩ := Option.map_eq_some_iff.mp h
    exact ⟨rel, rest, hattr, hrest, rfl⟩
  · cases h

theorem firstNameLeads_of_short {model : M} {names : List String}
    {chain : List (InstrumentedAttribute M)} (h : relationsOf schema model names = some chain)
    (hshort : chain.length ≤ 2) : FirstNameLeads schema chain := by
  cases names with
  | nil =>
      cases h
      exact fun first hfirst => by cases hfirst
  | cons name names =>
      obtain ⟨rel, rest, hattr, -, rfl⟩ := relationsOf_cons h
      intro first hfirst attr hmem
      cases hfirst
      match rest with
      | [] => cases hmem
      | [last] =>
          rw [List.mem_singleton.mp hmem, leadsTo, hattr]
          rfl
      | _ :: _ :: _ => simp at hshort

end Paths

/-! ## The chains of the two loops -/

def chainOf (opt : Load M) : List (InstrumentedAttribute M) := opt.map LoadElement.attr

theorem endOf_append (opt : Load M) (element : LoadElement M) :
    endOf (opt ++ [element]) = targetOf element.attr.property := by
  simp [endOf]

section Loops

variable {schema : Schema M Row Val} {model : M} {name : String} {names : List String}
  {rel : Relation M} {opt opt' : Load M} {chain : List (InstrumentedAttribute M)}

theorem getattr_eq_ok {attr : InstrumentedAttribute M} :
    getattr schema model name = .ok attr ↔
      ∃ property, schema.attr model name = some property ∧ attr = ⟨model, name, property⟩ := by
  unfold getattr
  cases schema.attr model name with
  | none => simp
  | some property => simp [eq_comm]

theorem mapperClass_eq_ok {prop : Attribute M} :
    mapperClass prop = .ok model ↔ targetOf prop = some model := by
  unfold mapperClass
  cases targetOf prop <;> simp

variable [DecidableEq M]

theorem joinedload_eq_ok {attr : InstrumentedAttribute M} :
    joinedload opt attr = .ok opt' ↔
      endOf opt = some attr.parent ∧ opt' = opt ++ [⟨.joined, attr⟩] := by
  unfold joinedload
  split_ifs with hend
  · simp [hend, eq_comm]
  · simp [hend]

/-- A relation of the class the one before it leads to is appended. -/
theorem joinedStep_relation {prop : Attribute M} (hprop : targetOf prop = some model)
    (hend : endOf opt = some model) (hattr : schema.attr model name = some (.relation rel)) :
    joinedStep schema (opt, prop) name =
      .ok (opt ++ [⟨.joined, ⟨model, name, .relation rel⟩⟩], .relation rel) := by
  have hnext : getattr schema model name = .ok ⟨model, name, .relation rel⟩ :=
    getattr_eq_ok.mpr ⟨_, hattr, rfl⟩
  have hload : joinedload opt ⟨model, name, .relation rel⟩ =
      .ok (opt ++ [⟨.joined, ⟨model, name, .relation rel⟩⟩]) := joinedload_eq_ok.mpr ⟨hend, rfl⟩
  rw [joinedStep, mapperClass_eq_ok.mpr hprop, Except.bind, hnext, Except.bind, hload]
  rfl

/-- The loop of `with_joined` appends the relations the names stand for. -/
theorem foldlM_joinedStep (opt : Load M) (prop : Attribute M) (hprop : targetOf prop = some model)
    (hend : endOf opt = some model) (h : relationsOf schema model names = some chain) :
    ∃ state, names.foldlM (joinedStep schema) (opt, prop) = .ok state ∧
      chainOf state.1 = chainOf opt ++ chain := by
  induction names generalizing model opt prop chain with
  | nil =>
      cases h
      exact ⟨(opt, prop), rfl, (List.append_nil _).symm⟩
  | cons name names ih =>
      obtain ⟨rel, rest, hattr, hrest, rfl⟩ := relationsOf_cons h
      obtain ⟨state, hstate, hchain⟩ := ih _ (.relation rel) rfl
        (endOf_append opt ⟨.joined, ⟨model, name, .relation rel⟩⟩) hrest
      refine ⟨state, ?_, ?_⟩
      · rw [List.foldlM_cons, joinedStep_relation hprop hend hattr]
        exact hstate
      · rw [hchain]
        simp [chainOf]

/-- The first name leads where the chain has come to. -/
theorem selectinStep_relation {first : String} {parent : M}
    (hfirst : leadsTo schema parent first = some model) (hend : endOf opt = some model)
    (hattr : schema.attr model name = some (.relation rel)) :
    selectinStep schema first (opt, parent) name =
      .ok (opt ++ [⟨.joined, ⟨model, name, .relation rel⟩⟩], model) := by
  obtain ⟨property, hproperty, htarget⟩ := Option.bind_eq_some_iff.mp hfirst
  have hattr' : getattr schema parent first = .ok ⟨parent, first, property⟩ :=
    getattr_eq_ok.mpr ⟨_, hproperty, rfl⟩
  have hnext : getattr schema model name = .ok ⟨model, name, .relation rel⟩ :=
    getattr_eq_ok.mpr ⟨_, hattr, rfl⟩
  have hload : joinedload opt ⟨model, name, .relation rel⟩ =
      .ok (opt ++ [⟨.joined, ⟨model, name, .relation rel⟩⟩]) := joinedload_eq_ok.mpr ⟨hend, rfl⟩
  rw [selectinStep, hattr', Except.bind, mapperClass_eq_ok.mpr htarget, Except.bind, hnext,
    Except.bind, hload]
  rfl

/-- Nothing can be appended unless it does. -/
theorem leadsTo_of_selectinStep {first : String} {parent : M} {state : Load M × M}
    (h : selectinStep schema first (opt, parent) name = .ok state) (hend : endOf opt = some model) :
    leadsTo schema parent first = some model := by
  obtain ⟨attr, hattr, h⟩ := bind_eq_ok h
  obtain ⟨parentModel, hclass, h⟩ := bind_eq_ok h
  obtain ⟨nextAttr, hnext, h⟩ := bind_eq_ok h
  obtain ⟨opt', hload, -⟩ := map_eq_ok h
  obtain ⟨property, hproperty, rfl⟩ := getattr_eq_ok.mp hattr
  obtain ⟨_, -, rfl⟩ := getattr_eq_ok.mp hnext
  have hparent : parentModel = model :=
    Option.some.inj ((joinedload_eq_ok.mp hload).1.symm.trans hend)
  subst hparent
  rw [leadsTo, hproperty]
  exact mapperClass_eq_ok.mp hclass

/-- What the loop of `with_selectin` needs to append the relations. -/
def Followed (schema : Schema M Row Val) (first : String) (parent model : M)
    (chain : List (InstrumentedAttribute M)) : Prop :=
  chain ≠ [] → leadsTo schema parent first = some model ∧
    ∀ attr ∈ chain.dropLast, leadsTo schema attr.parent first = targetOf attr.property

omit [DecidableEq M] in
theorem followed_cons {first : String} {parent : M} {rest : List (InstrumentedAttribute M)}
    (hfirst : leadsTo schema parent first = some model) :
    Followed schema first parent model (⟨model, name, .relation rel⟩ :: rest) ↔
      Followed schema first model rel.target rest := by
  cases rest with
  | nil => exact ⟨fun _ hne => absurd rfl hne, fun _ _ => ⟨hfirst, fun _ h => by cases h⟩⟩
  | cons attr rest =>
      unfold Followed
      rw [List.dropLast_cons_of_ne_nil (List.cons_ne_nil _ _), List.forall_mem_cons]
      simp only [ne_eq, reduceCtorEq, not_false_eq_true, forall_const, hfirst, true_and]
      rfl

omit [DecidableEq M] in
theorem followed_iff_firstNameLeads {rest : List (InstrumentedAttribute M)} :
    Followed schema name model rel.target rest ↔
      FirstNameLeads schema (⟨model, name, .relation rel⟩ :: rest) := by
  cases rest with
  | nil => exact ⟨fun _ _ _ _ h => (by cases h), fun _ hne => absurd rfl hne⟩
  | cons attr rest =>
      unfold Followed FirstNameLeads
      rw [List.dropLast_cons_of_ne_nil (List.cons_ne_nil _ _)]
      simp only [List.forall_mem_cons, List.head?_cons, Option.mem_some_iff, forall_eq', ne_eq,
        reduceCtorEq, not_false_eq_true, forall_const]
      rfl

/-- The loop of `with_selectin` appends them when the first name leads along. -/
theorem foldlM_selectinStep_iff (opt : Load M) (first : String) (parent : M)
    (hend : endOf opt = some model) (h : relationsOf schema model names = some chain) :
    (∃ state, names.foldlM (selectinStep schema first) (opt, parent) = .ok state ∧
        chainOf state.1 = chainOf opt ++ chain) ↔ Followed schema first parent model chain := by
  induction names generalizing model opt parent chain with
  | nil =>
      cases h
      exact ⟨fun _ hne => absurd rfl hne, fun _ => ⟨_, rfl, (List.append_nil _).symm⟩⟩
  | cons name names ih =>
      obtain ⟨rel, rest, hattr, hrest, rfl⟩ := relationsOf_cons h
      have happend : ∀ opt' : Load M, chainOf opt' = chainOf opt ++
          ⟨model, name, .relation rel⟩ :: rest ↔ chainOf opt' =
            chainOf (opt ++ [⟨.joined, ⟨model, name, .relation rel⟩⟩]) ++ rest := by
        intro opt'
        simp [chainOf]
      have hlater := ih _ model
        (endOf_append opt ⟨.joined, ⟨model, name, .relation rel⟩⟩) hrest
      by_cases hfirst : leadsTo schema parent first = some model
      · have hstep := selectinStep_relation hfirst hend hattr
        have hloop : (name :: names).foldlM (selectinStep schema first) (opt, parent) =
            names.foldlM (selectinStep schema first)
              (opt ++ [⟨.joined, ⟨model, name, .relation rel⟩⟩], model) := by
          rw [List.foldlM_cons, hstep]
          rfl
        simp only [hloop, happend, hlater]
        exact (followed_cons hfirst).symm
      · refine iff_of_false ?_ fun hfollowed => hfirst (hfollowed (List.cons_ne_nil _ _)).1
        rintro ⟨state, hstate, -⟩
        rw [List.foldlM_cons] at hstate
        obtain ⟨state', hstep, -⟩ := bind_eq_ok hstate
        exact hfirst (leadsTo_of_selectinStep hstep hend)

/-! ## Both methods -/

theorem joinedOption_of_names {path : String} (h : Names schema model path chain) :
    ∃ opt, joinedOption schema model path = .ok opt ∧ chainOf opt = chain := by
  obtain ⟨name, names, hparts⟩ := List.exists_cons_of_ne_nil (components_ne_nil path)
  unfold Names at h
  rw [hparts] at h
  obtain ⟨rel, rest, hattr, hrest, rfl⟩ := relationsOf_cons h
  have hget : getattr schema model name = .ok ⟨model, name, .relation rel⟩ :=
    getattr_eq_ok.mpr ⟨_, hattr, rfl⟩
  obtain ⟨state, hstate, hchain⟩ := foldlM_joinedStep
    [⟨.joined, ⟨model, name, .relation rel⟩⟩] (.relation rel) rfl rfl hrest
  refine ⟨state.1, ?_, hchain⟩
  simp only [joinedOption, hparts, List.head_cons, List.tail_cons, hget, Except.bind, hstate]
  rfl

theorem selectinOption_iff {path : String} (h : Names schema model path chain) :
    (∃ opt, selectinOption schema model path = .ok opt ∧ chainOf opt = chain) ↔
      FirstNameLeads schema chain := by
  obtain ⟨name, names, hparts⟩ := List.exists_cons_of_ne_nil (components_ne_nil path)
  unfold Names at h
  rw [hparts] at h
  obtain ⟨rel, rest, hattr, hrest, rfl⟩ := relationsOf_cons h
  have hget : getattr schema model name = .ok ⟨model, name, .relation rel⟩ :=
    getattr_eq_ok.mpr ⟨_, hattr, rfl⟩
  have hfirst : leadsTo schema model name = some rel.target := by
    rw [leadsTo, hattr]
    rfl
  have hoption : selectinOption schema model path =
      (names.foldlM (selectinStep schema name)
        ([⟨.selectin, ⟨model, name, .relation rel⟩⟩], model)).map Prod.fst := by
    simp only [selectinOption, hparts, List.head_cons, List.tail_cons, hget, Except.bind]
  have hloop := foldlM_selectinStep_iff
    [⟨.selectin, ⟨model, name, .relation rel⟩⟩] name model rfl hrest
  calc (∃ opt, selectinOption schema model path = .ok opt ∧ chainOf opt = _)
      ↔ ∃ state, names.foldlM (selectinStep schema name)
          ([⟨.selectin, ⟨model, name, .relation rel⟩⟩], model) = .ok state ∧
            chainOf state.1 = ⟨model, name, .relation rel⟩ :: rest := by
        rw [hoption]
        constructor
        · rintro ⟨opt, hopt, hchain⟩
          obtain ⟨state, hstate, rfl⟩ := map_eq_ok hopt
          exact ⟨state, hstate, hchain⟩
        · rintro ⟨state, hstate, hchain⟩
          exact ⟨state.1, by rw [hstate]; rfl, hchain⟩
    _ ↔ Followed schema name model rel.target rest := hloop
    _ ↔ FirstNameLeads schema (⟨model, name, .relation rel⟩ :: rest) := by
        exact followed_iff_firstNameLeads

/-- Both methods add a loader option for every path, with its relations as the chain. -/
structure ResolvedAlike (schema : Schema M Row Val) (q : LoadingQuery M Row Val Arg)
    (relations : List String) (chains : List (List (InstrumentedAttribute M))) : Prop where
  joined : ∃ options, q.withJoined schema relations =
    .ok { q with options := q.options ++ options } ∧ options.map chainOf = chains
  selectin : ∃ options, q.withSelectin schema relations =
    .ok { q with options := q.options ++ options } ∧ options.map chainOf = chains

variable {q : LoadingQuery M Row Val Arg} {relations : List String}
  {chains : List (List (InstrumentedAttribute M))}

omit [DecidableEq M] in
theorem options_iff {option : String → Except QueryError (Load M)} :
    (∃ options, ((relations.mapM option).map fun options =>
        ({ q with options := q.options ++ options } : LoadingQuery M Row Val Arg)) =
          .ok { q with options := q.options ++ options } ∧ options.map chainOf = chains) ↔
      List.Forall₂ (fun path chain => ∃ opt, option path = .ok opt ∧ chainOf opt = chain)
        relations chains := by
  constructor
  · rintro ⟨options, hoptions, rfl⟩
    obtain ⟨built, hbuilt, heq⟩ := map_eq_ok hoptions
    rw [LoadingQuery.mk.injEq, List.append_cancel_left_eq] at heq
    rw [List.forall₂_map_right_iff]
    refine (mapM_eq_ok_iff.mp (hbuilt.trans (congrArg _ heq.2))).imp fun path opt hopt => ?_
    exact ⟨opt, hopt, rfl⟩
  · intro h
    obtain ⟨options, hoptions, hchains⟩ : ∃ options,
        List.Forall₂ (fun path opt => option path = .ok opt) relations options ∧
          options.map chainOf = chains := by
      induction h with
      | nil => exact ⟨[], .nil, rfl⟩
      | cons hpath _ ih =>
          obtain ⟨opt, hopt, rfl⟩ := hpath
          obtain ⟨options, hoptions, rfl⟩ := ih
          exact ⟨opt :: options, .cons hopt hoptions, rfl⟩
    refine ⟨options, ?_, hchains⟩
    rw [mapM_eq_ok_iff.mpr hoptions]
    rfl

/-- The two methods resolve paths alike exactly when the first name of each path
keeps leading along it. -/
theorem resolvedAlike_iff
    (h : List.Forall₂ (Names schema q.query.model) relations chains) :
    ResolvedAlike schema q relations chains ↔ ∀ chain ∈ chains, FirstNameLeads schema chain := by
  have hjoined : List.Forall₂ (fun path chain => ∃ opt,
      joinedOption schema q.query.model path = .ok opt ∧ chainOf opt = chain) relations chains :=
    h.imp fun path chain => joinedOption_of_names
  have hselectin : List.Forall₂ (fun path chain => ∃ opt,
      selectinOption schema q.query.model path = .ok opt ∧ chainOf opt = chain) relations chains ↔
        ∀ chain ∈ chains, FirstNameLeads schema chain := by
    clear hjoined
    induction h with
    | nil => simp
    | cons hpath _ ih => rw [List.forall₂_cons, List.forall_mem_cons, selectinOption_iff hpath, ih]
  constructor
  · intro hboth
    exact hselectin.mp (options_iff.mp hboth.selectin)
  · intro hleads
    exact ⟨options_iff.mpr hjoined, options_iff.mpr (hselectin.mpr hleads)⟩

end Loops

/-! ## The booking system's relations -/

section Examples

open TicketBooking.Database.Models TicketBooking.Query.Comparisons

def orders : LoadingQuery Model Record Value Argument := { query := filter .order [("id", .int 1)] }

def relationOf (model : Model) (key : String) : InstrumentedAttribute Model :=
  ⟨model, key, (Library.Dict.get key (attributes model)).getD hybrid⟩

/-- Two relations are loaded alike. -/
theorem items_category_resolvedAlike :
    ResolvedAlike (mapping 0).schema orders ["items__category"]
      [[relationOf .order "items", relationOf .orderItem "category"]] := by
  have hnames : Names (mapping 0).schema .order "items__category"
      [relationOf .order "items", relationOf .orderItem "category"] := by
    rfl
  refine (resolvedAlike_iff (.cons hnames .nil)).mpr ?_
  rw [List.forall_mem_singleton]
  exact firstNameLeads_of_short hnames le_rfl

/-- An item has no `items`. -/
theorem items_category_event_not_loaded :
    Names (mapping 0).schema .order "items__category__event"
        [relationOf .order "items", relationOf .orderItem "category",
          relationOf .ticketCategory "event"] ∧
      orders.withSelectin (mapping 0).schema ["items__category__event"] =
        .error .attributeError ∧
      ¬ ResolvedAlike (mapping 0).schema orders ["items__category__event"]
        [[relationOf .order "items", relationOf .orderItem "category",
          relationOf .ticketCategory "event"]] := by
  have hraises : orders.withSelectin (mapping 0).schema ["items__category__event"] =
      .error .attributeError := by
    rfl
  refine ⟨rfl, hraises, fun h => ?_⟩
  obtain ⟨options, hoptions, -⟩ := h.selectin
  rw [hraises] at hoptions
  cases hoptions

end Examples

end TicketBooking.Query.Loaders
