import TicketBooking.Library.Outcomes
import TicketBooking.Query.Respect
import TicketBooking.Query.Sorting
/-!
# Annotated results

The columns `apply_context_filters` adds for the annotations of a query, the four
executors that read them back by name, and the data object a row becomes.
-/

namespace TicketBooking.Query.Annotated

open TicketBooking.Library TicketBooking.Library.Joins TicketBooking.Library.Outcomes
open TicketBooking.Query.Builder TicketBooking.Query.Filters TicketBooking.Query.Sorting
open TicketBooking.Query.Respect (mem_unique)

variable {M Row Val Arg : Type}

/-! ## Rows and data objects -/

/-- A row of a result: the instance, and the labelled columns beside it. -/
structure ResultRow (Row Val : Type) where
  root : Row
  columns : List (String × Option Val)
  deriving DecidableEq

/-- What `getattr(row._mapping, name, None)` finds: a labelled column or `None`, or a
method that every mapping has. -/
inductive Attr (Val : Type)
  | value (v : Option Val)
  | method
  deriving DecidableEq

def mappingMethods : List String := ["get", "items", "keys", "values"]

def getAttr (columns : List (String × Option Val)) (name : String) : Attr Val :=
  if name ∈ mappingMethods then .method else .value ((Dict.get name columns).getD none)

/-- An instance, or the data object made of it, with the attributes set on it. -/
structure Item (Row Val : Type) where
  row : Row
  attrs : List (String × Attr Val)
  deriving DecidableEq

/-- `setattr(model_instance, name, ...)` for every annotation. -/
def extractAnnotatedModel (annotations : Annotations M Row Val Arg) (r : ResultRow Row Val) :
    Item Row Val where
  row := r.root
  attrs := annotations.map fun named => (named.1, getAttr r.columns named.1)

/-- `_to_dto`: the attributes that are fields of the class. -/
def toDto (fields : List String) (item : Item Row Val) : Item Row Val where
  row := item.row
  attrs := item.attrs.filter fun attr => attr.1 ∈ fields

def ownValue (expr : Annotation M Row Val Arg) (db : Db M Row) (row : Row) : Option Val :=
  expr.value (expr.binds.map Prod.snd) db row

inductive Reader
  | get
  | all
  | first
  | paginate (offset limit : Nat)
  deriving DecidableEq, Repr

section Statements

variable [DecidableEq M] [DecidableEq Val] (mapping : Mapping M Row Val Arg)
  (precedes : Option Val → Option Val → Bool) (fields : List String)
  (b : QueryBuilder M Row Val Arg) (db : Db M Row)

/-- The value in the statement: one value is bound to each name. -/
def boundAnnotation (expr : Annotation M Row Val Arg) (row : Row) : Option Val :=
  expr.value (expr.binds.map fun bind => boundValue (selectBinds mapping b) bind.1 bind.2) db row

/-- `annotation_cols`.  Without a filter `apply_context_filters` is not called. -/
def annotationCols (row : Row) : List (String × Option Val) :=
  if b.filters = [] then []
  else b.annotations.map fun named =>
    (named.1, boundAnnotation mapping b db named.2 row)

def resultRows (orderBy : Option String) : Except QueryError (List (ResultRow Row Val)) :=
  (sortedRows mapping precedes b db orderBy).map fun rows =>
    rows.map fun row => ⟨row, annotationCols mapping b db row⟩

def itemOf (r : ResultRow Row Val) : Item Row Val :=
  toDto fields (extractAnnotatedModel b.annotations r)

/-- The data objects `ReadQueryExecutor.get`, `all`, `first` and `paginate` return. -/
def read [DecidableEq Row] (orderBy : Option String) :
    Reader → Except QueryError (List (Item Row Val))
  | .get =>
      match resultRows mapping precedes b db orderBy with
      | .error e => .error e
      | .ok rows =>
          let name := mapping.className b.model
          match unique rows with
          | [] => .error (.valueError s!"No {name} found matching criteria.")
          | [r] => .ok [itemOf fields b r]
          | _ => .error (.valueError s!"Multiple {name} returned matching criteria.")
  | .all =>
      (resultRows mapping precedes b db orderBy).map fun rows =>
        (unique rows).map (itemOf fields b)
  | .first =>
      (resultRows mapping precedes b db orderBy).map fun rows =>
        ((unique rows).take 1).map (itemOf fields b)
  | .paginate offset limit =>
      (resultRows mapping precedes b db orderBy).map fun rows =>
        (unique ((rows.drop offset).take limit)).map (itemOf fields b)

/-- Every row that is returned carries the value of every annotated expression. -/
def Shows [DecidableEq Row] (orderBy : Option String) : Prop :=
  ∀ reader items, read mapping precedes fields b db orderBy reader = .ok items →
    ∀ item ∈ items, ∀ name expr, Dict.get name b.annotations = some expr →
      Dict.get name item.attrs = some (.value (ownValue expr db item.row))

/-- The annotation reaches the data object of this row. -/
structure Carried (row : Row) (name : String) (expr : Annotation M Row Val Arg) : Prop where
  field : name ∈ fields
  label : name ∉ mappingMethods
  unfiltered : b.filters = [] → ownValue expr db row = none
  filtered : b.filters ≠ [] → boundAnnotation mapping b db expr row = ownValue expr db row

end Statements

/-! ## What a data object carries -/

/-- A field under the name of a filtered statement's annotation carries its value, when no other
expression binds its parameters. -/
theorem Carried.of_unclashed [DecidableEq M] [DecidableEq Val] {mapping : Mapping M Row Val Arg}
    {fields : List String} {b : QueryBuilder M Row Val Arg} {db : Db M Row} {name : String}
    {expr : Annotation M Row Val Arg} (hfield : name ∈ fields) (hlabel : name ∉ mappingMethods)
    (hfilters : b.filters ≠ [])
    (hbinds : ∀ bind ∈ expr.binds, boundValue (selectBinds mapping b) bind.1 bind.2 = bind.2)
    (row : Row) : Carried mapping fields b db row name expr where
  field := hfield
  label := hlabel
  unfiltered h := absurd h hfilters
  filtered _ := by
    unfold boundAnnotation ownValue
    rw [List.map_congr_left hbinds]

theorem get_map {α β : Type} (d : List (String × α)) (f : String → α → β) (name : String) :
    Dict.get name (d.map fun entry => (entry.1, f entry.1 entry.2)) =
      (Dict.get name d).map (f name) := by
  induction d with
  | nil => rfl
  | cons entry d ih =>
      rw [List.map_cons, Dict.get, Dict.get]
      split_ifs with hname
      · rw [hname]
        rfl
      · exact ih

theorem get_filter {α : Type} (d : List (String × α)) (fields : List String) (name : String) :
    Dict.get name (d.filter fun entry => entry.1 ∈ fields) =
      if name ∈ fields then Dict.get name d else none := by
  induction d with
  | nil => simp [Dict.get]
  | cons entry d ih =>
      rw [List.filter_cons]
      split_ifs with hentry hname hname
      · rw [Dict.get, Dict.get, ih, if_pos hname]
      · have hne : entry.1 ≠ name := fun h => hname (h ▸ by simpa using hentry)
        rw [Dict.get, if_neg hne, ih, if_neg hname]
      · have hne : entry.1 ≠ name := fun h => by simp [h, hname] at hentry
        rw [Dict.get, if_neg hne, ih, if_pos hname]
      · rw [ih, if_neg hname]

section Proofs

variable {mapping : Mapping M Row Val Arg} {precedes : Option Val → Option Val → Bool}
  {fields : List String} {b : QueryBuilder M Row Val Arg} {db : Db M Row}
  {orderBy : Option String}

theorem get_annotationCols {name : String} {expr : Annotation M Row Val Arg}
    (hexpr : Dict.get name b.annotations = some expr) (row : Row) :
    (Dict.get name (annotationCols mapping b db row)).getD none =
      if b.filters = [] then none else boundAnnotation mapping b db expr row := by
  unfold annotationCols
  split_ifs with hfilters
  · rfl
  · rw [get_map b.annotations fun _ expr => boundAnnotation mapping b db expr row, hexpr]
    rfl

theorem get_itemOf {name : String} {expr : Annotation M Row Val Arg}
    (hexpr : Dict.get name b.annotations = some expr) (row : Row) :
    Dict.get name (itemOf fields b ⟨row, annotationCols mapping b db row⟩).attrs =
      if name ∈ fields then
        some (if name ∈ mappingMethods then .method
          else .value (if b.filters = [] then none else boundAnnotation mapping b db expr row))
      else none := by
  show Dict.get name ((b.annotations.map fun named => (named.1,
    getAttr (annotationCols mapping b db row) named.1)).filter _) = _
  rw [get_filter, get_map b.annotations fun name _ =>
    getAttr (annotationCols mapping b db row) name, hexpr]
  split_ifs with hfield hmethod hfilters
  · exact congrArg some (if_pos hmethod)
  · rw [Option.map_some, getAttr, if_neg hmethod, get_annotationCols hexpr, if_pos hfilters]
  · rw [Option.map_some, getAttr, if_neg hmethod, get_annotationCols hexpr, if_neg hfilters]
  · rfl

/-- A data object shows the value of an expression when it is carried. -/
theorem get_itemOf_iff {name : String} {expr : Annotation M Row Val Arg}
    (hexpr : Dict.get name b.annotations = some expr) (row : Row) :
    Dict.get name (itemOf fields b ⟨row, annotationCols mapping b db row⟩).attrs =
        some (.value (ownValue expr db row)) ↔ Carried mapping fields b db row name expr := by
  rw [get_itemOf hexpr]
  constructor
  · intro h
    split_ifs at h with hfield hmethod hfilters
    · cases h
    · have hvalue := Attr.value.inj (Option.some.inj h)
      exact ⟨hfield, hmethod, fun _ => hvalue.symm, fun hne => absurd hfilters hne⟩
    · have hvalue := Attr.value.inj (Option.some.inj h)
      exact ⟨hfield, hmethod, fun hnil => absurd hnil hfilters, fun _ => hvalue⟩
  · rintro ⟨hfield, hlabel, hunfiltered, hfiltered⟩
    rw [if_pos hfield, if_neg hlabel]
    split_ifs with hfilters
    · rw [hunfiltered hfilters]
    · rw [hfiltered hfilters]

variable [DecidableEq M] [DecidableEq Val] [DecidableEq Row]

theorem result_of_mem_read {reader : Reader} {items : List (Item Row Val)} {item : Item Row Val}
    (h : read mapping precedes fields b db orderBy reader = .ok items) (hitem : item ∈ items) :
    ∃ results, resultRows mapping precedes b db orderBy = .ok results ∧
      ∃ r ∈ results, item = itemOf fields b r := by
  have hof : ∀ found : List (ResultRow Row Val), item ∈ (unique found).map (itemOf fields b) →
      ∃ r ∈ found, item = itemOf fields b r := by
    intro found hmem
    obtain ⟨r, hr, rfl⟩ := List.mem_map.mp hmem
    exact ⟨r, mem_unique.mp hr, rfl⟩
  cases reader with
  | get =>
      simp only [read] at h
      split at h
      · cases h
      · rename_i results hresults
        split at h
        · cases h
        · rename_i r hunique
          cases h
          exact ⟨results, hresults, hof results (by rw [hunique]; exact hitem)⟩
        · cases h
  | all =>
      obtain ⟨results, hresults, rfl⟩ := map_eq_ok h
      exact ⟨results, hresults, hof results hitem⟩
  | first =>
      obtain ⟨results, hresults, rfl⟩ := map_eq_ok h
      rw [List.map_take] at hitem
      exact ⟨results, hresults, hof results (List.mem_of_mem_take hitem)⟩
  | paginate offset limit =>
      obtain ⟨results, hresults, rfl⟩ := map_eq_ok h
      obtain ⟨r, hr, heq⟩ := hof _ hitem
      exact ⟨results, hresults, r, List.mem_of_mem_drop (List.mem_of_mem_take hr), heq⟩

theorem of_mem_read {reader : Reader} {items : List (Item Row Val)} {item : Item Row Val}
    (h : read mapping precedes fields b db orderBy reader = .ok items)
    (hitem : item ∈ items) :
    ∃ rows, sortedRows mapping precedes b db orderBy = .ok rows ∧
      ∃ row ∈ rows, item = itemOf fields b ⟨row, annotationCols mapping b db row⟩ := by
  obtain ⟨results, hresults, r, hr, rfl⟩ := result_of_mem_read h hitem
  obtain ⟨rows, hrows, rfl⟩ := map_eq_ok hresults
  obtain ⟨row, hrow, rfl⟩ := List.mem_map.mp hr
  exact ⟨rows, hrows, row, hrow, rfl⟩

theorem mem_read_all {rows : List Row}
    (hrows : sortedRows mapping precedes b db orderBy = .ok rows) :
    ∃ items, read mapping precedes fields b db orderBy .all = .ok items ∧
      ∀ row ∈ rows, itemOf fields b ⟨row, annotationCols mapping b db row⟩ ∈ items := by
  refine ⟨_, by rw [read, resultRows, hrows]; rfl, fun row hrow => ?_⟩
  exact List.mem_map_of_mem (mem_unique.mpr (List.mem_map_of_mem hrow))

/-- Every row that is returned carries every annotation exactly when every row the
statement finds does. -/
theorem shows_iff :
    Shows mapping precedes fields b db orderBy ↔
      ∀ rows, sortedRows mapping precedes b db orderBy = .ok rows → ∀ row ∈ rows,
        ∀ name expr, Dict.get name b.annotations = some expr →
          Carried mapping fields b db row name expr := by
  constructor
  · intro h rows hrows row hrow name expr hexpr
    have hread : ∃ items, read mapping precedes fields b db orderBy .all = .ok items ∧
        ∀ row ∈ rows, itemOf fields b ⟨row, annotationCols mapping b db row⟩ ∈ items :=
      mem_read_all hrows
    obtain ⟨items, hitems, hmem⟩ := hread
    exact (get_itemOf_iff hexpr row).mp (h .all items hitems _ (hmem row hrow) name expr hexpr)
  · intro h reader items hitems item hitem name expr hexpr
    obtain ⟨rows, hrows, row, hrow, rfl⟩ := of_mem_read hitems hitem
    exact (get_itemOf_iff hexpr row).mpr (h rows hrows row hrow name expr hexpr)

end Proofs

end TicketBooking.Query.Annotated
