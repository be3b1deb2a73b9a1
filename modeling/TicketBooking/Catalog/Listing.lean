import TicketBooking.Catalog.Editing
import TicketBooking.Database.Lookups
/-!
# The listing of categories

`EventService.get_categories`: the filters, the two annotated flags, and the
page.  The query reads the categories and, for one flag, the events, and no
column that depends on the time.
-/

namespace TicketBooking.Catalog.Listing

open TicketBooking.App.Exceptions (AppException)
open TicketBooking.Database.Lookups TicketBooking.Database.Models TicketBooking.Database.Tables
open TicketBooking.Library TicketBooking.Library.Joins
open TicketBooking.Order.Booking (PositiveInt32)
open TicketBooking.Query.Builder TicketBooking.Query.Comparisons TicketBooking.Query.Filters
open TicketBooking.Query.Operators TicketBooking.Query.Sorting

/-! ## The request -/

structure EventCategoryFilterParams where
  limit : Nat := 10
  offset : Nat := 0
  orderBy : Option String := none
  nameIcontains : Option String := none
  parentId : Option PositiveInt32 := none
  parentIdIsNull : Option Bool := none
  canCreateEvents : Option Bool := none
  canCreateSubcategories : Option Bool := none
  deriving DecidableEq

def optional {α : Type} (key : String) (value : α → Value) (field : Option α) :
    FilterDict Argument :=
  field.toList.map fun a => (key, some (.one (value a)))

def EventCategoryFilterParams.specificFilters (p : EventCategoryFilterParams) :
    FilterDict Argument :=
  optional "name__icontains" Value.text p.nameIcontains ++
    optional "parent_id" (fun id : PositiveInt32 => Value.int id.val) p.parentId ++
    optional "parent_id__is_null" Value.bool p.parentIdIsNull ++
    optional "can_create_events" Value.bool p.canCreateEvents ++
    optional "can_create_subcategories" Value.bool p.canCreateSubcategories

/-! ## The query -/

/-- `Case(When(then=False, <field>__has_any=True), default=True)`. -/
def hasNone (now : Int) (field : String) : Annotation Model Record Value Argument where
  binds := []
  name := none
  value := fun _ db row =>
    match (mapping now).schema.attr .eventCategory field with
    | some (.relation rel) =>
        some (.bool !((db rel.target).any fun other =>
          sameColumns (mapping now).schema db .eventCategory rel.target rel.columns row other))
    | _ => none

def categoryAnnotations (now : Int) : Annotations Model Record Value Argument :=
  [("can_create_events", hasNone now "children"),
    ("can_create_subcategories", hasNone now "events")]

def categoryQuery (now : Int) (p : EventCategoryFilterParams) : ModelQuery where
  model := .eventCategory
  filters := p.specificFilters
  annotations := categoryAnnotations now

structure EventCategoryResponse where
  id : Nat
  name : String
  parentId : Option Nat
  canCreateEvents : Option Bool
  canCreateSubcategories : Option Bool
  deriving DecidableEq, Repr

/-- An annotated column of a row; without a filter it is not selected. -/
def annotated (now : Int) (p : EventCategoryFilterParams) (db : Rows) (name : String)
    (row : Record) : Option Bool :=
  if p.specificFilters = [] then none
  else
    match (Dict.get name (categoryAnnotations now)).bind fun expr => expr.value [] db row with
    | some (.bool b) => some b
    | _ => none

def categoryResponse (now : Int) (p : EventCategoryFilterParams) (db : Rows) :
    Record → Option EventCategoryResponse
  | .eventCategory category =>
      some {
        id := category.id
        name := category.name
        parentId := category.parentId
        canCreateEvents := annotated now p db "can_create_events" (.eventCategory category)
        canCreateSubcategories :=
          annotated now p db "can_create_subcategories" (.eventCategory category) }
  | _ => none

def EventService.getCategories (precedes : Option Value → Option Value → Bool) (now : Int)
    (db : Database.Tables.Db) (p : EventCategoryFilterParams) :
    Except AppException (PaginatedResponse EventCategoryResponse) :=
  match sortedPage (mapping now) precedes (categoryQuery now p) (records db) p.orderBy p.offset
      p.limit with
  | .error e => .error (raised e)
  | .ok (items, count) =>
      .ok (paginateRaw (items.filterMap (categoryResponse now p (records db))) count p.limit)

/-! ## What it lists -/

def canCreateEvents (db : Database.Tables.Db) (category : EventCategory) : Bool :=
  !db.eventCategories.any fun other => other.parentId = some category.id

def canCreateSubcategories (db : Database.Tables.Db) (category : EventCategory) : Bool :=
  !db.events.any fun event => event.categoryId = category.id

theorem sameColumns_children (now : Int) (db : Rows) (category other : EventCategory) :
    sameColumns (mapping now).schema db .eventCategory .eventCategory [("id", "parent_id")]
      (.eventCategory category) (.eventCategory other) =
        decide (other.parentId = some category.id) := by
  obtain ⟨id, name, parentId⟩ := other
  cases parentId with
  | none => rfl
  | some parentId =>
      show (decide (Value.int category.id = Value.int parentId) && true) = _
      simp only [Value.int.injEq, Bool.and_true, Option.some.injEq]
      exact decide_eq_decide.mpr ⟨fun h => by omega, fun h => by omega⟩

theorem sameColumns_events (now : Int) (db : Rows) (category : EventCategory) (event : Event) :
    sameColumns (mapping now).schema db .eventCategory .event [("id", "category_id")]
      (.eventCategory category) (.event event) = decide (event.categoryId = category.id) := by
  show (decide (Value.int category.id = Value.int event.categoryId) && true) = _
  simp only [Value.int.injEq, Bool.and_true]
  exact decide_eq_decide.mpr ⟨fun h => by omega, fun h => by omega⟩

theorem hasNone_children (now : Int) (db : Database.Tables.Db) (category : EventCategory) :
    (hasNone now "children").value [] (records db) (.eventCategory category) =
      some (.bool (canCreateEvents db category)) := by
  show some (Value.bool !((db.eventCategories.map Record.eventCategory).any fun other =>
    sameColumns (mapping now).schema (records db) .eventCategory .eventCategory
      [("id", "parent_id")] (.eventCategory category) other)) = _
  rw [List.any_map]
  simp only [Function.comp_def, sameColumns_children]
  rfl

theorem hasNone_events (now : Int) (db : Database.Tables.Db) (category : EventCategory) :
    (hasNone now "events").value [] (records db) (.eventCategory category) =
      some (.bool (canCreateSubcategories db category)) := by
  show some (Value.bool !((db.events.map Record.event).any fun other =>
    sameColumns (mapping now).schema (records db) .eventCategory .event
      [("id", "category_id")] (.eventCategory category) other)) = _
  rw [List.any_map]
  simp only [Function.comp_def, sameColumns_events]
  rfl

def selected (db : Database.Tables.Db) (p : EventCategoryFilterParams) (category : EventCategory) :
    Bool :=
  p.nameIcontains.all (fun text => textMatches .icontains text (some (.text category.name))) &&
    p.parentId.all (fun id => category.parentId = some id.val) &&
    p.parentIdIsNull.all (fun b => category.parentId.isNone = b) &&
    p.canCreateEvents.all (fun b => canCreateEvents db category = b) &&
    p.canCreateSubcategories.all (fun b => canCreateSubcategories db category = b)

/-! ## Its clauses -/

def fieldClause (field : String) (op : Operator) (value : Value) :
    Clause Model Record Value Argument :=
  ⟨[], .field .eventCategory field (column field), op, .one value⟩

def flagClause (expr : Annotation Model Record Value Argument) (b : Bool) :
    Clause Model Record Value Argument :=
  ⟨[], .annotated expr, .eq, .one (.bool b)⟩

def fieldClauses (p : EventCategoryFilterParams) : List (Clause Model Record Value Argument) :=
  p.nameIcontains.toList.map (fun text => fieldClause "name" .icontains (.text text)) ++
    p.parentId.toList.map (fun id => fieldClause "parent_id" .eq (.int id.val)) ++
    p.parentIdIsNull.toList.map (fun b => fieldClause "parent_id" .isNull (.bool b))

def flagClauses (now : Int) (p : EventCategoryFilterParams) :
    List (Clause Model Record Value Argument) :=
  p.canCreateEvents.toList.map (flagClause (hasNone now "children")) ++
    p.canCreateSubcategories.toList.map (flagClause (hasNone now "events"))

section Clauses

variable (now : Int) (p : EventCategoryFilterParams)

theorem prepare_fieldClause {key field : String} {op : Operator} (value : Value)
    (hprepared : preparedReading key = (field, op)) (hresolved : resolvedReading key = (field, op))
    (hparts : components field = [field]) (hplain : Dict.get field (categoryAnnotations now) = none)
    (hattr : Dict.get field (attributes .eventCategory) = some (column field)) :
    prepare (mapping now).schema .eventCategory (categoryAnnotations now) (key, .one value) =
      some (fieldClause field op value) := by
  refine prepare_field now (.one value) ?_ hresolved hparts hattr
  rw [hprepared]
  exact hplain

theorem prepare_flag {key : String} {expr : Annotation Model Record Value Argument} (b : Bool)
    (hprepared : preparedReading key = (key, .eq))
    (hannotated : Dict.get key (categoryAnnotations now) = some expr) :
    prepare (mapping now).schema .eventCategory (categoryAnnotations now) (key, .one (.bool b)) =
      some (flagClause expr b) := by
  simp only [prepare, hprepared, hannotated]
  rfl

theorem filterMap_optional {α : Type} {key : String} {value : α → Value} {field : Option α}
    {clause : α → Clause Model Record Value Argument}
    (h : ∀ a, prepare (mapping now).schema .eventCategory (categoryAnnotations now)
      (key, .one (value a)) = some (clause a)) :
    (given (optional key value field)).filterMap
      (prepare (mapping now).schema .eventCategory (categoryAnnotations now)) =
        field.toList.map clause := by
  cases field with
  | none => rfl
  | some a =>
      show List.filterMap _ [(key, Argument.one (value a))] = [clause a]
      rw [List.filterMap_cons, h a]
      rfl

theorem given_append (filters filters' : FilterDict Argument) :
    given (filters ++ filters') = given filters ++ given filters' := by
  unfold given
  exact List.filterMap_append

theorem filterMap_specificFilters :
    (given p.specificFilters).filterMap
      (prepare (mapping now).schema .eventCategory (categoryAnnotations now)) =
        fieldClauses p ++ flagClauses now p := by
  have hname := fun text : String => prepare_fieldClause now (.text text)
    (show preparedReading "name__icontains" = ("name", .icontains) by decide +kernel)
    (show resolvedReading "name__icontains" = ("name", .icontains) by decide +kernel)
    (by decide +kernel) rfl rfl
  have hparent := fun id : PositiveInt32 => prepare_fieldClause now (.int id.val)
    (show preparedReading "parent_id" = ("parent_id", .eq) by decide +kernel)
    (show resolvedReading "parent_id" = ("parent_id", .eq) by decide +kernel)
    (by decide +kernel) rfl rfl
  have hroot := fun b : Bool => prepare_fieldClause now (.bool b)
    (show preparedReading "parent_id__is_null" = ("parent_id", .isNull) by decide +kernel)
    (show resolvedReading "parent_id__is_null" = ("parent_id", .isNull) by decide +kernel)
    (by decide +kernel) rfl rfl
  have hevents := fun b : Bool => prepare_flag now b
    (show preparedReading "can_create_events" = ("can_create_events", .eq) by decide +kernel) rfl
  have hsubcategories := fun b : Bool => prepare_flag now b
    (show preparedReading "can_create_subcategories" = ("can_create_subcategories", .eq) by
      decide +kernel) rfl
  unfold EventCategoryFilterParams.specificFilters fieldClauses flagClauses
  simp only [given_append, List.filterMap_append]
  rw [filterMap_optional now hname, filterMap_optional now hparent, filterMap_optional now hroot,
    filterMap_optional now hevents, filterMap_optional now hsubcategories, List.append_assoc]

theorem mem_fieldClauses {c : Clause Model Record Value Argument} (hc : c ∈ fieldClauses p) :
    ∃ field op value, c = fieldClause field op value := by
  unfold fieldClauses at hc
  simp only [List.mem_append, List.mem_map] at hc
  rcases hc with (⟨_, -, rfl⟩ | ⟨_, -, rfl⟩) | ⟨_, -, rfl⟩
  all_goals exact ⟨_, _, _, rfl⟩

theorem mem_flagClauses {c : Clause Model Record Value Argument} (hc : c ∈ flagClauses now p) :
    ∃ expr b, c = flagClause expr b := by
  unfold flagClauses at hc
  simp only [List.mem_append, List.mem_map] at hc
  rcases hc with ⟨_, -, rfl⟩ | ⟨_, -, rfl⟩
  all_goals exact ⟨_, _, rfl⟩

theorem selectClauses_categoryQuery :
    selectClauses (mapping now) (categoryQuery now p) = fieldClauses p ++ flagClauses now p := by
  refine prepareFilters_eq (filterMap_specificFilters now p) (fun c hc => ?_) fun c hc => ?_
  · obtain ⟨field, op, value, rfl⟩ := mem_fieldClauses p hc
    exact ⟨_, _, _, rfl⟩
  · obtain ⟨expr, b, rfl⟩ := mem_flagClauses now p hc
    exact ⟨_, rfl⟩

theorem mem_optional {α : Type} {key : String} {value : α → Value} {field : Option α}
    {f : String × Option Argument} (hf : f ∈ optional key value field) : f.1 = key := by
  obtain ⟨a, -, rfl⟩ := List.mem_map.mp hf
  rfl

theorem not_reserved : ∀ f ∈ p.specificFilters, f.1 ∉ reserved := by
  intro f hf
  unfold EventCategoryFilterParams.specificFilters at hf
  simp only [List.mem_append] at hf
  rcases hf with (((hf | hf) | hf) | hf) | hf
  all_goals rw [mem_optional hf]; decide

theorem prepareQuery_categoryQuery :
    prepareQuery (mapping now) (categoryQuery now p) =
      .ok (fieldClauses p ++ flagClauses now p) := by
  have hreserved : ¬ (categoryQuery now p).filters.any fun f => f.1 ∈ reserved := by
    simpa [categoryQuery] using not_reserved p
  have hbuilds : (fieldClauses p ++ flagClauses now p).all
      (Clause.builds (mapping now).comparison) := by
    unfold fieldClauses flagClauses
    rw [List.all_eq_true]
    simp only [List.mem_append, List.mem_map]
    rintro c (((⟨_, -, rfl⟩ | ⟨_, -, rfl⟩) | ⟨_, -, rfl⟩) | (⟨_, -, rfl⟩ | ⟨_, -, rfl⟩))
    all_goals rfl
  unfold prepareQuery
  rw [selectClauses_categoryQuery, if_neg (by simp [categoryQuery]), if_neg hreserved,
    if_pos hbuilds]

theorem all_toList_map {α β : Type} (field : Option α) (f : α → β) (holds : β → Bool) :
    (field.toList.map f).all holds = field.all fun a => holds (f a) := by
  cases field <;> simp

def holdsOf (db : Database.Tables.Db) (binds : List (String × Argument)) (category : EventCategory)
    (c : Clause Model Record Value Argument) : Bool :=
  c.holds (mapping now).schema (mapping now).comparison (records db) binds (.eventCategory category)
    (.eventCategory category)

variable {binds : List (String × Argument)}

theorem holdsOf_name (db : Database.Tables.Db) (category : EventCategory) (text : String) :
    holdsOf now db binds category (fieldClause "name" .icontains (.text text)) =
      textMatches .icontains text (some (.text category.name)) := rfl

theorem holdsOf_parentId (db : Database.Tables.Db) (category : EventCategory)
    (id : PositiveInt32) :
    holdsOf now db binds category (fieldClause "parent_id" .eq (.int id.val)) =
      decide (category.parentId = some id.val) := by
  show decide (category.parentId.bind ofNat = some (.int id.val)) = _
  refine decide_eq_decide.mpr ?_
  cases category.parentId with
  | none => simp
  | some parentId =>
      simp only [Option.bind_some, ofNat, Option.some.injEq, Value.int.injEq]
      omega

theorem holdsOf_isNull (db : Database.Tables.Db) (category : EventCategory) (b : Bool) :
    holdsOf now db binds category (fieldClause "parent_id" .isNull (.bool b)) =
      decide (category.parentId.isNone = b) := by
  show (if b then (category.parentId.bind ofNat).isNone
    else (category.parentId.bind ofNat).isSome) = _
  cases b <;> cases category.parentId <;> rfl

theorem holdsOf_flag (db : Database.Tables.Db) (category : EventCategory) {field : String}
    {flag : Bool} (hflag : (hasNone now field).value [] (records db) (.eventCategory category) =
      some (.bool flag)) (b : Bool) :
    holdsOf now db binds category (flagClause (hasNone now field) b) = decide (flag = b) := by
  show decide ((hasNone now field).value [] (records db) (.eventCategory category) =
    some (.bool b)) = _
  rw [hflag]
  simp only [Option.some.injEq, Value.bool.injEq]

theorem clausesHold_categoryQuery (db : Database.Tables.Db) (category : EventCategory) :
    clausesHold (mapping now) (categoryQuery now p) (records db)
      (fieldClauses p ++ flagClauses now p) binds (.eventCategory category)
      (single .eventCategory (.eventCategory category)) = selected db p category := by
  have hholds : clausesHold (mapping now) (categoryQuery now p) (records db)
      (fieldClauses p ++ flagClauses now p) binds (.eventCategory category)
      (single .eventCategory (.eventCategory category)) =
        (fieldClauses p ++ flagClauses now p).all (holdsOf now db binds category) := by
    unfold clausesHold
    rw [Bool.eq_iff_iff, List.all_eq_true, List.all_eq_true]
    refine forall₂_congr fun c hc => ?_
    have howner : c.owner (categoryQuery now p).model = .eventCategory := by
      rcases List.mem_append.mp hc with hc | hc
      · obtain ⟨field, op, value, rfl⟩ := mem_fieldClauses p hc
        rfl
      · obtain ⟨expr, b, rfl⟩ := mem_flagClauses now p hc
        rfl
    rw [howner, single_self]
    rfl
  rw [hholds]
  unfold fieldClauses flagClauses selected
  simp only [List.all_append, all_toList_map, holdsOf_name, holdsOf_parentId, holdsOf_isNull,
    holdsOf_flag now db category (hasNone_children now db category),
    holdsOf_flag now db category (hasNone_events now db category), Bool.and_assoc]

theorem fetch_categoryQuery (db : Database.Tables.Db) :
    fetch (mapping now) (categoryQuery now p) (records db) =
      .ok ((db.eventCategories.filter (selected db p)).map .eventCategory) := by
  have hplain : ∀ c ∈ fieldClauses p ++ flagClauses now p, c.relations = [] := by
    intro c hc
    rcases List.mem_append.mp hc with hc | hc
    · obtain ⟨field, op, value, rfl⟩ := mem_fieldClauses p hc
      rfl
    · obtain ⟨expr, b, rfl⟩ := mem_flagClauses now p hc
      rfl
  rw [fetch_of_plain (prepareQuery_categoryQuery now p) hplain]
  refine congrArg Except.ok ?_
  show List.filter _ (db.eventCategories.map Record.eventCategory) = _
  rw [List.filter_map]
  congr 1
  refine List.filter_congr fun category _ => ?_
  exact clausesHold_categoryQuery now p db category

end Clauses

/-! ## Its pages -/

/-- The flags, under the names of their annotations. -/
def flags (db : Database.Tables.Db) : List (String × (EventCategory → Bool)) :=
  [("can_create_events", canCreateEvents db),
    ("can_create_subcategories", canCreateSubcategories db)]

def sortKey (p : EventCategoryFilterParams) (db : Database.Tables.Db) (field : String) :
    Except QueryError (EventCategory → Option Value) :=
  match Dict.get field (attributes .eventCategory) with
  | some (.column _) => .ok fun category => readEventCategory category field
  | some (.relation _) => .error .refused
  | none =>
      match if p.specificFilters = [] then none else Dict.get field (flags db) with
      | some flag => .ok fun category => some (.bool (flag category))
      | none => .error (.valueError
          s!"Invalid sort field '{field}' for model {Model.name .eventCategory}")

def sortCategories (precedes : Option Value → Option Value → Bool) (p : EventCategoryFilterParams)
    (db : Database.Tables.Db) (categories : List EventCategory) :
    Except QueryError (List EventCategory) :=
  match orderGiven p.orderBy with
  | none => .ok categories
  | some text =>
      (sortKey p db (sortField text).1).map fun key =>
        categories.insertionSort fun x y =>
          directed precedes (sortField text).2 (key x) (key y) = true

def shown (db : Database.Tables.Db) (p : EventCategoryFilterParams) (category : EventCategory) :
    EventCategoryResponse where
  id := category.id
  name := category.name
  parentId := category.parentId
  canCreateEvents := if p.specificFilters = [] then none else some (canCreateEvents db category)
  canCreateSubcategories :=
    if p.specificFilters = [] then none else some (canCreateSubcategories db category)

def categoryListing (precedes : Option Value → Option Value → Bool) (db : Database.Tables.Db)
    (p : EventCategoryFilterParams) :
    Except AppException (PaginatedResponse EventCategoryResponse) :=
  match sortCategories precedes p db (db.eventCategories.filter (selected db p)) with
  | .error e => .error (raised e)
  | .ok categories =>
      let page := (categories.drop p.offset).take p.limit
      .ok (paginateRaw ((unique page).map (shown db p)) (if page = [] then 0 else categories.length)
        p.limit)

section Pages

variable (precedes : Option Value → Option Value → Bool) (now : Int)
  (p : EventCategoryFilterParams) (db : Database.Tables.Db)

theorem get_categoryAnnotations (name : String) :
    Dict.get name (categoryAnnotations now) =
      if "can_create_events" = name then some (hasNone now "children")
      else if "can_create_subcategories" = name then some (hasNone now "events")
      else none := rfl

theorem get_flags (name : String) :
    Dict.get name (flags db) =
      if "can_create_events" = name then some (canCreateEvents db)
      else if "can_create_subcategories" = name then some (canCreateSubcategories db)
      else none := rfl

theorem sortValue_categoryQuery (field : String) :
    (sortValue (mapping now) (categoryQuery now p) (records db) field).map
      (fun value category => value (.eventCategory category)) = sortKey p db field := by
  have hattr : (mapping now).schema.attr (categoryQuery now p).model field =
      Dict.get field (attributes .eventCategory) := rfl
  unfold sortValue sortKey
  rw [hattr]
  cases Dict.get field (attributes .eventCategory) with
  | some attr => cases attr <;> rfl
  | none =>
      have hfilter : (categoryQuery now p).filters = p.specificFilters := rfl
      have hannotations : (categoryQuery now p).annotations = categoryAnnotations now := rfl
      dsimp only
      rw [hfilter, hannotations]
      by_cases hfilters : p.specificFilters = []
      · rw [if_pos hfilters, if_pos hfilters]
        rfl
      · rw [if_neg hfilters, if_neg hfilters]
        rw [get_categoryAnnotations, get_flags]
        split_ifs
        · exact congrArg Except.ok (funext fun category => hasNone_children now db category)
        · exact congrArg Except.ok (funext fun category => hasNone_events now db category)
        · rfl

theorem applySorting_categoryQuery (categories : List EventCategory) :
    applySorting (mapping now) precedes (categoryQuery now p) (records db) p.orderBy
      (categories.map .eventCategory) =
        (sortCategories precedes p db categories).map fun sorted => sorted.map .eventCategory := by
  unfold applySorting sortCategories
  cases orderGiven p.orderBy with
  | none => rfl
  | some text =>
      dsimp only
      rw [← sortValue_categoryQuery now p db (sortField text).1]
      cases sortValue (mapping now) (categoryQuery now p) (records db) (sortField text).1 with
      | error e => rfl
      | ok value =>
          exact congrArg Except.ok
            (List.map_insertionSort _ _ Record.eventCategory categories fun _ _ _ _ => Iff.rfl).symm

/-- The statement is refused for its order whatever rows there are. -/
theorem sortCategories_error {categories categories' : List EventCategory} {e : QueryError}
    (h : sortCategories precedes p db categories = .error e) :
    sortCategories precedes p db categories' = .error e := by
  unfold sortCategories at h ⊢
  cases horder : orderGiven p.orderBy with
  | none =>
      rw [horder] at h
      cases h
  | some text =>
      rw [horder] at h
      dsimp only at h ⊢
      cases hkey : sortKey p db (sortField text).1 with
      | error e' =>
          rw [hkey] at h
          exact h
      | ok key =>
          rw [hkey] at h
          cases h

theorem sortedRows_categoryQuery :
    sortedRows (mapping now) precedes (categoryQuery now p) (records db) p.orderBy =
      (sortCategories precedes p db (db.eventCategories.filter (selected db p))).map
        fun sorted => sorted.map .eventCategory := by
  have hempty := applySorting_categoryQuery precedes now p db []
  have hrows := applySorting_categoryQuery precedes now p db
    (db.eventCategories.filter (selected db p))
  rw [List.map_nil] at hempty
  unfold sortedRows
  rw [prepareQuery_categoryQuery, hempty]
  cases hnone : sortCategories precedes p db [] with
  | error e => rw [sortCategories_error precedes p db hnone]; rfl
  | ok sorted =>
      rw [fetch_categoryQuery]
      exact hrows

omit precedes in
theorem annotated_eq (name : String) {expr : Annotation Model Record Value Argument}
    (hexpr : Dict.get name (categoryAnnotations now) = some expr) {category : EventCategory}
    {flag : Bool}
    (hflag : expr.value [] (records db) (.eventCategory category) = some (.bool flag)) :
    annotated now p (records db) name (.eventCategory category) =
      if p.specificFilters = [] then none else some flag := by
  unfold annotated
  rw [hexpr, Option.bind_some, hflag]

omit precedes in
theorem categoryResponse_eq (category : EventCategory) :
    categoryResponse now p (records db) (.eventCategory category) =
      some (shown db p category) := by
  have hevents := annotated_eq now p db "can_create_events" rfl (hasNone_children now db category)
  have hsubcategories := annotated_eq now p db "can_create_subcategories" rfl
    (hasNone_events now db category)
  simp only [categoryResponse, hevents, hsubcategories]
  rfl

theorem unique_map {α β : Type} [DecidableEq α] [DecidableEq β] {f : α → β}
    (hf : Function.Injective f) (xs : List α) : unique (xs.map f) = (unique xs).map f := by
  unfold unique
  rw [← List.map_reverse, List.dedup_map_of_injective hf, List.map_reverse]

/-- `get_categories` lists the selected categories, whatever the time is. -/
theorem getCategories_eq :
    EventService.getCategories precedes now db p = categoryListing precedes db p := by
  have hinjective : Function.Injective Record.eventCategory := fun _ _ h => by
    injection h
  unfold EventService.getCategories sortedPage categoryListing
  rw [sortedRows_categoryQuery]
  cases sortCategories precedes p db (db.eventCategories.filter (selected db p)) with
  | error e => rfl
  | ok categories =>
      have hpage : ((categories.map Record.eventCategory).drop p.offset).take p.limit =
          ((categories.drop p.offset).take p.limit).map .eventCategory := by
        rw [List.map_take, List.map_drop]
      simp only [Except.map, hpage, unique_map hinjective, List.filterMap_map, Function.comp_def,
        categoryResponse_eq, List.filterMap_eq_map', List.map_eq_nil_iff, List.length_map]

end Pages

end TicketBooking.Catalog.Listing
