import TicketBooking.Database.Models
import TicketBooking.Library.Texts
import TicketBooking.Query.Sorting
/-!
# The order of a listing

`FilterParamsSchema.validate_order_by` takes off every leading dash and the white
space around the name before it looks at it, and returns the text as it came;
`_apply_sorting` takes off one dash.
-/

namespace TicketBooking.Query.OrderBy

open TicketBooking.Database.Models
open TicketBooking.Library TicketBooking.Library.Joins TicketBooking.Library.Texts
open TicketBooking.Query.Builder TicketBooking.Query.Comparisons TicketBooking.Query.Filters
open TicketBooking.Query.Sorting

/-! ## The validator -/

/-- The characters of `str.isidentifier`, the first and the others. -/
structure Identifiers where
  start : Char → Bool
  part : Char → Bool
  start_ne_dash : ∀ c, start c → c ≠ '-'
  start_not_space : ∀ c, start c → ¬ isSpace c
  part_not_space : ∀ c, part c → ¬ isSpace c

def Identifiers.isIdentifier (identifiers : Identifiers) (s : List Char) : Bool :=
  match s with
  | [] => false
  | c :: rest => identifiers.start c && rest.all identifiers.part

def strip (s : List Char) : List Char :=
  ((s.dropWhile isSpace).reverse.dropWhile isSpace).reverse

/-- `v.lstrip("-").strip()`. -/
def cleaned (v : String) : String := String.ofList (strip (v.toList.dropWhile (· = '-')))

structure FilterParamsSchema where
  orderingFields : List String := []

/-- `max_length` and `validate_order_by`. -/
def FilterParamsSchema.validateOrderBy (schema : FilterParamsSchema) (identifiers : Identifiers)
    (v : String) : Except String String :=
  if 100 < v.length then .error "String should have at most 100 characters"
  else if ¬ identifiers.isIdentifier (cleaned v).toList then
    .error "Invalid order_by field name format"
  else if schema.orderingFields ≠ [] ∧ cleaned v ∉ schema.orderingFields then
    .error ("Sorting by '" ++ cleaned v ++ "' is not allowed. Allowed fields: " ++
      ", ".intercalate (schema.orderingFields.insertionSort (· ≤ ·)))
  else .ok v

/-! ## The listing routes -/

inductive ListingRoute
  | eventsUpToModeration
  | usersUpToVerification
  | adminCategories
  | adminUsers
  | eventCategories
  | myEvents
  | eventTickets
  | events
  | orderItems
  | orders
  | myTickets
  | ticketCategories
  deriving DecidableEq, Repr

def ListingRoute.model : ListingRoute → Model
  | .eventsUpToModeration => .event
  | .usersUpToVerification => .user
  | .adminCategories => .eventCategory
  | .adminUsers => .user
  | .eventCategories => .eventCategory
  | .myEvents => .event
  | .eventTickets => .ticket
  | .events => .event
  | .orderItems => .orderItem
  | .orders => .order
  | .myTickets => .ticket
  | .ticketCategories => .ticketCategory

def eventFilterParams : FilterParamsSchema := ⟨["id", "title", "started_at", "status"]⟩

def eventCategoryFilterParams : FilterParamsSchema := ⟨["id", "name"]⟩

def ListingRoute.schema : ListingRoute → FilterParamsSchema
  | .eventsUpToModeration => eventFilterParams
  | .adminCategories => eventCategoryFilterParams
  | .eventCategories => eventCategoryFilterParams
  | .myEvents => eventFilterParams
  | .events => eventFilterParams
  | _ => {}

theorem sortable_of_listed (now : Int) (route : ListingRoute) {name : String}
    (h : name ∈ route.schema.orderingFields) :
    ∃ col, (mapping now).schema.attr route.model name = some (.column col) := by
  have hall : ∀ name ∈ route.schema.orderingFields,
      (Dict.get name (attributes route.model)).any fun attr => attr matches .column _ := by
    cases route <;> decide
  have hname := hall name h
  show ∃ col, Dict.get name (attributes route.model) = some (.column col)
  cases hattr : Dict.get name (attributes route.model) with
  | none =>
      rw [hattr] at hname
      cases hname
  | some attr =>
      rw [hattr] at hname
      cases attr with
      | column col => exact ⟨col, rfl⟩
      | relation rel => cases hname

/-! ## What is taken off -/

theorem dropWhile_of_forall {p : Char → Bool} {s : List Char} (h : ∀ c ∈ s, ¬ p c) :
    s.dropWhile p = s := by
  cases s with
  | nil => rfl
  | cons c s => exact List.dropWhile_cons_of_neg (h c List.mem_cons_self)

theorem strip_of_forall {s : List Char} (h : ∀ c ∈ s, ¬ isSpace c) : strip s = s := by
  have hreverse : ∀ c ∈ s.reverse, ¬ isSpace c := fun c hc => h c (List.mem_reverse.mp hc)
  rw [strip, dropWhile_of_forall h, dropWhile_of_forall hreverse, List.reverse_reverse]

section Identifiers

variable {identifiers : Identifiers}

theorem not_space_of_identifier {s : List Char} (h : identifiers.isIdentifier s) :
    ∀ c ∈ s, ¬ isSpace c := by
  cases s with
  | nil => cases h
  | cons c rest =>
      obtain ⟨hstart, hrest⟩ := Bool.and_eq_true_iff.mp h
      intro d hd
      rcases List.mem_cons.mp hd with rfl | hd
      · exact identifiers.start_not_space _ hstart
      · exact identifiers.part_not_space d (List.all_eq_true.mp hrest d hd)

theorem dropWhile_dash_of_identifier {s : List Char} (h : identifiers.isIdentifier s) :
    s.dropWhile (· = '-') = s := by
  cases s with
  | nil => cases h
  | cons c rest =>
      have hstart := (Bool.and_eq_true_iff.mp h).1
      refine List.dropWhile_cons_of_neg ?_
      simpa using identifiers.start_ne_dash c hstart

theorem sortField_eq (v : String) :
    v.toList = (if (sortField v).2 then ['-'] else []) ++ (sortField v).1.toList := by
  unfold sortField
  split
  · rename_i rest heq
    simp [heq]
  · rfl

theorem sortField_descending (v : String) :
    (sortField v).2 = decide (v.toList.head? = some '-') := by
  unfold sortField
  split
  · rename_i rest heq
    simp [heq]
  · rename_i hdash
    symm
    refine decide_eq_false fun hhead => ?_
    obtain ⟨rest, hrest⟩ := List.head?_eq_some_iff.mp hhead
    exact hdash rest hrest

/-- Nothing but the one dash is taken off an identifier. -/
theorem cleaned_of_identifier {v : String}
    (h : identifiers.isIdentifier (sortField v).1.toList) : cleaned v = (sortField v).1 := by
  have hdashes : v.toList.dropWhile (· = '-') = (sortField v).1.toList := by
    rw [sortField_eq v]
    split_ifs
    · rw [List.singleton_append, List.dropWhile_cons_of_pos (by rfl),
        dropWhile_dash_of_identifier h]
    · exact dropWhile_dash_of_identifier h
  rw [cleaned, hdashes, strip_of_forall (not_space_of_identifier h), String.ofList_toList]

theorem validateOrderBy_ok {schema : FilterParamsSchema} {v w : String}
    (h : schema.validateOrderBy identifiers v = .ok w) :
    w = v ∧ identifiers.isIdentifier (cleaned v).toList ∧
      (schema.orderingFields ≠ [] → cleaned v ∈ schema.orderingFields) := by
  unfold FilterParamsSchema.validateOrderBy at h
  split_ifs at h with hlength hidentifier hlisted
  cases h
  refine ⟨rfl, by simpa using hidentifier, fun hfields => ?_⟩
  by_contra hnot
  exact hlisted ⟨hfields, hnot⟩

end Identifiers

/-! ## What is sorted by -/

section Queries

variable {M Row Val Arg : Type} (mapping : Mapping M Row Val Arg)
  (precedes : Option Val → Option Val → Bool) (b : QueryBuilder M Row Val Arg) (db : Db M Row)

/-- `_apply_sorting` sorts by the column the validator has looked at, in descending
order exactly when the text starts with a dash. -/
def Honoured (v : String) : Prop :=
  (sortField v).1 = cleaned v ∧ ∃ value, sortValue mapping b db (cleaned v) = .ok value ∧
    ∀ rows, applySorting mapping precedes b db (some v) rows =
      .ok (rows.insertionSort fun x y =>
        directed precedes (v.toList.head? = some '-') (value x) (value y) = true)

/-- The class has a column of this name, or else the filtered statement an annotated one. -/
def Sortable (field : String) : Prop :=
  match mapping.schema.attr b.model field with
  | some attr => ∃ column, attr = .column column
  | none => b.filters ≠ [] ∧ field ∈ b.annotations.map Prod.fst

variable {mapping precedes b db}

variable (db) in
/-- Then `_apply_sorting` has something to sort by. -/
theorem sortValue_ok_iff {field : String} :
    (∃ value, sortValue mapping b db field = .ok value) ↔ Sortable mapping b field := by
  unfold sortValue Sortable
  cases hattr : mapping.schema.attr b.model field with
  | some attr =>
      cases attr with
      | column column => exact iff_of_true ⟨_, rfl⟩ ⟨column, rfl⟩
      | relation rel => exact iff_of_false nofun nofun
  | none =>
      dsimp only
      by_cases hfilters : b.filters = []
      · rw [if_pos hfilters]
        exact iff_of_false nofun fun h => h.1 hfilters
      · rw [if_neg hfilters]
        by_cases hannotated : field ∈ b.annotations.map Prod.fst
        · obtain ⟨expr, hexpr⟩ := Dict.exists_get hannotated
          rw [hexpr]
          exact iff_of_true ⟨_, rfl⟩ ⟨hfilters, hannotated⟩
        · rw [Dict.get_eq_none hannotated]
          exact iff_of_false nofun fun h => hannotated h.2

theorem applySorting_of_value {v : String} {value : Row → Option Val} (hne : v ≠ "")
    (hvalue : sortValue mapping b db (sortField v).1 = .ok value) (rows : List Row) :
    applySorting mapping precedes b db (some v) rows =
      .ok (rows.insertionSort fun x y =>
        directed precedes (v.toList.head? = some '-') (value x) (value y) = true) := by
  have hgiven : orderGiven (some v) = some v := Option.filter_some_pos (by simpa using hne)
  rw [applySorting, hgiven]
  simp only [hvalue, sortField_descending]
  rfl

/-- A text is not honoured although the validator lets it through, unless what
follows its dash is an identifier and names a column of the class. -/
theorem honoured_iff (identifiers : Identifiers) (schema : FilterParamsSchema) (v : String) :
    (schema.validateOrderBy identifiers v = .ok v → Honoured mapping precedes b db v) ↔
      (schema.validateOrderBy identifiers v = .ok v →
        identifiers.isIdentifier (sortField v).1.toList ∧
          Sortable mapping b (sortField v).1) := by
  refine imp_congr_right fun haccepted => ?_
  rw [← sortValue_ok_iff db]
  refine ⟨fun h => ?_, fun h => ?_⟩
  · obtain ⟨hfield, value, hvalue, -⟩ := h
    rw [hfield]
    exact ⟨(validateOrderBy_ok haccepted).2.1, value, hvalue⟩
  · obtain ⟨hidentifier, value, hvalue⟩ := h
    have hcleaned := cleaned_of_identifier hidentifier
    have hne : v ≠ "" := by
      rintro rfl
      cases hidentifier
    exact ⟨hcleaned.symm, value, hcleaned.symm ▸ hvalue, applySorting_of_value hne hvalue⟩

end Queries

theorem sortable_of_accepted {identifiers : Identifiers} {route : ListingRoute} {v : String}
    {b : ModelQuery} (now : Int) (hmodel : b.model = route.model)
    (hlist : route.schema.orderingFields ≠ [])
    (haccepted : route.schema.validateOrderBy identifiers v = .ok v)
    (hidentifier : identifiers.isIdentifier (sortField v).1.toList) :
    Sortable (mapping now) b (sortField v).1 := by
  have hlisted := (validateOrderBy_ok haccepted).2.2 hlist
  rw [cleaned_of_identifier hidentifier] at hlisted
  obtain ⟨col, hcol⟩ := sortable_of_listed now route hlisted
  unfold Sortable
  rw [hmodel, hcol]
  exact ⟨col, rfl⟩

/-! ## Identifiers of Latin letters -/

theorem not_space_of_alphanum {c : Char} (h : c.isAlphanum ∨ c = '_') : ¬ isSpace c := by
  have hrange : 48 ≤ c.val.toNat ∧ c.val.toNat ≤ 122 := by
    have hsplit : ((c.isUpper || c.isLower) || c.isDigit) ∨ c = '_' := h
    simp only [Bool.or_eq_true] at hsplit
    rcases hsplit with ((hupper | hlower) | hdigit) | rfl
    · have hbounds : 65 ≤ c.val.toNat ∧ c.val.toNat ≤ 90 := of_decide_eq_true hupper
      omega
    · have hbounds : 97 ≤ c.val.toNat ∧ c.val.toNat ≤ 122 :=
        (Bool.and_eq_true_iff.mp hlower).imp of_decide_eq_true of_decide_eq_true
      omega
    · have hbounds : 48 ≤ c.val.toNat ∧ c.val.toNat ≤ 57 :=
        (Bool.and_eq_true_iff.mp hdigit).imp of_decide_eq_true of_decide_eq_true
      omega
    · decide
  simp only [isSpace, decide_eq_true_eq, UInt32.le_iff_toNat_le, ← UInt32.toNat_inj,
    UInt32.toNat_ofNat]
  omega

def latin : Identifiers where
  start c := c.isAlpha || c = '_'
  part c := c.isAlphanum || c = '_'
  start_ne_dash c h := by
    rintro rfl
    cases h
  start_not_space c h := not_space_of_alphanum (by
    simp only [Bool.or_eq_true, decide_eq_true_eq] at h
    exact h.imp_left fun halpha => by simp [Char.isAlphanum, halpha])
  part_not_space c h := not_space_of_alphanum (by simpa using h)

/-- Two dashes or a space before a name that may be sorted by, and a name that is
no column where every name is let through. -/
theorem orderBy_not_honoured :
    ¬ (eventFilterParams.validateOrderBy latin "--id" = .ok "--id" →
        Honoured (mapping 0) (fun _ _ => true) (filter .event []) (fun _ => []) "--id") ∧
      ¬ (eventFilterParams.validateOrderBy latin " id" = .ok " id" →
        Honoured (mapping 0) (fun _ _ => true) (filter .event []) (fun _ => []) " id") ∧
      ¬ (ListingRoute.orders.schema.validateOrderBy latin "nonexistent_field" =
          .ok "nonexistent_field" →
        Honoured (mapping 0) (fun _ _ => true) (filter .order []) (fun _ => [])
          "nonexistent_field") := by
  refine ⟨fun h => ?_, fun h => ?_, fun h => ?_⟩
  · exact absurd (h (by decide)).1 (by decide)
  · exact absurd (h (by decide)).1 (by decide)
  · obtain ⟨-, value, hvalue, -⟩ := h (by decide)
    cases hvalue

end TicketBooking.Query.OrderBy
