import TicketBooking.Library.Keys
/-!
# Filter keys

The names of `OPERATORS` and the two places that split a filter key:
`QueryFilterApplier._prepare_filters` looks at its last component,
`FilterResolver.resolve` at what follows its first one.
-/

namespace TicketBooking.Query.Operators

open TicketBooking.Library

inductive Operator
  | eq
  | between
  | ieq
  | ne
  | gte
  | lte
  | gt
  | lt
  | isIn
  | notIn
  | contains
  | icontains
  | startswith
  | istartswith
  | endswith
  | iendswith
  | hasAny
  | isNull
  | isNotNull
  deriving DecidableEq, Repr

def Operator.name : Operator → String
  | .eq => "eq"
  | .between => "between"
  | .ieq => "ieq"
  | .ne => "ne"
  | .gte => "gte"
  | .lte => "lte"
  | .gt => "gt"
  | .lt => "lt"
  | .isIn => "in"
  | .notIn => "not_in"
  | .contains => "contains"
  | .icontains => "icontains"
  | .startswith => "startswith"
  | .istartswith => "istartswith"
  | .endswith => "endswith"
  | .iendswith => "iendswith"
  | .hasAny => "has_any"
  | .isNull => "is_null"
  | .isNotNull => "is_not_null"

/-- The keys of `OPERATORS`. -/
def operators : List Operator :=
  [.eq, .between, .ieq, .ne, .gte, .lte, .gt, .lt, .isIn, .notIn, .contains, .icontains,
    .startswith, .istartswith, .endswith, .iendswith, .hasAny, .isNull, .isNotNull]

def operatorOf (name : String) : Option Operator :=
  operators.find? fun op => op.name = name

/-! ## Components -/

/-- `key.split("__")`. -/
def components (key : String) : List String :=
  (Keys.split '_' key.toList).map String.ofList

/-- `key.split("__", 1)` of a key with a `"__"` in it. -/
def splitOnce (key : String) : Option (String × String) :=
  (Keys.cut '_' key.toList).map fun parts => (String.ofList parts.1, String.ofList parts.2)

def joined (parts : List String) : String :=
  String.ofList (Keys.join '_' (parts.map String.toList))

theorem components_ne_nil (key : String) : components key ≠ [] := by
  unfold components
  rw [ne_eq, List.map_eq_nil_iff]
  exact Keys.split_ne_nil _

/-! ## The two readings -/

/-- `_prepare_filters`: the path as one text, and the operator. -/
def preparedReading (key : String) : String × Operator :=
  match operatorOf ((components key).getLast (components_ne_nil key)) with
  | some op => (joined (components key).dropLast, op)
  | none => (key, .eq)

/-- `FilterResolver.resolve`: the path as one text, and the operator. -/
def resolvedReading (key : String) : String × Operator :=
  match splitOnce key with
  | none => (key, .eq)
  | some (head, rest) =>
      match operatorOf rest with
      | some op => (head, op)
      | none => (key, .eq)

/-- What a key says: its last component is an operator when it names one and a
field stands before it. -/
def denotedReading (key : String) : List String × Operator :=
  match operatorOf ((components key).getLast (components_ne_nil key)) with
  | some op =>
      if (components key).length = 1 then (components key, .eq) else ((components key).dropLast, op)
  | none => (components key, .eq)

/-- An operator, if the key ends in one, follows a single component. -/
def SimpleOperator (key : String) : Prop :=
  (operatorOf ((components key).getLast (components_ne_nil key))).isSome →
    (components key).length = 2

instance (key : String) : Decidable (SimpleOperator key) :=
  inferInstanceAs (Decidable (_ → _))

/-! ## Splitting once and splitting -/

theorem components_eq (key : String) :
    components key = match splitOnce key with
      | none => [key]
      | some (head, rest) => head :: components rest := by
  unfold components splitOnce
  rw [Keys.split_eq]
  cases Keys.cut '_' key.toList with
  | none => simp
  | some parts => simp

theorem joined_components (key : String) : joined (components key) = key := by
  unfold joined components
  rw [List.map_map]
  have hid : (String.toList ∘ String.ofList) = id := funext fun text => String.toList_ofList
  rw [hid, List.map_id, Keys.join_split, String.ofList_toList]

theorem components_head {key head rest : String} (h : splitOnce key = some (head, rest)) :
    components head = [head] := by
  unfold splitOnce at h
  obtain ⟨parts, hcut, heq⟩ := Option.map_eq_some_iff.mp h
  cases heq
  unfold components
  rw [String.toList_ofList, Keys.split_eq_singleton.mpr (Keys.cut_head hcut)]
  rfl

theorem name_of_operatorOf {name : String} {op : Operator} (h : operatorOf name = some op) :
    op.name = name := by
  simpa using List.find?_some h

/-- No operator's name has a `"__"` in it. -/
theorem components_operator {name : String} {op : Operator} (h : operatorOf name = some op) :
    components name = [name] := by
  rw [← name_of_operatorOf h]
  cases op <;> rfl

theorem joined_singleton (part : String) : joined [part] = part := by
  simp [joined, Keys.join]

/-! ## When the two agree -/

theorem readings_of_simpleOperator {key : String} (h : SimpleOperator key) :
    preparedReading key = (joined (denotedReading key).1, (denotedReading key).2) ∧
      components (resolvedReading key).1 = (denotedReading key).1 ∧
      (resolvedReading key).2 = (denotedReading key).2 := by
  unfold SimpleOperator at h
  unfold preparedReading denotedReading resolvedReading
  have hcomponents := components_eq key
  cases hlast : operatorOf ((components key).getLast (components_ne_nil key)) with
  | some op =>
      have hlength : (components key).length = 2 := h (by rw [hlast]; rfl)
      cases hsplit : splitOnce key with
      | none =>
          simp only [hsplit] at hcomponents
          simp [hcomponents] at hlength
      | some parts =>
          obtain ⟨head, rest⟩ := parts
          simp only [hsplit] at hcomponents
          simp only [hcomponents, List.length_cons, Nat.reduceEqDiff] at hlength
          obtain ⟨last, hrest⟩ := List.length_eq_one_iff.mp hlength
          have hlast' : last = rest := by
            rw [← joined_components rest, hrest, joined_singleton]
          subst hlast'
          simp only [hcomponents, hrest, List.getLast_cons_cons, List.getLast_singleton] at hlast
          simp [hcomponents, hrest, hlast, components_head hsplit]
  | none =>
      refine ⟨by simp only [joined_components], ?_⟩
      cases hsplit : splitOnce key with
      | none => exact ⟨rfl, rfl⟩
      | some parts =>
          obtain ⟨head, rest⟩ := parts
          cases hop : operatorOf rest with
          | none => simp only [hop, and_self]
          | some op =>
              simp only [hsplit] at hcomponents
              simp [hcomponents, components_operator hop, hop] at hlast

/-- A key longer than a path and an operator is a path as a whole. -/
theorem resolvedReading_long {key : String} {parts : String × String}
    (h : splitOnce key = some parts) (hlong : (components key).length ≠ 2) :
    resolvedReading key = (key, .eq) := by
  obtain ⟨head, rest⟩ := parts
  unfold resolvedReading
  rw [h]
  cases hop : operatorOf rest with
  | none => simp only [hop]
  | some op =>
      rw [components_eq, h] at hlong
      simp [components_operator hop] at hlong

/-- The two places read a key alike exactly when no operator follows more than
one component. -/
theorem readings_agree_iff {key : String} :
    preparedReading key = resolvedReading key ↔ SimpleOperator key := by
  constructor
  · intro hagree hsome
    obtain ⟨op, hop⟩ := Option.isSome_iff_exists.mp hsome
    by_contra hlength
    have hresolved : resolvedReading key = (key, .eq) := by
      cases hsplit : splitOnce key with
      | none => simp only [resolvedReading, hsplit]
      | some parts => exact resolvedReading_long hsplit hlength
    have hpath : joined (components key).dropLast = key := by
      rw [hresolved, preparedReading, hop] at hagree
      exact (Prod.mk.inj hagree).1
    by_cases hone : (components key).length = 1
    · obtain ⟨only, hkey⟩ := List.length_eq_one_iff.mp hone
      have hempty : key = "" := by
        rw [← hpath, hkey]
        rfl
      subst hempty
      cases hop
    · have hpos := List.length_pos_iff.mpr (components_ne_nil key)
      have hlt : (Keys.join '_' ((components key).map String.toList).dropLast).length <
          (Keys.join '_' ((components key).map String.toList)).length :=
        Keys.length_join_dropLast (by rw [List.length_map]; omega)
      rw [← List.map_dropLast] at hlt
      have heq := congrArg String.toList (hpath.trans (joined_components key).symm)
      unfold joined at heq
      rw [String.toList_ofList, String.toList_ofList] at heq
      rw [heq] at hlt
      exact Nat.lt_irrefl _ hlt
  · intro h
    obtain ⟨hprepared, hpath, hop⟩ := readings_of_simpleOperator h
    rw [hprepared, ← hpath, ← hop, joined_components]

end TicketBooking.Query.Operators
