import Mathlib.Data.Rat.Defs
import TicketBooking.Query.Operators
/-!
# Comparisons

`OPERATORS`: what each comparison computes of a column's value and the value of
the filter, with SQL's three-valued logic cut to whether the clause is TRUE.
-/

namespace TicketBooking.Query.Comparisons

open TicketBooking.Query.Operators

/-- A value of a column; a timestamp counts microseconds. -/
inductive Value
  | int (n : Int)
  | real (q : Rat)
  | text (s : String)
  | bool (b : Bool)
  | time (t : Int)
  deriving DecidableEq, Repr

/-- The value of a filter: a scalar or a list. -/
inductive Argument
  | one (v : Value)
  | many (vs : List Value)
  deriving DecidableEq, Repr

def Value.lt : Value → Value → Bool
  | .int m, .int n => m < n
  | .real p, .real q => p < q
  | .int m, .real q => (m : Rat) < q
  | .real p, .int n => p < (n : Rat)
  | .text s, .text t => s < t
  | .bool a, .bool b => !a && b
  | .time s, .time t => s < t
  | _, _ => false

def Value.truthy : Value → Bool
  | .int n => n ≠ 0
  | .real q => q ≠ 0
  | .text s => s ≠ ""
  | .bool b => b
  | .time _ => true

def Argument.truthy : Argument → Bool
  | .one v => v.truthy
  | .many vs => vs ≠ []

/-- `str(val)` of texts, integers and booleans. -/
def Value.str : Value → Option String
  | .text s => some s
  | .int n => some (toString n)
  | .bool b => some (if b then "True" else "False")
  | .real _ => none
  | .time _ => none

/-! ## LIKE -/

/-- `s.replace(c, "\\" + c)`. -/
def escapeChar (c : Char) (s : List Char) : List Char :=
  s.flatMap fun d => if d = c then ['\\', d] else [d]

/-- `str(val).replace('\\', '\\\\').replace('%', '\\%').replace('_', '\\_')`. -/
def escape (s : List Char) : List Char :=
  escapeChar '_' (escapeChar '%' (escapeChar '\\' s))

/-- `text LIKE pattern ESCAPE '\'`. -/
def like : List Char → List Char → Bool
  | [], text => text.isEmpty
  | '\\' :: c :: pattern, text =>
      match text with
      | [] => false
      | d :: rest => c == d && like pattern rest
  | '%' :: pattern, text => text.tails.any (like pattern)
  | '_' :: pattern, text =>
      match text with
      | [] => false
      | _ :: rest => like pattern rest
  | c :: pattern, text =>
      match text with
      | [] => false
      | d :: rest => c == d && like pattern rest

def ilike (pattern text : List Char) : Bool :=
  like (pattern.map Char.toLower) (text.map Char.toLower)

/-- The pattern of a text operator around the escaped value. -/
def pattern (op : Operator) (escaped : List Char) : List Char :=
  match op with
  | .contains => '%' :: escaped ++ ['%']
  | .icontains => '%' :: escaped ++ ['%']
  | .startswith => escaped ++ ['%']
  | .istartswith => escaped ++ ['%']
  | .endswith => '%' :: escaped
  | .iendswith => '%' :: escaped
  | _ => escaped

def textMatches (op : Operator) (val : String) (u : Option Value) : Bool :=
  match u with
  | some (.text s) =>
      match op with
      | .contains => like (pattern op (escape val.toList)) s.toList
      | .startswith => like (pattern op (escape val.toList)) s.toList
      | .endswith => like (pattern op (escape val.toList)) s.toList
      | _ => ilike (pattern op (escape val.toList)) s.toList
  | _ => false

/-- `OPERATORS[op](col, val)`; `none` when the call raises.  `has_any` is for
relationships. -/
def compare (op : Operator) (val : Argument) : Option (Option Value → Bool) :=
  match op, val with
  | .eq, .one v => some fun u => u = some v
  | .ne, .one v => some fun u => u.any (· ≠ v)
  | .gte, .one v => some fun u => u.any fun u => v.lt u || u = v
  | .lte, .one v => some fun u => u.any fun u => u.lt v || u = v
  | .gt, .one v => some fun u => u.any fun u => v.lt u
  | .lt, .one v => some fun u => u.any fun u => u.lt v
  | .between, .many (low :: high :: _) =>
      some fun u => u.any fun u => (low.lt u || u = low) && (u.lt high || u = high)
  | .isIn, .many vs => some fun u => u.any (· ∈ vs)
  | .notIn, .many vs => some fun u => u.any (· ∉ vs)
  | .isNull, val => some fun u => if val.truthy then u.isNone else u.isSome
  | .isNotNull, val => some fun u => if val.truthy then u.isSome else u.isNone
  | .ieq, .one v => v.str.map (textMatches .ieq)
  | .contains, .one v => v.str.map (textMatches .contains)
  | .icontains, .one v => v.str.map (textMatches .icontains)
  | .startswith, .one v => v.str.map (textMatches .startswith)
  | .istartswith, .one v => v.str.map (textMatches .istartswith)
  | .endswith, .one v => v.str.map (textMatches .endswith)
  | .iendswith, .one v => v.str.map (textMatches .iendswith)
  | _, _ => none

end TicketBooking.Query.Comparisons
