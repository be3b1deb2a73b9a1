import TicketBooking.Database.Models
import TicketBooking.Library.Pages
import TicketBooking.Query.Sorting
/-!
# Walking the pages of a listing

Each page of `paginate` is a query of its own.  What its ORDER BY clause leaves
open, the database decides anew for every page.
-/

namespace TicketBooking.Query.Pages

open TicketBooking.Library TicketBooking.Library.Outcomes TicketBooking.Library.Pages
open TicketBooking.Query.Builder TicketBooking.Query.Filters TicketBooking.Query.Matching
open TicketBooking.Query.Sorting

variable {M Row Val Arg : Type}

section Statements

variable [DecidableEq M] [DecidableEq Val] (mapping : Mapping M Row Val Arg)
  (precedes : Option Val → Option Val → Bool) (b : QueryBuilder M Row Val Arg) (db : Db M Row)

/-- Which row the ORDER BY clause lets stand before which; without one, any. -/
def orderBefore (orderBy : Option String) : Except QueryError (Row → Row → Bool) :=
  match orderGiven orderBy with
  | none => .ok fun _ _ => true
  | some text =>
      (sortValue mapping b db (sortField text).1).map fun value x y =>
        directed precedes (sortField text).2 (value x) (value y)

/-- `paginate(offset=offset, limit=limit)` when the rows come in this order. -/
def pageOf [DecidableEq Row] (arranged : List Row) (offset limit : Nat) : List Row × Nat :=
  let page := (arranged.drop offset).take limit
  (unique page, if page = [] then 0 else arranged.length)

/-- The pages at the offsets 0, `limit`, 2 * `limit` and so on show every matching
row exactly once, whatever order the database gives each of them. -/
def YieldsEachOnce [DecidableEq Row] (orderBy : Option String) (limit : Nat) : Prop :=
  ∃ rows before, fetch mapping b db = .ok rows ∧
    orderBefore mapping precedes b db orderBy = .ok before ∧
    ∀ choice : Nat → List Row, (∀ k, Arrangement before rows (choice k)) →
      ∀ pages, rows.length ≤ pages * limit →
        ((List.range pages).flatMap fun k => (pageOf (choice k) (k * limit) limit).1).Perm
          (unique rows)

end Statements

section Walk

variable [DecidableEq M] [DecidableEq Val] {mapping : Mapping M Row Val Arg}
  {precedes : Option Val → Option Val → Bool} {b : QueryBuilder M Row Val Arg} {db : Db M Row}

theorem distinct_unique [DecidableEq Row] : Distinct (unique : List Row → List Row) := by
  intro xs
  unfold unique
  refine ⟨List.nodup_reverse.mpr (List.nodup_dedup _), fun x => ?_⟩
  rw [List.mem_reverse, List.mem_dedup, List.mem_reverse]

omit [DecidableEq Val] in
theorem preorder_directed (h : Preorder precedes) (descending : Bool) (value : Row → Option Val) :
    Preorder fun x y => directed precedes descending (value x) (value y) := by
  cases descending with
  | false => exact ⟨fun x y => h.total _ _, fun x y z => h.trans _ _ _⟩
  | true => exact ⟨fun x y => h.total _ _, fun x y z hxy hyz => h.trans _ _ _ hyz hxy⟩

omit [DecidableEq M] [DecidableEq Val] in
theorem preorder_orderBefore (h : Preorder precedes) {orderBy : Option String}
    {before : Row → Row → Bool} (hbefore : orderBefore mapping precedes b db orderBy = .ok before) :
    Preorder before := by
  unfold orderBefore at hbefore
  split at hbefore
  · cases hbefore
    exact ⟨fun _ _ => .inl rfl, fun _ _ _ _ _ => rfl⟩
  · obtain ⟨value, -, rfl⟩ := map_eq_ok hbefore
    exact preorder_directed h _ value

omit [DecidableEq M] [DecidableEq Val] in
theorem applySorting_eq (orderBy : Option String) (rows : List Row) :
    applySorting mapping precedes b db orderBy rows =
      (orderBefore mapping precedes b db orderBy).map fun before =>
        rows.insertionSort fun x y => before x y = true := by
  unfold applySorting orderBefore
  cases orderGiven orderBy with
  | none =>
      have hsorted : rows.Pairwise fun _ _ => true = true := List.pairwise_of_forall fun _ _ => rfl
      exact congrArg Except.ok hsorted.insertionSort_eq.symm
  | some text =>
      simp only
      cases sortValue mapping b db (sortField text).1 <;> rfl

/-- The sorted rows are one of the arrangements the ORDER BY clause allows. -/
theorem sortedRows_ok (h : Preorder precedes) {orderBy : Option String} {sorted : List Row}
    (hsorted : sortedRows mapping precedes b db orderBy = .ok sorted) :
    ∃ rows before, fetch mapping b db = .ok rows ∧
      orderBefore mapping precedes b db orderBy = .ok before ∧ Arrangement before rows sorted := by
  unfold sortedRows at hsorted
  split at hsorted
  · cases hsorted
  · cases hsorted
  · split at hsorted
    · cases hsorted
    · rename_i rows hrows
      rw [applySorting_eq] at hsorted
      obtain ⟨before, hbefore, rfl⟩ := map_eq_ok hsorted
      have hpreorder := preorder_orderBefore h hbefore
      refine ⟨rows, before, hrows, hbefore, List.perm_insertionSort _ _, ?_⟩
      have : Std.Total fun x y => before x y = true := ⟨hpreorder.total⟩
      have : IsTrans Row fun x y => before x y = true := ⟨hpreorder.trans⟩
      exact List.pairwise_insertionSort _ _

theorem sortedRows_of_ok {orderBy : Option String} {rows : List Row} {before : Row → Row → Bool}
    (hrows : fetch mapping b db = .ok rows)
    (hbefore : orderBefore mapping precedes b db orderBy = .ok before) :
    ∃ sorted, sortedRows mapping precedes b db orderBy = .ok sorted := by
  have hprepared := execute_prepared (fetch_eq_ok.mp hrows).1
  unfold sortedRows
  simp only [hprepared, hrows, applySorting_eq, hbefore]
  exact ⟨_, rfl⟩

/-- A walk over the pages shows every row exactly once, whatever the database does
with ties, exactly when the query runs, the field can be sorted by, and no tie
lies across two pages. -/
theorem yieldsEachOnce_iff [DecidableEq Row] (h : Preorder precedes) (orderBy : Option String)
    {limit : Nat} (hlimit : 0 < limit) :
    YieldsEachOnce mapping precedes b db orderBy limit ↔
      ∃ sorted before, sortedRows mapping precedes b db orderBy = .ok sorted ∧
        orderBefore mapping precedes b db orderBy = .ok before ∧ Untied before limit sorted := by
  constructor
  · rintro ⟨rows, before, hrows, hbefore, honce⟩
    obtain ⟨sorted, hsorted⟩ := sortedRows_of_ok hrows hbefore
    obtain ⟨rows', before', hrows', hbefore', harranged⟩ := sortedRows_ok h hsorted
    rw [hrows] at hrows'
    cases hrows'
    rw [hbefore] at hbefore'
    cases hbefore'
    exact ⟨sorted, before, hsorted, hbefore,
      untied_of_eachOnce distinct_unique harranged hlimit honce⟩
  · rintro ⟨sorted, before, hsorted, hbefore, huntied⟩
    obtain ⟨rows, before', hrows, hbefore', harranged⟩ := sortedRows_ok h hsorted
    rw [hbefore] at hbefore'
    cases hbefore'
    have hpreorder := preorder_orderBefore h hbefore
    exact ⟨rows, before, hrows, hbefore,
      eachOnce_of_untied hpreorder distinct_unique harranged hlimit huntied⟩

end Walk

/-! ## Two categories -/

open TicketBooking.Database.Models TicketBooking.Query.Comparisons

def integer : Option Value → Int
  | some (.int n) => n
  | _ => 0

def integerOrder (u v : Option Value) : Bool := integer u ≤ integer v

def music : Record := .eventCategory ⟨1, "Music", none⟩
def theatre : Record := .eventCategory ⟨2, "Theatre", none⟩

def twoCategories : Rows
  | .eventCategory => [music, theatre]
  | _ => []

theorem pages_by_id :
    YieldsEachOnce (mapping 0) integerOrder (filter .eventCategory []) twoCategories (some "id")
      1 := by
  have hpreorder : Preorder integerOrder := by
    constructor
    · intro u v
      simp only [integerOrder, decide_eq_true_eq]
      omega
    · intro u v w
      simp only [integerOrder, decide_eq_true_eq]
      omega
  refine (yieldsEachOnce_iff hpreorder (some "id") (by decide)).mpr
    ⟨[music, theatre], _, rfl, rfl, ?_⟩
  intro k x y hk hx hy
  have hone : k = 1 := by
    have hlt := (List.getElem?_eq_some_iff.mp hy).1
    simp only [List.length_cons, List.length_nil] at hlt
    omega
  subst hone
  cases hx
  cases hy
  rfl

/-- Without an order, the database may show one category on both pages. -/
theorem unordered_pages_repeat :
    ¬ YieldsEachOnce (mapping 0) integerOrder (filter .eventCategory []) twoCategories none 1 := by
  rintro ⟨rows, before, hrows, hbefore, honce⟩
  have hboth : rows = [music, theatre] := by
    cases hrows
    rfl
  cases hbefore
  subst hboth
  let choice : Nat → List Record := fun k => if k = 0 then [music, theatre] else [theatre, music]
  have hchoice : ∀ k, Arrangement (fun _ _ => true) [music, theatre] (choice k) := by
    intro k
    refine ⟨?_, List.pairwise_of_forall fun _ _ => rfl⟩
    unfold choice
    split
    · exact .refl _
    · exact .swap _ _ _
  have hwalk := (honce choice hchoice 2 (by decide)).mem_iff (a := theatre)
  exact absurd (hwalk.mpr (by decide)) (by decide)

end TicketBooking.Query.Pages
