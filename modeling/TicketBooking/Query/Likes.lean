import Mathlib.Data.List.Infix
import TicketBooking.Query.Comparisons
/-!
# Text operators

What the patterns of `contains`, `startswith`, `endswith`, `ieq` and their
variants without case match.  How the database folds case is a parameter.
-/

namespace TicketBooking.Query.Likes

open TicketBooking.Query.Comparisons TicketBooking.Query.Operators

/-- The characters LIKE reads as something else than themselves. -/
def special (c : Char) : Bool := c = '\\' ∨ c = '%' ∨ c = '_'

/-- `lower` of the database, character by character; one character may become
several. -/
structure CaseFolding where
  fold : Char → List Char
  fold_special : ∀ c, special c → fold c = [c]
  plain_of_fold : ∀ c, ¬ special c → ∀ d ∈ fold c, ¬ special d

def CaseFolding.folded (folding : CaseFolding) (s : List Char) : List Char :=
  s.flatMap folding.fold

/-- `text ILIKE pattern ESCAPE '\'`. -/
def ilikeWith (folding : CaseFolding) (pattern text : List Char) : Bool :=
  like (folding.folded pattern) (folding.folded text)

def textOperators : List Operator :=
  [.ieq, .contains, .icontains, .startswith, .istartswith, .endswith, .iendswith]

/-- `OPERATORS[op](col, val)` for a column with the text `s`; `val` is `str(val)`. -/
def matchesWith (folding : CaseFolding) (op : Operator) (val s : List Char) : Bool :=
  match op with
  | .contains => like (pattern op (escape val)) s
  | .startswith => like (pattern op (escape val)) s
  | .endswith => like (pattern op (escape val)) s
  | _ => ilikeWith folding (pattern op (escape val)) s

def Says (folding : CaseFolding) (op : Operator) (val s : List Char) : Prop :=
  match op with
  | .contains => val <:+: s
  | .icontains => folding.folded val <:+: folding.folded s
  | .startswith => val <+: s
  | .istartswith => folding.folded val <+: folding.folded s
  | .endswith => val <:+ s
  | .iendswith => folding.folded val <:+ folding.folded s
  | _ => folding.folded val = folding.folded s

/-! ## Escaping -/

def escaped (c : Char) : List Char := if special c then ['\\', c] else [c]

/-- The three replacements are one: a later one meets no backslash or sign that an
earlier one has put there, but for those it is to escape. -/
theorem escape_eq (s : List Char) : escape s = s.flatMap escaped := by
  unfold escape escapeChar
  rw [List.flatMap_assoc, List.flatMap_assoc]
  refine List.flatMap_congr fun c _ => ?_
  unfold escaped special
  by_cases hbackslash : c = '\\'
  · subst hbackslash
    rfl
  by_cases hpercent : c = '%'
  · subst hpercent
    rfl
  by_cases hunderscore : c = '_'
  · subst hunderscore
    rfl
  simp [hbackslash, hpercent, hunderscore]

@[simp] theorem escape_nil : escape [] = [] := rfl

theorem escape_cons (c : Char) (s : List Char) : escape (c :: s) = escaped c ++ escape s := by
  rw [escape_eq, escape_eq, List.flatMap_cons]

theorem escape_append (s t : List Char) : escape (s ++ t) = escape s ++ escape t := by
  rw [escape_eq, escape_eq, escape_eq, List.flatMap_append]

/-! ## Matching -/

@[simp] theorem like_nil (text : List Char) : like [] text ↔ text = [] := by
  simp [like]

theorem like_percent (pattern text : List Char) :
    like ('%' :: pattern) text ↔ ∃ rest, rest <:+ text ∧ like pattern rest := by
  simp only [like, List.any_eq_true, List.mem_tails]

/-- The text begins with a character, and the rest of it is as asked. -/
def startsWith (c : Char) (rest : List Char → Bool) : List Char → Bool
  | [] => false
  | d :: text => c == d && rest text

theorem startsWith_iff {c : Char} {rest : List Char → Bool} {text : List Char} :
    startsWith c rest text ↔ ∃ t, text = c :: t ∧ rest t := by
  cases text with
  | nil => simp [startsWith]
  | cons d text =>
      simp only [startsWith, Bool.and_eq_true, beq_iff_eq, List.cons.injEq]
      constructor
      · rintro ⟨rfl, hrest⟩
        exact ⟨text, ⟨rfl, rfl⟩, hrest⟩
      · rintro ⟨t, ⟨rfl, rfl⟩, hrest⟩
        exact ⟨rfl, hrest⟩

theorem like_plain {c : Char} (h : ¬ special c) (pattern text : List Char) :
    like (c :: pattern) text = startsWith c (like pattern) text := by
  simp only [special, decide_eq_true_eq, not_or] at h
  obtain ⟨hbackslash, hpercent, hunderscore⟩ := h
  rw [like.eq_def]
  split
  case h_1 heq => cases heq
  case h_2 heq => exact absurd (List.cons.inj heq).1 hbackslash
  case h_3 heq => exact absurd (List.cons.inj heq).1 hpercent
  case h_4 heq => exact absurd (List.cons.inj heq).1 hunderscore
  case h_5 heq =>
      cases heq
      rfl

/-- An escaped character stands for itself. -/
theorem like_escaped (c : Char) (pattern text : List Char) :
    like (escaped c ++ pattern) text ↔ ∃ rest, text = c :: rest ∧ like pattern rest := by
  have hliteral : like (escaped c ++ pattern) text = startsWith c (like pattern) text := by
    unfold escaped
    split_ifs with hspecial
    · show like ('\\' :: c :: pattern) text = _
      rw [like.eq_def]
      cases text <;> rfl
    · exact like_plain hspecial pattern text
  rw [hliteral]
  exact startsWith_iff

/-- The escaped text matches itself and nothing else. -/
theorem like_escape_append (val pattern text : List Char) :
    like (escape val ++ pattern) text ↔ ∃ rest, text = val ++ rest ∧ like pattern rest := by
  induction val generalizing text with
  | nil => simp
  | cons c val ih =>
      rw [escape_cons, List.append_assoc, like_escaped]
      constructor
      · rintro ⟨rest, rfl, hrest⟩
        obtain ⟨rest, rfl, hlike⟩ := (ih rest).mp hrest
        exact ⟨rest, rfl, hlike⟩
      · rintro ⟨rest, rfl, hlike⟩
        exact ⟨val ++ rest, rfl, (ih _).mpr ⟨rest, rfl, hlike⟩⟩

theorem like_any (text : List Char) : like ['%'] text := by
  rw [like_percent]
  exact ⟨[], List.nil_suffix, (like_nil []).mpr rfl⟩

theorem like_exact (val text : List Char) : like (escape val) text ↔ val = text := by
  have h := like_escape_append val [] text
  simp only [List.append_nil, like_nil] at h
  rw [h]
  constructor
  · rintro ⟨rest, rfl, rfl⟩
    exact (List.append_nil val).symm
  · rintro rfl
    exact ⟨[], (List.append_nil val).symm, rfl⟩

theorem like_startswith (val text : List Char) :
    like (escape val ++ ['%']) text ↔ val <+: text := by
  rw [like_escape_append]
  constructor
  · rintro ⟨rest, rfl, -⟩
    exact List.prefix_append val rest
  · rintro ⟨rest, rfl⟩
    exact ⟨rest, rfl, like_any rest⟩

theorem like_endswith (val text : List Char) : like ('%' :: escape val) text ↔ val <:+ text := by
  rw [like_percent]
  constructor
  · rintro ⟨rest, hrest, hlike⟩
    rw [(like_exact val rest).mp hlike]
    exact hrest
  · intro h
    exact ⟨val, h, (like_exact val val).mpr rfl⟩

theorem like_contains (val text : List Char) :
    like ('%' :: escape val ++ ['%']) text ↔ val <:+: text := by
  rw [List.cons_append, like_percent]
  constructor
  · rintro ⟨rest, hrest, hlike⟩
    exact List.infix_iff_prefix_suffix.mpr ⟨rest, (like_startswith val rest).mp hlike, hrest⟩
  · intro h
    obtain ⟨rest, hprefix, hsuffix⟩ := List.infix_iff_prefix_suffix.mp h
    exact ⟨rest, hsuffix, (like_startswith val rest).mpr hprefix⟩

/-! ## Folding -/

section Folding

variable (folding : CaseFolding)

theorem folded_append (s t : List Char) :
    folding.folded (s ++ t) = folding.folded s ++ folding.folded t := List.flatMap_append

theorem escape_of_plain {s : List Char} (h : ∀ c ∈ s, ¬ special c) : escape s = s := by
  induction s with
  | nil => rfl
  | cons c s ih =>
      rw [escape_cons, ih fun d hd => h d (List.mem_cons_of_mem _ hd), escaped,
        if_neg (h c List.mem_cons_self)]
      rfl

theorem folded_escape (val : List Char) :
    folding.folded (escape val) = escape (folding.folded val) := by
  induction val with
  | nil => rfl
  | cons c val ih =>
      have hone : folding.folded (escaped c) = escape (folding.fold c) := by
        unfold escaped
        split_ifs with hspecial
        · have hslash : folding.fold '\\' = ['\\'] := folding.fold_special '\\' rfl
          rw [folding.fold_special c hspecial, escape_cons, escape_nil, escaped, if_pos hspecial]
          simp [CaseFolding.folded, hslash, folding.fold_special c hspecial]
        · rw [escape_of_plain (folding.plain_of_fold c hspecial)]
          simp [CaseFolding.folded]
      have hcons : folding.folded (c :: val) = folding.fold c ++ folding.folded val :=
        List.flatMap_cons
      rw [escape_cons, folded_append, hone, ih, hcons, escape_append]

theorem folded_any : folding.folded ['%'] = ['%'] := by
  rw [CaseFolding.folded, List.flatMap_cons, folding.fold_special '%' rfl]
  rfl

theorem folded_any_cons (s : List Char) : folding.folded ('%' :: s) = '%' :: folding.folded s := by
  rw [← List.singleton_append, folded_append, folded_any, List.singleton_append]

end Folding

/-- A pattern matches what the name of its operator says. -/
theorem matchesWith_iff (folding : CaseFolding) (val s : List Char) {op : Operator}
    (hop : op ∈ textOperators) : matchesWith folding op val s ↔ Says folding op val s := by
  have hall : textOperators.Forall fun op =>
      matchesWith folding op val s ↔ Says folding op val s := by
    refine ⟨?_, ?_, ?_, ?_, ?_, ?_, ?_⟩
    · show like (folding.folded (escape val)) (folding.folded s) ↔ _
      rw [folded_escape]
      exact like_exact _ _
    · exact like_contains val s
    · show like (folding.folded ('%' :: escape val ++ ['%'])) (folding.folded s) ↔ _
      rw [List.cons_append, folded_any_cons, folded_append, folded_any, folded_escape]
      exact like_contains _ _
    · exact like_startswith val s
    · show like (folding.folded (escape val ++ ['%'])) (folding.folded s) ↔ _
      rw [folded_append, folded_any, folded_escape]
      exact like_startswith _ _
    · exact like_endswith val s
    · show like (folding.folded ('%' :: escape val)) (folding.folded s) ↔ _
      rw [folded_any_cons, folded_escape]
      exact like_endswith _ _
  exact List.forall_iff_forall_mem.mp hall op hop

/-! ## Latin letters -/

theorem toLower_eq_or (c : Char) :
    c.toLower = c ∨ 65 ≤ c.toNat ∧ c.toNat ≤ 90 ∧ c.toLower.toNat = c.toNat + 32 := by
  unfold Char.toLower
  split_ifs with hupper
  · right
    obtain ⟨hlow, hhigh⟩ := hupper
    have hlow : 65 ≤ c.val.toNat := hlow
    have hhigh : c.val.toNat ≤ 90 := hhigh
    have hsum : (c.val + 32).toNat = c.val.toNat + 32 := by
      have hshift : (32 : UInt32).toNat = 32 := rfl
      rw [UInt32.toNat_add, hshift]
      omega
    exact ⟨hlow, hhigh, hsum⟩
  · exact .inl rfl

theorem special_iff {c : Char} : special c ↔ c.toNat = 92 ∨ c.toNat = 37 ∨ c.toNat = 95 := by
  simp only [special, decide_eq_true_eq, ← Char.toNat_inj]
  rfl

def latin : CaseFolding where
  fold c := [c.toLower]
  fold_special c h := by
    rw [special_iff] at h
    rcases toLower_eq_or c with heq | ⟨hlow, hhigh, -⟩
    · rw [heq]
    · omega
  plain_of_fold c h d hd := by
    rw [List.mem_singleton.mp hd]
    rcases toLower_eq_or c with heq | ⟨hlow, hhigh, hsum⟩
    · rwa [heq]
    · rw [special_iff]
      omega

theorem folded_latin (s : List Char) : latin.folded s = s.map Char.toLower :=
  List.map_eq_flatMap.symm

theorem ilike_eq (pattern text : List Char) :
    ilike pattern text = ilikeWith latin pattern text := by
  unfold ilike ilikeWith
  rw [folded_latin, folded_latin]

/-- The comparisons fold Latin letters. -/
theorem textMatches_eq (op : Operator) (val s : String) :
    textMatches op val (some (.text s)) = matchesWith latin op val.toList s.toList := by
  cases op with
  | contains => rfl
  | startswith => rfl
  | endswith => rfl
  | _ => exact ilike_eq _ _

/-! ## The operators -/

/-- `OPERATORS[op](col, val)` for a column with a text; `str` is Python's. -/
def textClause {V : Type} (folding : CaseFolding) (str : V → String) (op : Operator) (val : V)
    (column : String) : Bool :=
  matchesWith folding op (str val).toList column.toList

/-- Each operator selects what its name says, whatever characters the value and the
column have and however case is folded. -/
theorem textClause_iff {V : Type} (folding : CaseFolding) (str : V → String) (val : V)
    (column : String) :
    ∀ op ∈ textOperators,
      textClause folding str op val column ↔ Says folding op (str val).toList column.toList :=
  fun _ hop => matchesWith_iff folding _ _ hop

/-- A percent sign in the value is no wildcard. -/
theorem textClause_percent :
    textClause latin id .istartswith "5%o" "5%OFF" ∧ ¬ textClause latin id .contains "5%o" "5 of" :=
  ⟨(textClause_iff latin id "5%o" "5%OFF" .istartswith (by decide)).mpr
      (by decide : latin.folded "5%o".toList <+: latin.folded "5%OFF".toList),
    fun h => absurd ((textClause_iff latin id "5%o" "5 of" .contains (by decide)).mp h)
      (by decide : ¬ "5%o".toList <:+: "5 of".toList)⟩

end TicketBooking.Query.Likes
