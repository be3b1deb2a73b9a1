import Mathlib.Data.Char
import Mathlib.Data.List.Basic
import TicketBooking.Library.Texts
/-!
# JSON texts of flat objects

`json.dumps` and `json.loads` for objects whose values are natural numbers and
texts.  What is not ASCII is written in UTF-16 code units, and reading gives back
what was written.
-/

namespace TicketBooking.Library.Json

/-! ## Code units -/

def hex4 (n : Nat) : List Char :=
  [(n / 4096 % 16).digitChar, (n / 256 % 16).digitChar, (n / 16 % 16).digitChar,
    (n % 16).digitChar]

def hexValue (c : Char) : Option Nat :=
  if 48 ≤ c.toNat ∧ c.toNat ≤ 57 then some (c.toNat - 48)
  else if 97 ≤ c.toNat ∧ c.toNat ≤ 102 then some (c.toNat - 87)
  else if 65 ≤ c.toNat ∧ c.toNat ≤ 70 then some (c.toNat - 55)
  else none

/-- `int(esc, 16)` of four digits. -/
def ofHex4 (a b c d : Char) : Option Nat :=
  match hexValue a, hexValue b, hexValue c, hexValue d with
  | some a, some b, some c, some d => some (a * 4096 + b * 256 + c * 16 + d)
  | _, _, _, _ => none

def highUnit (point : Nat) : Nat := 0xd800 + (point - 0x10000) / 0x400

def lowUnit (point : Nat) : Nat := 0xdc00 + (point - 0x10000) % 0x400

def ofPair (high low : Nat) : Nat := 0x10000 + (high - 0xd800) * 0x400 + (low - 0xdc00)

/-- A character beyond the first plane is a pair of surrogates. -/
def codeUnits (c : Char) : List Nat :=
  if c.toNat < 0x10000 then [c.toNat] else [highUnit c.toNat, lowUnit c.toNat]

def isHigh (unit : Nat) : Bool := 0xd800 ≤ unit ∧ unit ≤ 0xdbff

def isLow (unit : Nat) : Bool := 0xdc00 ≤ unit ∧ unit ≤ 0xdfff

/-- `chr(n)`; a lone surrogate is not a character. -/
def ofCodePoint (n : Nat) : Option Char := if n.isValidChar then some (Char.ofNat n) else none

def consChar : Option Char → Option (List Char) → Option (List Char)
  | some c, some text => some (c :: text)
  | _, _ => none

def ofUnits : List Nat → Option (List Char)
  | [] => some []
  | [unit] => consChar (ofCodePoint unit) (some [])
  | unit :: next :: rest =>
      if isHigh unit && isLow next then consChar (ofCodePoint (ofPair unit next)) (ofUnits rest)
      else consChar (ofCodePoint unit) (ofUnits (next :: rest))

theorem consChar_some (c : Char) (text : Option (List Char)) :
    consChar (some c) text = text.map (c :: ·) := by
  cases text <;> rfl

theorem hexValue_digitChar {n : Nat} (h : n < 16) : hexValue n.digitChar = some n := by
  have hall : ∀ m < 16, hexValue m.digitChar = some m := by decide
  exact hall n h

theorem ofHex4_hex4 {n : Nat} (h : n < 0x10000) :
    ofHex4 (n / 4096 % 16).digitChar (n / 256 % 16).digitChar (n / 16 % 16).digitChar
      (n % 16).digitChar = some n := by
  have hlt : ∀ m, m % 16 < 16 := fun m => Nat.mod_lt m (by decide)
  unfold ofHex4
  rw [hexValue_digitChar (hlt _), hexValue_digitChar (hlt _), hexValue_digitChar (hlt _),
    hexValue_digitChar (hlt _)]
  simp only [Option.some.injEq]
  omega

theorem ofCodePoint_toNat (c : Char) : ofCodePoint c.toNat = some c := by
  have hvalid : c.toNat.isValidChar := c.valid
  unfold ofCodePoint
  rw [if_pos hvalid, Char.ofNat_toNat]

theorem not_isHigh (c : Char) : isHigh c.toNat = false := by
  have hvalid : c.toNat < 0xd800 ∨ 0xdfff < c.toNat ∧ c.toNat < 0x110000 := c.valid
  simp only [isHigh, decide_eq_false_iff_not]
  omega

theorem codeUnits_lt (c : Char) : ∀ unit ∈ codeUnits c, unit < 0x10000 := by
  have hvalid : c.toNat < 0xd800 ∨ 0xdfff < c.toNat ∧ c.toNat < 0x110000 := c.valid
  intro unit hunit
  unfold codeUnits at hunit
  split_ifs at hunit with hplane
  · simp only [List.mem_singleton] at hunit
    omega
  · simp only [List.mem_cons, List.not_mem_nil, or_false, highUnit, lowUnit] at hunit
    omega

theorem ofUnits_single {unit : Nat} {c : Char} (hhigh : isHigh unit = false)
    (hpoint : ofCodePoint unit = some c) (units : List Nat) :
    ofUnits (unit :: units) = (ofUnits units).map (c :: ·) := by
  cases units with
  | nil => simp [ofUnits, hpoint, consChar]
  | cons next rest => rw [ofUnits, hhigh, hpoint, consChar_some, Bool.false_and, if_neg nofun]

theorem ofUnits_pair {unit next : Nat} {c : Char} (hhigh : isHigh unit = true)
    (hlow : isLow next = true) (hpoint : ofCodePoint (ofPair unit next) = some c)
    (units : List Nat) : ofUnits (unit :: next :: units) = (ofUnits units).map (c :: ·) := by
  rw [ofUnits, hhigh, hlow, hpoint, consChar_some, Bool.true_and, if_pos rfl]

/-- The units of a character are read back whatever follows them. -/
theorem ofUnits_append (c : Char) (units : List Nat) :
    ofUnits (codeUnits c ++ units) = (ofUnits units).map (c :: ·) := by
  have hvalid : c.toNat < 0xd800 ∨ 0xdfff < c.toNat ∧ c.toNat < 0x110000 := c.valid
  unfold codeUnits
  split_ifs with hplane
  · exact ofUnits_single (not_isHigh c) (ofCodePoint_toNat c) units
  · rw [List.cons_append, List.singleton_append]
    apply ofUnits_pair
    · apply decide_eq_true
      unfold highUnit
      omega
    · apply decide_eq_true
      unfold lowUnit
      omega
    · have hpoint : ofPair (highUnit c.toNat) (lowUnit c.toNat) = c.toNat := by
        unfold ofPair highUnit lowUnit
        omega
      rw [hpoint, ofCodePoint_toNat]

theorem ofUnits_flatMap (text : List Char) : ofUnits (text.flatMap codeUnits) = some text := by
  induction text with
  | nil => rfl
  | cons c text ih => rw [List.flatMap_cons, ofUnits_append, ih, Option.map_some]

/-! ## Texts -/

/-- What `ensure_ascii` writes for one character. -/
def escapeChar (c : Char) : List Char :=
  if c = '"' then ['\\', '"']
  else if c = '\\' then ['\\', '\\']
  else if c = '\n' then ['\\', 'n']
  else if c = '\r' then ['\\', 'r']
  else if c = '\t' then ['\\', 't']
  else if c = '\x08' then ['\\', 'b']
  else if c = '\x0c' then ['\\', 'f']
  else if 32 ≤ c.toNat ∧ c.toNat ≤ 126 then [c]
  else (codeUnits c).flatMap fun unit => '\\' :: 'u' :: hex4 unit

def writeText (text : List Char) : List Char := '"' :: (text.flatMap escapeChar ++ ['"'])

/-- What a backslash and one character stand for. -/
def unescape (c : Char) : Option Nat :=
  if c = '"' ∨ c = '\\' ∨ c = '/' then some c.toNat
  else if c = 'n' then some 10
  else if c = 'r' then some 13
  else if c = 't' then some 9
  else if c = 'b' then some 8
  else if c = 'f' then some 12
  else none

def plain (c : Char) : Option Nat := if c.toNat < 32 ∨ c = '\\' then none else some c.toNat

def pushUnit : Option Nat → Option (List Nat × List Char) → Option (List Nat × List Char)
  | some unit, some (units, rest) => some (unit :: units, rest)
  | _, _ => none

def readUnits : List Char → Option (List Nat × List Char)
  | '\\' :: 'u' :: a :: b :: c :: d :: rest => pushUnit (ofHex4 a b c d) (readUnits rest)
  | '\\' :: c :: rest => pushUnit (unescape c) (readUnits rest)
  | '"' :: rest => some ([], rest)
  | c :: rest => pushUnit (plain c) (readUnits rest)
  | [] => none

def readText (source : List Char) : Option (List Char × List Char) :=
  match readUnits source with
  | some (units, rest) => (ofUnits units).map fun text => (text, rest)
  | none => none

theorem pushUnit_some (unit : Nat) (read : Option (List Nat × List Char)) :
    pushUnit (some unit) read = read.map fun r => (unit :: r.1, r.2) := by
  cases read <;> rfl

theorem readUnits_plain {c : Char} (hquote : c ≠ '"') (hbackslash : c ≠ '\\')
    (hcontrol : 32 ≤ c.toNat) (rest : List Char) :
    readUnits (c :: rest) = (readUnits rest).map fun r => (c.toNat :: r.1, r.2) := by
  have hplain : plain c = some c.toNat := by
    unfold plain
    rw [if_neg]
    rintro (h | h)
    · omega
    · exact hbackslash h
  rw [readUnits, hplain, pushUnit_some]
  · rintro a b c d rest h
    exact absurd h hbackslash
  · rintro c rest h
    exact absurd h hbackslash
  · exact hquote

theorem readUnits_hex4 {unit : Nat} (h : unit < 0x10000) (rest : List Char) :
    readUnits ('\\' :: 'u' :: (hex4 unit ++ rest)) =
      (readUnits rest).map fun r => (unit :: r.1, r.2) := by
  show pushUnit (ofHex4 _ _ _ _) (readUnits rest) = _
  rw [ofHex4_hex4 h, pushUnit_some]

theorem readUnits_units {units : List Nat} (h : ∀ unit ∈ units, unit < 0x10000)
    (rest : List Char) :
    readUnits ((units.flatMap fun unit => '\\' :: 'u' :: hex4 unit) ++ rest) =
      (readUnits rest).map fun r => (units ++ r.1, r.2) := by
  induction units with
  | nil => simp
  | cons unit units ih =>
      rw [List.flatMap_cons, List.append_assoc]
      show readUnits ('\\' :: 'u' :: (hex4 unit ++ _)) = _
      rw [readUnits_hex4 (h unit List.mem_cons_self),
        ih fun u hu => h u (List.mem_cons_of_mem _ hu), Option.map_map]
      rfl

/-- An escaped character is read as its code units. -/
theorem readUnits_escapeChar (c : Char) (rest : List Char) :
    readUnits (escapeChar c ++ rest) =
      (readUnits rest).map fun r => (codeUnits c ++ r.1, r.2) := by
  unfold escapeChar
  split_ifs with hquote hbackslash hn hr ht hb hf hascii
  · subst hquote
    exact pushUnit_some 34 _
  · subst hbackslash
    exact pushUnit_some 92 _
  · subst hn
    exact pushUnit_some 10 _
  · subst hr
    exact pushUnit_some 13 _
  · subst ht
    exact pushUnit_some 9 _
  · subst hb
    exact pushUnit_some 8 _
  · subst hf
    exact pushUnit_some 12 _
  · have hunits : codeUnits c = [c.toNat] := by
      unfold codeUnits
      rw [if_pos (by omega)]
    rw [hunits, List.singleton_append, readUnits_plain hquote hbackslash hascii.1]
    rfl
  · exact readUnits_units (codeUnits_lt c) rest

theorem readUnits_flatMap (text rest : List Char) :
    readUnits (text.flatMap escapeChar ++ '"' :: rest) = some (text.flatMap codeUnits, rest) := by
  induction text with
  | nil => rfl
  | cons c text ih =>
      rw [List.flatMap_cons, List.append_assoc, readUnits_escapeChar, ih, List.flatMap_cons]
      rfl

/-- A text is read back, and what follows it is left. -/
theorem readText_writeText (text rest : List Char) :
    readText (text.flatMap escapeChar ++ '"' :: rest) = some (text, rest) := by
  unfold readText
  rw [readUnits_flatMap]
  simp only [ofUnits_flatMap, Option.map_some]

/-! ## Objects -/

inductive Scalar
  | number (n : Nat)
  | text (value : String)
  deriving DecidableEq, Repr

def Scalar.write : Scalar → List Char
  | .number n => (Nat.repr n).toList
  | .text value => writeText value.toList

def writeMember (member : String × Scalar) : List Char :=
  writeText member.1.toList ++ ':' :: ' ' :: member.2.write

def writeMembers : List (String × Scalar) → List Char
  | [] => []
  | [member] => writeMember member
  | member :: next :: rest => writeMember member ++ ',' :: ' ' :: writeMembers (next :: rest)

def dumps (members : List (String × Scalar)) : String :=
  String.ofList ('{' :: (writeMembers members ++ ['}']))

def isSpace (c : Char) : Bool := c = ' ' ∨ c = '\t' ∨ c = '\n' ∨ c = '\r'

def skipSpace (source : List Char) : List Char := source.dropWhile isSpace

/-- The digits of a number; nothing follows a leading zero. -/
def readNumber : List Char → Option (Nat × List Char)
  | '0' :: rest => some (0, rest)
  | source =>
      if source.takeWhile Char.isDigit = [] then none
      else some (Nat.ofDigitChars 10 (source.takeWhile Char.isDigit) 0,
        source.dropWhile Char.isDigit)

def readScalar : List Char → Option (Scalar × List Char)
  | '"' :: rest => (readText rest).map fun r => (.text (String.ofList r.1), r.2)
  | source => (readNumber source).map fun r => (.number r.1, r.2)

def readMember : List Char → Option ((String × Scalar) × List Char)
  | '"' :: rest =>
      match readText rest with
      | some (name, rest) =>
          match skipSpace rest with
          | ':' :: rest =>
              (readScalar (skipSpace rest)).map fun r => ((String.ofList name, r.1), r.2)
          | _ => none
      | none => none
  | _ => none

/-- The members up to the closing brace; every member takes some of the fuel. -/
def readMembers : Nat → List Char → Option (List (String × Scalar) × List Char)
  | 0, _ => none
  | fuel + 1, source =>
      match readMember source with
      | some (member, rest) =>
          match skipSpace rest with
          | ',' :: rest =>
              (readMembers fuel (skipSpace rest)).map fun r => (member :: r.1, r.2)
          | '}' :: rest => some ([member], rest)
          | _ => none
      | none => none

def readObject : List Char → Option (List (String × Scalar) × List Char)
  | '{' :: rest =>
      match skipSpace rest with
      | '}' :: rest => some ([], rest)
      | source => readMembers source.length source
  | _ => none

def loads (source : String) : Option (List (String × Scalar)) :=
  match readObject (skipSpace source.toList) with
  | some (members, rest) => if skipSpace rest = [] then some members else none
  | none => none

/-- What may follow a value: a number goes on as long as there are digits. -/
def Ends (rest : List Char) : Prop := ∀ c, rest.head? = some c → ¬ c.isDigit

/-- Only zero is written with a leading zero. -/
theorem eq_zero_of_head_toDigits {n : Nat} (h : (Nat.toDigits 10 n).head? = some '0') : n = 0 := by
  induction n using Nat.strong_induction_on with
  | _ n ih =>
      rw [Nat.toDigits_eq_if (by decide)] at h
      split_ifs at h with hlt
      · simpa using h
      · have hhead : (Nat.toDigits 10 (n / 10)).head? = some '0' := by
          rwa [List.head?_append_of_ne_nil _ Nat.toDigits_ne_nil] at h
        have hzero := ih (n / 10) (by omega) hhead
        omega

theorem readNumber_of_ne_zero {source : List Char} (hhead : source.head? ≠ some '0')
    (hdigits : source.takeWhile Char.isDigit ≠ []) :
    readNumber source = some (Nat.ofDigitChars 10 (source.takeWhile Char.isDigit) 0,
      source.dropWhile Char.isDigit) := by
  rw [readNumber, if_neg hdigits]
  rintro rest rfl
  exact hhead rfl

theorem readNumber_repr (n : Nat) {rest : List Char} (hends : Ends rest) :
    readNumber ((Nat.repr n).toList ++ rest) = some (n, rest) := by
  by_cases hzero : n = 0
  · subst hzero
    rfl
  have hdigits : ∀ c ∈ (Nat.repr n).toList, c.isDigit := fun c => Texts.isDigit_of_mem_repr
  have hne : (Nat.repr n).toList ≠ [] := by
    rw [Nat.toList_repr]
    exact Nat.toDigits_ne_nil
  have htake : ((Nat.repr n).toList ++ rest).takeWhile Char.isDigit = (Nat.repr n).toList := by
    rw [List.takeWhile_append_of_pos hdigits]
    cases rest with
    | nil => simp
    | cons c rest => rw [List.takeWhile_cons_of_neg (hends c rfl), List.append_nil]
  have hdrop : ((Nat.repr n).toList ++ rest).dropWhile Char.isDigit = rest := by
    rw [List.dropWhile_append_of_pos hdigits]
    cases rest with
    | nil => rfl
    | cons c rest => exact List.dropWhile_cons_of_neg (hends c rfl)
  have hhead : ((Nat.repr n).toList ++ rest).head? ≠ some '0' := by
    rw [List.head?_append_of_ne_nil _ hne, Nat.toList_repr]
    exact fun h => hzero (eq_zero_of_head_toDigits h)
  rw [readNumber_of_ne_zero hhead (by rwa [htake]), htake, hdrop, Nat.toList_repr,
    Nat.ofDigitChars_ten_toDigits]

theorem readScalar_of_ne_quote {source : List Char} (h : source.head? ≠ some '"') :
    readScalar source = (readNumber source).map fun r => (.number r.1, r.2) := by
  rw [readScalar]
  rintro rest rfl
  exact h rfl

theorem head_repr_ne {c : Char} (hc : ¬ c.isDigit) (n : Nat) (rest : List Char) :
    ((Nat.repr n).toList ++ rest).head? ≠ some c := by
  have hne : (Nat.repr n).toList ≠ [] := by
    rw [Nat.toList_repr]
    exact Nat.toDigits_ne_nil
  rw [List.head?_append_of_ne_nil _ hne]
  intro h
  exact hc (Texts.isDigit_of_mem_repr (List.mem_of_mem_head? h))

theorem readScalar_write (value : Scalar) {rest : List Char} (hends : Ends rest) :
    readScalar (value.write ++ rest) = some (value, rest) := by
  cases value with
  | number n =>
      show readScalar ((Nat.repr n).toList ++ rest) = _
      rw [readScalar_of_ne_quote (head_repr_ne (by decide) n rest), readNumber_repr n hends]
      rfl
  | text value =>
      show (readText ((value.toList.flatMap escapeChar ++ ['"']) ++ rest)).map _ = _
      rw [List.append_assoc, List.singleton_append, readText_writeText]
      simp

theorem skipSpace_write (value : Scalar) (rest : List Char) :
    skipSpace (value.write ++ rest) = value.write ++ rest := by
  cases value with
  | number n =>
      have hne : (Nat.repr n).toList ≠ [] := by
        rw [Nat.toList_repr]
        exact Nat.toDigits_ne_nil
      obtain ⟨c, cs, hcs⟩ := List.exists_cons_of_ne_nil hne
      have hdigit : c.isDigit := Texts.isDigit_of_mem_repr (hcs ▸ List.mem_cons_self)
      have hspace : ¬ isSpace c := by
        intro hspace
        simp only [isSpace, decide_eq_true_eq] at hspace
        rcases hspace with rfl | rfl | rfl | rfl <;> exact absurd hdigit (by decide)
      show skipSpace ((Nat.repr n).toList ++ rest) = (Nat.repr n).toList ++ rest
      rw [hcs]
      exact List.dropWhile_cons_of_neg hspace
  | text value => rfl

theorem readMember_writeMember (member : String × Scalar) {rest : List Char} (hends : Ends rest) :
    readMember (writeMember member ++ rest) = some (member, rest) := by
  have hsource : writeMember member ++ rest = '"' :: (member.1.toList.flatMap escapeChar ++
      '"' :: (':' :: ' ' :: (member.2.write ++ rest))) := by
    simp [writeMember, writeText]
  have hspace : skipSpace (' ' :: (member.2.write ++ rest)) = member.2.write ++ rest :=
    skipSpace_write member.2 rest
  rw [hsource, readMember, readText_writeText]
  show (readScalar (skipSpace (' ' :: (member.2.write ++ rest)))).map _ = _
  rw [hspace, readScalar_write member.2 hends]
  simp

theorem readMembers_writeMembers (members : List (String × Scalar)) (hne : members ≠ [])
    {fuel : Nat} (hfuel : members.length ≤ fuel) (rest : List Char) :
    readMembers fuel (writeMembers members ++ '}' :: rest) = some (members, rest) := by
  induction members generalizing fuel with
  | nil => exact absurd rfl hne
  | cons member members ih =>
      match fuel, hfuel with
      | 0, hfuel => simp at hfuel
      | fuel + 1, hfuel =>
          cases members with
          | nil =>
              have hends : Ends ('}' :: rest) := by
                rintro c hc
                cases hc
                decide
              rw [writeMembers, readMembers, readMember_writeMember member hends]
              rfl
          | cons next members =>
              have hends : ∀ source, Ends (',' :: source) := by
                rintro source c hc
                cases hc
                decide
              have hnext := ih (List.cons_ne_nil _ _) (Nat.le_of_succ_le_succ hfuel)
              have hspace : skipSpace (' ' :: (writeMembers (next :: members) ++ '}' :: rest)) =
                  writeMembers (next :: members) ++ '}' :: rest := by
                cases members <;> rfl
              rw [writeMembers, List.append_assoc, List.cons_append, List.cons_append, readMembers,
                readMember_writeMember member (hends _)]
              show (readMembers fuel (skipSpace (' ' :: (writeMembers (next :: members) ++
                '}' :: rest)))).map _ = _
              rw [hspace, hnext]
              rfl

theorem length_le_writeMembers (members : List (String × Scalar)) :
    members.length ≤ (writeMembers members).length := by
  induction members with
  | nil => simp
  | cons member members ih =>
      cases members with
      | nil => simp [writeMembers, writeMember, writeText]
      | cons next members =>
          simp only [writeMembers, List.length_append, List.length_cons] at ih ⊢
          omega

/-- What is dumped is loaded again. -/
theorem loads_dumps (members : List (String × Scalar)) : loads (dumps members) = some members := by
  have hobject : readObject ('{' :: (writeMembers members ++ ['}'])) = some (members, []) := by
    cases members with
    | nil => rfl
    | cons member members =>
        have hspace : skipSpace (writeMembers (member :: members) ++ ['}']) =
            writeMembers (member :: members) ++ ['}'] := by
          cases members <;> rfl
        have hfuel : (member :: members).length ≤
            (writeMembers (member :: members) ++ ['}']).length := by
          have hlength := length_le_writeMembers (member :: members)
          rw [List.length_append]
          omega
        have hread := readMembers_writeMembers (member :: members) (List.cons_ne_nil _ _) hfuel []
        have hquote : ∃ cs, writeMembers (member :: members) ++ ['}'] = '"' :: cs := by
          cases members <;> exact ⟨_, rfl⟩
        rw [readObject, hspace]
        obtain ⟨cs, hcs⟩ := hquote
        rw [hcs] at hread ⊢
        exact hread
  have hspace : skipSpace (dumps members).toList = '{' :: (writeMembers members ++ ['}']) := by
    rw [dumps, String.toList_ofList]
    rfl
  rw [loads, hspace, hobject]
  rfl

example : dumps [("status_code", .number 204), ("content", .text "caf\u00e9 \"1\"")] =
    "\x7b\"status_code\": 204, \"content\": \"caf\\u00e9 \\\"1\\\"\"\x7d" := by decide

end TicketBooking.Library.Json
