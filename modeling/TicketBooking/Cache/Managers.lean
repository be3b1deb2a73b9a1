import Mathlib.Algebra.Group.Int.Defs
import Mathlib.Logic.Function.Basic
import TicketBooking.Library.Dict
import TicketBooking.Library.Texts
/-!
# Cache managers

`InMemoryCacheManager` and `RedisCacheManager` call by call.  Redis keeps one
dictionary of strings and HyperLogLogs, which count exactly here; times to live
are checked where they are given and do not run out.
-/

namespace TicketBooking.Cache.Managers

open TicketBooking.Library

/-! ## Python values -/

/-- The values redis-py encodes; bytes are written as the text they decode to, and a float
as the text of its `repr`. -/
inductive Value
  | text (s : String)
  | int (n : Int)
  | bytes (s : String)
  deriving DecidableEq, Repr

def Value.encoded : Value → String
  | .text s => s
  | .int n => toString n
  | .bytes s => s

def hexDigit (n : Nat) : Char := "0123456789abcdef".toList.getD n '0'

def reprByte (quote : Char) (b : UInt8) : List Char :=
  let c := Char.ofNat b.toNat
  if c = quote ∨ c = '\\' then ['\\', c]
  else if c = '\t' then ['\\', 't']
  else if c = '\n' then ['\\', 'n']
  else if c = '\r' then ['\\', 'r']
  else if b < 32 ∨ 127 ≤ b then ['\\', 'x', hexDigit (b.toNat / 16), hexDigit (b.toNat % 16)]
  else [c]

/-- `repr(b)`. -/
def reprBytes (s : String) : String :=
  let quote := if '\'' ∈ s.toList ∧ '"' ∉ s.toList then '"' else '\''
  String.ofList ('b' :: quote :: s.toUTF8.toList.flatMap (reprByte quote) ++ [quote])

/-- `str(value)`. -/
def Value.str : Value → String
  | .text s => s
  | .int n => toString n
  | .bytes s => reprBytes s

/-- Digits with single underscores between them. -/
def isDigits : List Char → Bool
  | [] => false
  | [c] => c.isDigit
  | c :: '_' :: d :: rest => c.isDigit && isDigits (d :: rest)
  | c :: rest => c.isDigit && isDigits rest

def digits (cs : List Char) : Option Nat :=
  if isDigits cs then some (Nat.ofDigitChars 10 (cs.filter (· ≠ '_')) 0) else none

def strip (cs : List Char) : List Char :=
  ((cs.dropWhile Texts.isSpace).reverse.dropWhile Texts.isSpace).reverse

/-- `int(text)`, for the digits of ASCII. -/
def parseInt (s : String) : Option Int :=
  match strip s.toList with
  | '-' :: cs => (digits cs).map fun n => -(n : Int)
  | '+' :: cs => (digits cs).map Int.ofNat
  | cs => (digits cs).map Int.ofNat

/-- `int(value)`; `none` when it raises. -/
def Value.toInt : Value → Option Int
  | .text s => parseInt s
  | .int n => some n
  | .bytes s => parseInt s

/-- What a call returns, as far as it can be told from other results as text. -/
inductive Object
  | none
  | int (n : Int)
  | bool (b : Bool)
  | text (s : String)
  deriving DecidableEq, Repr

/-- `isinstance(res, int)`. -/
def Object.isInt : Object → Bool
  | .int _ => true
  | .bool _ => true
  | _ => false

/-- The text of a value; `None` has none. -/
def Object.decoded : Object → Option String
  | .none => Option.none
  | .int n => some (toString n)
  | .bool b => some (if b then "True" else "False")
  | .text s => some s

inductive Answer
  | one (result : Object)
  | many (results : List Object)
  deriving DecidableEq, Repr

def Answer.decoded : Answer → Option String ⊕ List (Option String)
  | .one result => .inl result.decoded
  | .many results => .inr (results.map Object.decoded)

/-! ## Calls -/

inductive Call
  | get (key : String)
  | getMany (keys : List String)
  | set (key : String) (value : Value) (ttl : Option Int)
  | setMany (items : List (String × Value)) (ttl : Option Int)
  | incr (key : String) (ttl : Option Int) (expireKeys : Option (List String))
  | incrMany (keys : List String) (ttl : Option Int) (expireKeys : Option (List String))
  | pfadd (key : String) (value : Value)
  | pfaddMany (keys : List String) (value : Value)
  | pfcount (key : String)
  | delete (key : String)
  | clear
  deriving DecidableEq, Repr

/-- The calls of a list one after another, with their results; `none` when one fails. -/
def each {α β σ : Type} (step : α → σ → Option (β × σ)) : List α → σ → Option (List β × σ)
  | [], s => some ([], s)
  | x :: xs, s =>
      match step x s with
      | none => none
      | some (result, s') =>
          (each step xs s').map fun rest => (result :: rest.1, rest.2)

/-! ## In memory -/

structure InMemory where
  storage : List (String × Value) := []
  hllStorage : List (String × List String) := []
  deriving DecidableEq, Repr

namespace InMemory

def storedObject : Value → Object
  | .text s => .text s
  | .int n => .int n
  | .bytes s => .text s

def get (s : InMemory) (key : String) : Object :=
  match Dict.get key s.storage with
  | some value => storedObject value
  | none => .none

def set (s : InMemory) (key : String) (value : Value) : InMemory :=
  { s with storage := Dict.set key value s.storage }

/-- `int(self._storage.get(key, 0)) + 1`. -/
def incr (key : String) (s : InMemory) : Option (Object × InMemory) :=
  (((Dict.get key s.storage).getD (.int 0)).toInt).map fun n =>
    (.int (n + 1), s.set key (.int (n + 1)))

def pfadd (value : Value) (key : String) (s : InMemory) : Option (Object × InMemory) :=
  let elements := (Dict.get key s.hllStorage).getD []
  if value.str ∈ elements then
    some (.int 0, { s with hllStorage := Dict.set key elements s.hllStorage })
  else
    some (.int 1, { s with hllStorage := Dict.set key (elements ++ [value.str]) s.hllStorage })

def pfcount (s : InMemory) (key : String) : Object :=
  match Dict.get key s.hllStorage with
  | some elements => .int elements.length
  | none => .int 0

def call : Call → InMemory → Option (Answer × InMemory)
  | .get key, s => some (.one (s.get key), s)
  | .getMany keys, s => some (.many (keys.map s.get), s)
  | .set key value _, s => some (.one .none, s.set key value)
  | .setMany items _, s => some (.one .none, items.foldl (fun s item => s.set item.1 item.2) s)
  | .incr key _ _, s => (incr key s).map fun r => (.one r.1, r.2)
  | .incrMany keys _ _, s => (each incr keys s).map fun r => (.many r.1, r.2)
  | .pfadd key value, s => (pfadd value key s).map fun r => (.one r.1, r.2)
  | .pfaddMany keys value, s => (each (pfadd value) keys s).map fun r => (.many r.1, r.2)
  | .pfcount key, s => some (.one (s.pfcount key), s)
  | .delete key, s =>
      some (.one .none, ⟨Dict.erase key s.storage, Dict.erase key s.hllStorage⟩)
  | .clear, _ => some (.one .none, {})

end InMemory

/-! ## Redis -/

inductive Entry
  | string (s : String)
  | hyperLogLog (elements : List String)
  deriving DecidableEq, Repr

abbrev Redis := List (String × Entry)

namespace Redis

inductive Command
  | get (key : String)
  | set (key : String) (value : Value) (ex : Option Int)
  | incr (key : String)
  | expire (key : String) (ttl : Int)
  | pfadd (key : String) (value : Value)
  | pfcount (key : String)
  | del (key : String)
  | flushdb
  deriving DecidableEq, Repr

/-- The texts INCR takes: 64-bit integers as they are written out. -/
def integer (s : String) : Option Int :=
  (parseInt s).filter fun n => toString n = s ∧ -2 ^ 63 ≤ n ∧ n < 2 ^ 63

/-- A command and its reply; `none` is an error.  GET of a HyperLogLog, which has a string
to give, is an error here. -/
def execute : Command → Redis → Option (Object × Redis)
  | .get key, r =>
      match Dict.get key r with
      | none => some (.none, r)
      | some (.string s) => some (.text s, r)
      | some (.hyperLogLog _) => none
  | .set key value ex, r =>
      if ex.all (0 < ·) then some (.bool true, Dict.set key (.string value.encoded) r) else none
  | .incr key, r =>
      let stored := match Dict.get key r with
        | none => some 0
        | some (.string s) => integer s
        | some (.hyperLogLog _) => none
      match stored with
      | none => none
      | some n =>
          if n + 1 < 2 ^ 63 then
            some (.int (n + 1), Dict.set key (.string (toString (n + 1))) r)
          else none
  | .expire key ttl, r =>
      -- a time that is over removes the key at once
      some (.bool (Dict.get key r).isSome, if 0 < ttl then r else Dict.erase key r)
  | .pfadd key value, r =>
      match Dict.get key r with
      | some (.string _) => none
      | none => some (.int 1, Dict.set key (.hyperLogLog [value.encoded]) r)
      | some (.hyperLogLog elements) =>
          if value.encoded ∈ elements then some (.int 0, r)
          else some (.int 1, Dict.set key (.hyperLogLog (elements ++ [value.encoded])) r)
  | .pfcount key, r =>
      match Dict.get key r with
      | some (.string _) => none
      | none => some (.int 0, r)
      | some (.hyperLogLog elements) => some (.int elements.length, r)
  | .del key, r => some (.int (if (Dict.get key r).isSome then 1 else 0), Dict.erase key r)
  | .flushdb, _ => some (.bool true, [])

/-- `pipe.execute()`: one result for each command. -/
def pipeline (commands : List Command) (r : Redis) : Option (List Object × Redis) :=
  each execute commands r

end Redis

namespace RedisCache

open Redis

def call : Call → Redis → Option (Answer × Redis)
  | .get key, r => (execute (.get key) r).map fun a => (.one a.1, a.2)
  | .getMany keys, r => (each (fun key => execute (.get key)) keys r).map fun a => (.many a.1, a.2)
  | .set key value ttl, r => (execute (.set key value ttl) r).map fun a => (.one .none, a.2)
  | .setMany items ttl, r =>
      (pipeline (items.map fun item => .set item.1 item.2 ttl) r).map fun a => (.one .none, a.2)
  | .incr key ttl _, r =>
      match execute (.incr key) r with
      | none => none
      | some (val, r') =>
          match ttl with
          | none => some (.one val, r')
          | some ttl => (execute (.expire key ttl) r').map fun a => (.one val, a.2)
  | .incrMany keys ttl expireKeys, r =>
      if keys = [] then some (.many [], r)
      else
        let expires := match ttl with
          | none => []
          | some ttl => (expireKeys.getD []).map fun key => Command.expire key ttl
        (pipeline (keys.map .incr ++ expires) r).map fun a =>
          (.many (a.1.filter Object.isInt), a.2)
  | .pfadd key value, r => (execute (.pfadd key value) r).map fun a => (.one a.1, a.2)
  | .pfaddMany keys value, r =>
      (pipeline (keys.map fun key => .pfadd key value) r).map fun a => (.many a.1, a.2)
  | .pfcount key, r => (execute (.pfcount key) r).map fun a => (.one a.1, a.2)
  | .delete key, r => (execute (.del key) r).map fun a => (.one .none, a.2)
  | .clear, r => (execute .flushdb r).map fun a => (.one .none, a.2)

end RedisCache

/-! ## Sequences of calls -/

def InMemory.run (calls : List Call) (s : InMemory) : Option (List Answer × InMemory) :=
  each call calls s

def RedisCache.run (calls : List Call) (r : Redis) : Option (List Answer × Redis) :=
  each call calls r

def Call.stringKeys : Call → List String
  | .get key => [key]
  | .getMany keys => keys
  | .set key _ _ => [key]
  | .setMany items _ => items.map Prod.fst
  | .incr key _ _ => [key]
  | .incrMany keys _ _ => keys
  | _ => []

def Call.hllKeys : Call → List String
  | .pfadd key _ => [key]
  | .pfaddMany keys _ => keys
  | .pfcount key => [key]
  | _ => []

def Call.ttl : Call → Option Int
  | .set _ _ ttl => ttl
  | .setMany _ ttl => ttl
  | .incr _ ttl _ => ttl
  | .incrMany _ ttl _ => ttl
  | _ => none

def DisjointKeys (calls : List Call) : Prop :=
  ∀ c ∈ calls, ∀ c' ∈ calls, ∀ key ∈ c.stringKeys, key ∉ c'.hllKeys

/-- No time to live is over when it is given. -/
def Lasting (calls : List Call) : Prop := ∀ c ∈ calls, ∀ ttl ∈ c.ttl, 0 < ttl

/-- The values added to each HyperLogLog since it was last deleted. -/
abbrev Added := String → List Value

def Added.add (added : Added) (key : String) (value : Value) : Added :=
  Function.update added key (added key ++ [value])

def Call.after : Call → Added → Added
  | .pfadd key value, added => added.add key value
  | .pfaddMany keys value, added => keys.foldl (fun added key => added.add key value) added
  | .delete key, added => Function.update added key []
  | .clear, _ => fun _ => []
  | _, added => added

/-- `str(value)` is new among the values when the encoded value is. -/
def SameNovelty (values : List Value) (value : Value) : Prop :=
  value.str ∈ values.map Value.str ↔ value.encoded ∈ values.map Value.encoded

/-- An `incr` of several keys sets no time to live, and a `pfadd` adds no value whose
`str` and whose encoding are shared with different values. -/
def Call.Agrees (added : Added) : Call → Prop
  | .incrMany keys ttl expireKeys => keys = [] ∨ ttl = none ∨ expireKeys.getD [] = []
  | .pfadd key value => SameNovelty (added key) value
  | .pfaddMany keys value => ∀ key ∈ keys, SameNovelty (added key) value
  | _ => True

def Agreeing (added : Added) : List Call → Prop
  | [] => True
  | c :: calls => c.Agrees added ∧ Agreeing (c.after added) calls

instance (values : List Value) (value : Value) : Decidable (SameNovelty values value) :=
  inferInstanceAs (Decidable (_ ↔ _))

instance (added : Added) : (c : Call) → Decidable (c.Agrees added)
  | .incrMany _ _ _ => inferInstanceAs (Decidable (_ ∨ _ ∨ _))
  | .pfadd _ _ => inferInstanceAs (Decidable (SameNovelty _ _))
  | .pfaddMany keys _ => inferInstanceAs (Decidable (∀ key ∈ keys, SameNovelty _ _))
  | .get _ | .getMany _ | .set _ _ _ | .setMany _ _ | .incr _ _ _ | .pfcount _ | .delete _
  | .clear => .isTrue trivial

instance : (added : Added) → (calls : List Call) → Decidable (Agreeing added calls)
  | _, [] => .isTrue trivial
  | added, c :: calls =>
      have : Decidable (Agreeing (c.after added) calls) :=
        instDecidableAgreeing (c.after added) calls
      inferInstanceAs (Decidable (_ ∧ _))

/-! ## Lists of calls -/

section Each

variable {α β γ σ τ : Type} {step : α → σ → Option (β × σ)} {step' : α → τ → Option (γ × τ)}

theorem each_cons {x : α} {xs : List α} {s s' : σ} {results : List β}
    (h : each step (x :: xs) s = some (results, s')) :
    ∃ result s₁ rest, step x s = some (result, s₁) ∧ each step xs s₁ = some (rest, s') ∧
      results = result :: rest := by
  unfold each at h
  split at h
  · cases h
  · rename_i result s₁ hstep
    obtain ⟨⟨rest, s₂⟩, hrest, heq⟩ := Option.map_eq_some_iff.mp h
    cases heq
    exact ⟨result, s₁, rest, hstep, hrest, rfl⟩

theorem each_append {xs ys : List α} {s s' : σ} {results : List β}
    (h : each step (xs ++ ys) s = some (results, s')) :
    ∃ front s₁ back, each step xs s = some (front, s₁) ∧ each step ys s₁ = some (back, s') ∧
      results = front ++ back := by
  induction xs generalizing s results with
  | nil => exact ⟨[], s, results, rfl, h, rfl⟩
  | cons x xs ih =>
      obtain ⟨result, s₁, rest, hstep, hrest, rfl⟩ := each_cons h
      obtain ⟨front, s₂, back, hfront, hback, rfl⟩ := ih hrest
      refine ⟨result :: front, s₂, back, ?_, hback, rfl⟩
      simp only [each, hstep, hfront, Option.map_some]

theorem each_map {δ : Type} {f : δ → α} (xs : List δ) (s : σ) :
    each step (xs.map f) s = each (fun x => step (f x)) xs s := by
  induction xs generalizing s with
  | nil => rfl
  | cons x xs ih =>
      rw [List.map_cons, each, each]
      simp only [ih]

/-- Steps that keep a relation, one for one, keep it over a list. -/
theorem each_related {R : σ → τ → Prop} {P : β → γ → Prop} {xs : List α}
    (hstep : ∀ x ∈ xs, ∀ s r result result' s' r', R s r → step x s = some (result, s') →
      step' x r = some (result', r') → R s' r' ∧ P result result')
    {s s' : σ} {r r' : τ} {results : List β} {results' : List γ} (hrelated : R s r)
    (h : each step xs s = some (results, s')) (h' : each step' xs r = some (results', r')) :
    R s' r' ∧ List.Forall₂ P results results' := by
  induction xs generalizing s r results results' with
  | nil =>
      cases h
      cases h'
      exact ⟨hrelated, .nil⟩
  | cons x xs ih =>
      obtain ⟨hfirst, hlater⟩ := List.forall_mem_cons.mp hstep
      obtain ⟨result, s₁, rest, hone, hrest, rfl⟩ := each_cons h
      obtain ⟨result', r₁, rest', hone', hrest', rfl⟩ := each_cons h'
      obtain ⟨hrelated, hresult⟩ := hfirst _ _ _ _ _ _ hrelated hone hone'
      obtain ⟨hrelated, hresults⟩ := ih hlater hrelated hrest hrest'
      exact ⟨hrelated, .cons hresult hresults⟩

end Each

/-! ## Elements -/

def distinct (f : Value → String) (values : List Value) : List String :=
  values.foldl (fun texts value => if f value ∈ texts then texts else texts ++ [f value]) []

theorem distinct_concat (f : Value → String) (values : List Value) (value : Value) :
    distinct f (values ++ [value]) =
      if f value ∈ distinct f values then distinct f values
      else distinct f values ++ [f value] := by
  unfold distinct
  rw [List.foldl_append]
  rfl

theorem mem_distinct {f : Value → String} {values : List Value} {text : String} :
    text ∈ distinct f values ↔ text ∈ values.map f := by
  induction values using List.reverseRecOn generalizing text with
  | nil => simp [distinct]
  | append_singleton values value ih =>
      rw [distinct_concat, List.map_append, List.mem_append, List.map_singleton,
        List.mem_singleton]
      split
      · rename_i hmem
        rw [ih]
        refine ⟨.inl, fun h => h.elim id fun heq => ?_⟩
        rw [heq]
        exact ih.mp hmem
      · rw [List.mem_append, ih, List.mem_singleton]

def Even (values : List Value) : Prop :=
  (distinct Value.str values).length = (distinct Value.encoded values).length

theorem even_concat {values : List Value} {value : Value} (heven : Even values)
    (h : SameNovelty values value) : Even (values ++ [value]) := by
  unfold Even at heven ⊢
  unfold SameNovelty at h
  rw [← mem_distinct, ← mem_distinct] at h
  rw [distinct_concat, distinct_concat]
  by_cases hmem : value.str ∈ distinct Value.str values
  · rw [if_pos hmem, if_pos (h.mp hmem), heven]
  · rw [if_neg hmem, if_neg fun hencoded => hmem (h.mpr hencoded), List.length_append,
      List.length_append, heven]
    rfl

theorem sameNovelty_again (values : List Value) (value : Value) :
    SameNovelty (values ++ [value]) value := by
  unfold SameNovelty
  simp

/-! ## One call -/

/-- The two managers after the same calls; `isHll` are the keys used as HyperLogLogs. -/
structure Related (isHll : String → Prop) (added : Added) (s : InMemory) (r : Redis) : Prop where
  strings : ∀ key, ¬ isHll key →
    Dict.get key r = (Dict.get key s.storage).map fun value => .string value.encoded
  elements : ∀ key, isHll key → Dict.get key s.hllStorage =
    if added key = [] then none else some (distinct Value.str (added key))
  encodings : ∀ key, isHll key → Dict.get key r =
    if added key = [] then none else some (.hyperLogLog (distinct Value.encoded (added key)))

section Related

variable {isHll : String → Prop} {added : Added} {s s' : InMemory} {r r' : Redis} {key : String}

theorem Related.start (isHll : String → Prop) : Related isHll (fun _ => []) {} [] :=
  ⟨fun _ _ => rfl, fun _ _ => rfl, fun _ _ => rfl⟩

theorem Related.set (h : Related isHll added s r) (hkey : ¬ isHll key) (value : Value) :
    Related isHll added (s.set key value) (Dict.set key (.string value.encoded) r) := by
  refine ⟨fun k hk => ?_, h.elements, fun k hk => ?_⟩
  · rw [InMemory.set, Dict.get_set, Dict.get_set]
    split
    · rfl
    · exact h.strings k hk
  · have hne : key ≠ k := fun heq => hkey (heq ▸ hk)
    rw [Dict.get_set, if_neg hne]
    exact h.encodings k hk

theorem decoded_get (h : Related isHll added s r) (hkey : ¬ isHll key) {result : Object}
    (hget : Redis.execute (.get key) r = some (result, r')) :
    r' = r ∧ result.decoded = (s.get key).decoded := by
  have hstring := h.strings key hkey
  unfold InMemory.get
  cases hstored : Dict.get key s.storage with
  | none =>
      rw [hstored, Option.map_none] at hstring
      simp only [Redis.execute, hstring] at hget
      cases hget
      exact ⟨rfl, rfl⟩
  | some value =>
      rw [hstored, Option.map_some] at hstring
      simp only [Redis.execute, hstring] at hget
      cases hget
      cases value <;> exact ⟨rfl, rfl⟩

theorem toInt_of_integer {value : Value} {n m : Int} (hint : value.toInt = some n)
    (hinteger : Redis.integer value.encoded = some m) : m = n := by
  unfold Redis.integer at hinteger
  obtain ⟨hparse, hcanonical⟩ := Option.filter_eq_some_iff.mp hinteger
  cases value with
  | text t => exact Option.some.inj (hparse.symm.trans hint)
  | bytes t => exact Option.some.inj (hparse.symm.trans hint)
  | int k =>
      cases hint
      have htext : toString m = toString n := (decide_eq_true_iff.mp hcanonical).1
      exact Texts.toString_injective htext

theorem related_incr (h : Related isHll added s r) (hkey : ¬ isHll key) {result result' : Object}
    (hmemory : InMemory.incr key s = some (result, s'))
    (hredis : Redis.execute (.incr key) r = some (result', r')) :
    Related isHll added s' r' ∧ result = result' ∧ result'.isInt := by
  have hstring := h.strings key hkey
  obtain ⟨n, hn, hresult⟩ := Option.map_eq_some_iff.mp hmemory
  cases hresult
  have hstored : ∀ m, (m + 1 < 2 ^ 63 ∧ m = n ∧ some (Object.int (m + 1),
      Dict.set key (.string (toString (m + 1))) r) = some (result', r')) →
      Related isHll added (s.set key (.int (n + 1))) r' ∧
        Object.int (n + 1) = result' ∧ result'.isInt := by
    rintro m ⟨-, rfl, heq⟩
    cases heq
    exact ⟨h.set hkey (.int (m + 1)), rfl, rfl⟩
  cases hget : Dict.get key s.storage with
  | none =>
      rw [hget] at hn hstring
      cases hn
      simp only [Redis.execute, hstring, Option.map_none] at hredis
      exact hstored 0 ⟨by decide, rfl, hredis⟩
  | some value =>
      rw [hget] at hn hstring
      simp only [Redis.execute, hstring, Option.map_some] at hredis
      cases hinteger : Redis.integer value.encoded with
      | none => simp [hinteger] at hredis
      | some m =>
          simp only [hinteger] at hredis
          split at hredis
          · rename_i hrange
            exact hstored m ⟨hrange, toInt_of_integer hn hinteger, hredis⟩
          · cases hredis

theorem related_add (h : Related isHll added s r) (hkey : isHll key) {value : Value}
    {texts encodings : List String}
    (htexts : texts = distinct Value.str (added key ++ [value]))
    (hencodings : encodings = distinct Value.encoded (added key ++ [value])) :
    Related isHll (added.add key value)
      { s with hllStorage := Dict.set key texts s.hllStorage }
      (Dict.set key (.hyperLogLog encodings) r) := by
  have hadded : ∀ k, k ≠ key → (added.add key value) k = added k :=
    fun k hk => Function.update_of_ne hk _ _
  have hself : (added.add key value) key = added key ++ [value] := Function.update_self _ _ _
  refine ⟨fun k hk => ?_, fun k hk => ?_, fun k hk => ?_⟩
  · have hne : key ≠ k := fun heq => hk (heq ▸ hkey)
    rw [Dict.get_set, if_neg hne]
    exact h.strings k hk
  · rw [Dict.get_set]
    split
    · rename_i heq
      subst heq
      rw [hself, htexts, if_neg (by simp)]
    · rename_i hne
      rw [hadded k (Ne.symm hne)]
      exact h.elements k hk
  · rw [Dict.get_set]
    split
    · rename_i heq
      subst heq
      rw [hself, hencodings, if_neg (by simp)]
    · rename_i hne
      rw [hadded k (Ne.symm hne)]
      exact h.encodings k hk

theorem Related.congr {r₂ : Redis} (h : Related isHll added s r)
    (hget : ∀ k, Dict.get k r₂ = Dict.get k r) : Related isHll added s r₂ :=
  ⟨fun k hk => (hget k).trans (h.strings k hk), h.elements,
    fun k hk => (hget k).trans (h.encodings k hk)⟩

def novelty (isOld : Bool) : Object := .int (if isOld then 0 else 1)

theorem decoded_novelty {old old' : Bool} :
    (novelty old).decoded = (novelty old').decoded ↔ old = old' := by
  cases old <;> cases old' <;> decide

theorem memory_pfadd (h : Related isHll added s r) (hkey : isHll key) {value : Value}
    {result : Object} (hmemory : InMemory.pfadd value key s = some (result, s')) :
    s' = { s with
      hllStorage := Dict.set key (distinct Value.str (added key ++ [value])) s.hllStorage } ∧
      result = novelty (value.str ∈ distinct Value.str (added key)) := by
  have helements : (Dict.get key s.hllStorage).getD [] = distinct Value.str (added key) := by
    rw [h.elements key hkey]
    split
    · rename_i hempty
      rw [hempty]
      rfl
    · rfl
  unfold InMemory.pfadd at hmemory
  rw [helements] at hmemory
  rw [distinct_concat]
  by_cases hmem : value.str ∈ distinct Value.str (added key)
  · rw [if_pos hmem] at hmemory ⊢
    cases hmemory
    exact ⟨rfl, by simp [novelty, hmem]⟩
  · rw [if_neg hmem] at hmemory ⊢
    cases hmemory
    exact ⟨rfl, by simp [novelty, hmem]⟩

theorem redis_pfadd (h : Related isHll added s r) (hkey : isHll key) {value : Value}
    {result : Object} (hredis : Redis.execute (.pfadd key value) r = some (result, r')) :
    (∀ k, Dict.get k r' = Dict.get k
      (Dict.set key (.hyperLogLog (distinct Value.encoded (added key ++ [value]))) r)) ∧
      result = novelty (value.encoded ∈ distinct Value.encoded (added key)) := by
  have hencodings := h.encodings key hkey
  by_cases hempty : added key = []
  · rw [if_pos hempty] at hencodings
    simp only [Redis.execute, hencodings] at hredis
    cases hredis
    rw [hempty]
    exact ⟨fun _ => rfl, by simp [novelty, distinct]⟩
  · rw [if_neg hempty] at hencodings
    simp only [Redis.execute, hencodings] at hredis
    rw [distinct_concat]
    by_cases hmem : value.encoded ∈ distinct Value.encoded (added key)
    · rw [if_pos hmem] at hredis ⊢
      cases hredis
      refine ⟨fun k => ?_, by simp [novelty, hmem]⟩
      rw [Dict.get_set]
      split
      · rename_i heq
        rw [← heq, hencodings]
      · rfl
    · rw [if_neg hmem] at hredis ⊢
      cases hredis
      exact ⟨fun _ => rfl, by simp [novelty, hmem]⟩

theorem related_pfadd (h : Related isHll added s r) (hkey : isHll key) {value : Value}
    {result result' : Object} (hmemory : InMemory.pfadd value key s = some (result, s'))
    (hredis : Redis.execute (.pfadd key value) r = some (result', r')) :
    Related isHll (added.add key value) s' r' ∧
      (result.decoded = result'.decoded ↔ SameNovelty (added key) value) := by
  obtain ⟨rfl, rfl⟩ := memory_pfadd h hkey hmemory
  obtain ⟨hget, rfl⟩ := redis_pfadd h hkey hredis
  refine ⟨(related_add h hkey rfl rfl).congr hget, ?_⟩
  rw [decoded_novelty, decide_eq_decide, mem_distinct, mem_distinct]
  rfl

theorem decoded_getMany (h : Related isHll added s r) {keys : List String}
    (hkeys : ∀ key ∈ keys, ¬ isHll key) {results : List Object}
    (hget : each (fun key => Redis.execute (.get key)) keys r = some (results, r')) :
    r' = r ∧ results.map Object.decoded = (keys.map s.get).map Object.decoded := by
  induction keys generalizing results with
  | nil =>
      cases hget
      exact ⟨rfl, rfl⟩
  | cons key keys ih =>
      obtain ⟨hkey, hkeys⟩ := List.forall_mem_cons.mp hkeys
      obtain ⟨result, r₁, rest, hone, hrest, rfl⟩ := each_cons hget
      obtain ⟨rfl, hdecoded⟩ := decoded_get h hkey hone
      obtain ⟨hsame, hdecodeds⟩ := ih hkeys hrest
      exact ⟨hsame, by simp only [List.map_cons, hdecoded, hdecodeds]⟩

theorem related_set (h : Related isHll added s r) (hkey : ¬ isHll key) {value : Value}
    {ex : Option Int} {result : Object}
    (hredis : Redis.execute (.set key value ex) r = some (result, r')) :
    Related isHll added (s.set key value) r' := by
  simp only [Redis.execute] at hredis
  split at hredis
  · cases hredis
    exact h.set hkey value
  · cases hredis

theorem related_setMany (h : Related isHll added s r) {items : List (String × Value)}
    {ex : Option Int} (hkeys : ∀ key ∈ items.map Prod.fst, ¬ isHll key) {results : List Object}
    (hredis : each (fun item : String × Value => Redis.execute (.set item.1 item.2 ex)) items r =
      some (results, r')) :
    Related isHll added (items.foldl (fun s item => s.set item.1 item.2) s) r' := by
  induction items generalizing s r results with
  | nil =>
      cases hredis
      exact h
  | cons item items ih =>
      obtain ⟨hkey, hkeys⟩ := List.forall_mem_cons.mp hkeys
      obtain ⟨result, r₁, rest, hone, hrest, rfl⟩ := each_cons hredis
      exact ih (related_set h hkey hone) hkeys hrest

/-- A time to live that lasts leaves the keys as they are. -/
theorem expire_lasting {ttl : Int} (httl : 0 < ttl) {result : Object}
    (hredis : Redis.execute (.expire key ttl) r = some (result, r')) :
    r' = r ∧ ∃ existed, result = .bool existed := by
  simp only [Redis.execute, if_pos httl] at hredis
  cases hredis
  exact ⟨rfl, _, rfl⟩

theorem expires_lasting {ttl : Int} (httl : 0 < ttl) {keys : List String} {results : List Object}
    (hredis : each (fun key => Redis.execute (.expire key ttl)) keys r = some (results, r')) :
    r' = r ∧ results.length = keys.length ∧ ∀ result ∈ results, result.isInt := by
  induction keys generalizing results with
  | nil =>
      cases hredis
      exact ⟨rfl, rfl, by simp⟩
  | cons key keys ih =>
      obtain ⟨result, r₁, rest, hone, hrest, rfl⟩ := each_cons hredis
      obtain ⟨rfl, existed, rfl⟩ := expire_lasting httl hone
      obtain ⟨hsame, hlength, hints⟩ := ih hrest
      exact ⟨hsame, congrArg (· + 1) hlength, List.forall_mem_cons.mpr ⟨rfl, hints⟩⟩

theorem related_incrMany (h : Related isHll added s r) {keys : List String}
    (hkeys : ∀ key ∈ keys, ¬ isHll key) {results results' : List Object}
    (hmemory : each InMemory.incr keys s = some (results, s'))
    (hredis : each (fun key => Redis.execute (.incr key)) keys r = some (results', r')) :
    Related isHll added s' r' ∧ results = results' ∧ ∀ result ∈ results', result.isInt := by
  obtain ⟨hrelated, hresults⟩ := each_related (R := Related isHll added)
    (P := fun result result' => result = result' ∧ result'.isInt)
    (fun key hkey s r result result' s' r' h hone hone' =>
      related_incr h (hkeys key hkey) hone hone') h hmemory hredis
  refine ⟨hrelated, ?_⟩
  clear hmemory hredis
  induction hresults with
  | nil => exact ⟨rfl, by simp⟩
  | cons hresult _ ih => exact ⟨by rw [hresult.1, ih.1], List.forall_mem_cons.mpr ⟨hresult.2, ih.2⟩⟩

theorem even_add {value : Value} (heven : ∀ k, Even (added k))
    (hsame : SameNovelty (added key) value) : ∀ k, Even (added.add key value k) := by
  intro k
  by_cases heq : k = key
  · rw [heq, Added.add, Function.update_self]
    exact even_concat (heven key) hsame
  · rw [Added.add, Function.update_of_ne heq]
    exact heven k

theorem even_delete (heven : ∀ k, Even (added k)) (key : String) :
    ∀ k, Even (Function.update added key [] k) := by
  intro k
  by_cases heq : k = key
  · rw [heq, Function.update_self]
    rfl
  · rw [Function.update_of_ne heq]
    exact heven k

/-- Adding the value to other keys first, or to the same key, changes nothing. -/
theorem sameNovelty_add {value : Value} {k : String} (hkey : SameNovelty (added key) value) :
    SameNovelty (added.add key value k) value ↔ SameNovelty (added k) value := by
  by_cases heq : k = key
  · subst heq
    rw [Added.add, Function.update_self]
    exact iff_of_true (sameNovelty_again _ _) hkey
  · rw [Added.add, Function.update_of_ne heq]

theorem even_pfaddMany {keys : List String} {value : Value} (heven : ∀ key, Even (added key))
    (hsame : ∀ key ∈ keys, SameNovelty (added key) value) :
    ∀ key, Even (keys.foldl (fun added key => added.add key value) added key) := by
  induction keys generalizing added with
  | nil => exact heven
  | cons key keys ih =>
      obtain ⟨hkey, hkeys⟩ := List.forall_mem_cons.mp hsame
      exact ih (even_add heven hkey) fun k hk => (sameNovelty_add hkey).mpr (hkeys k hk)

theorem related_pfaddMany (h : Related isHll added s r) {keys : List String}
    (hkeys : ∀ key ∈ keys, isHll key) {value : Value} {results results' : List Object}
    (hmemory : each (InMemory.pfadd value) keys s = some (results, s'))
    (hredis : each (fun key => Redis.execute (.pfadd key value)) keys r = some (results', r')) :
    Related isHll (keys.foldl (fun added key => added.add key value) added) s' r' ∧
      (results.map Object.decoded = results'.map Object.decoded ↔
        ∀ key ∈ keys, SameNovelty (added key) value) := by
  induction keys generalizing added s r results results' with
  | nil =>
      cases hmemory
      cases hredis
      exact ⟨h, by simp⟩
  | cons key keys ih =>
      obtain ⟨hkey, hkeys⟩ := List.forall_mem_cons.mp hkeys
      obtain ⟨result, s₁, rest, hone, hrest, rfl⟩ := each_cons hmemory
      obtain ⟨result', r₁, rest', hone', hrest', rfl⟩ := each_cons hredis
      obtain ⟨hrelated, hsame⟩ := related_pfadd h hkey hone hone'
      obtain ⟨hrelated, hsames⟩ := ih hrelated hkeys hrest hrest'
      refine ⟨hrelated, ?_⟩
      rw [List.map_cons, List.map_cons, List.cons.injEq, hsame, hsames, List.forall_mem_cons]
      exact and_congr_right fun hfirst => forall₂_congr fun k _ => sameNovelty_add hfirst

theorem pfcount_even (h : Related isHll added s r) (hkey : isHll key)
    (heven : Even (added key)) {result : Object}
    (hredis : Redis.execute (.pfcount key) r = some (result, r')) :
    r' = r ∧ result = s.pfcount key := by
  have helements := h.elements key hkey
  have hencodings := h.encodings key hkey
  unfold InMemory.pfcount
  by_cases hempty : added key = []
  · rw [if_pos hempty] at helements hencodings
    simp only [Redis.execute, hencodings] at hredis
    cases hredis
    rw [helements]
    exact ⟨rfl, rfl⟩
  · rw [if_neg hempty] at helements hencodings
    simp only [Redis.execute, hencodings] at hredis
    cases hredis
    rw [helements]
    exact ⟨rfl, congrArg (fun n : Nat => Object.int n) heven.symm⟩

theorem related_delete (h : Related isHll added s r) (key : String) :
    Related isHll (Function.update added key [])
      ⟨Dict.erase key s.storage, Dict.erase key s.hllStorage⟩ (Dict.erase key r) := by
  have hupdate : ∀ k, Function.update added key [] k = if key = k then [] else added k := by
    intro k
    by_cases heq : key = k
    · rw [if_pos heq, heq, Function.update_self]
    · rw [if_neg heq, Function.update_of_ne (Ne.symm heq)]
  refine ⟨fun k hk => ?_, fun k hk => ?_, fun k hk => ?_⟩
  · rw [Dict.get_erase, Dict.get_erase]
    split
    · rfl
    · exact h.strings k hk
  · rw [Dict.get_erase, hupdate]
    split
    · rfl
    · exact h.elements k hk
  · rw [Dict.get_erase, hupdate]
    split
    · rfl
    · exact h.encodings k hk

theorem call_incr (h : Related isHll added s r) {key : String} {ttl : Option Int}
    {expireKeys : Option (List String)} (hkey : ¬ isHll key) (hlasting : ∀ t ∈ ttl, 0 < t)
    {answer answer' : Answer}
    (hmemory : InMemory.call (.incr key ttl expireKeys) s = some (answer, s'))
    (hredis : RedisCache.call (.incr key ttl expireKeys) r = some (answer', r')) :
    Related isHll added s' r' ∧ answer.decoded = answer'.decoded := by
  obtain ⟨⟨result, s₁⟩, hincr, heq⟩ := Option.map_eq_some_iff.mp hmemory
  cases heq
  simp only [RedisCache.call] at hredis
  split at hredis
  · cases hredis
  · rename_i val r₁ hincr'
    obtain ⟨hrelated, rfl, -⟩ := related_incr h hkey hincr hincr'
    cases ttl with
    | none =>
        cases hredis
        exact ⟨hrelated, rfl⟩
    | some ttl =>
        obtain ⟨⟨existed, r₂⟩, hexpire, heq⟩ := Option.map_eq_some_iff.mp hredis
        cases heq
        obtain ⟨rfl, -⟩ := expire_lasting (hlasting ttl rfl) hexpire
        exact ⟨hrelated, rfl⟩

/-- `incr` of several keys keeps the results of EXPIRE among its own. -/
theorem call_incrMany (h : Related isHll added s r) {keys : List String} {ttl : Option Int}
    {expireKeys : Option (List String)} (hkeys : ∀ key ∈ keys, ¬ isHll key)
    (hlasting : ∀ t ∈ ttl, 0 < t) {answer answer' : Answer}
    (hmemory : InMemory.call (.incrMany keys ttl expireKeys) s = some (answer, s'))
    (hredis : RedisCache.call (.incrMany keys ttl expireKeys) r = some (answer', r')) :
    Related isHll added s' r' ∧ (answer.decoded = answer'.decoded ↔
      keys = [] ∨ ttl = none ∨ expireKeys.getD [] = []) := by
  obtain ⟨⟨results, s₁⟩, hresults, heq⟩ := Option.map_eq_some_iff.mp hmemory
  cases heq
  simp only [RedisCache.call] at hredis
  split at hredis
  · rename_i hempty
    subst hempty
    cases hresults
    cases hredis
    exact ⟨h, by simp⟩
  · rename_i hsome
    obtain ⟨⟨results', r₁⟩, hpipeline, heq⟩ := Option.map_eq_some_iff.mp hredis
    cases heq
    obtain ⟨incrs, r₂, expires, hincrs, hexpires, rfl⟩ := each_append hpipeline
    rw [each_map] at hincrs
    obtain ⟨hrelated, rfl, hints⟩ := related_incrMany h hkeys hresults hincrs
    have hexpired : r₁ = r₂ ∧ (∀ result ∈ expires, result.isInt) ∧
        (expires = [] ↔ ttl = none ∨ expireKeys.getD [] = []) := by
      cases ttl with
      | none =>
          cases hexpires
          exact ⟨rfl, by simp, by simp⟩
      | some t =>
          rw [each_map] at hexpires
          obtain ⟨rfl, hlength, hints⟩ := expires_lasting (hlasting t rfl) hexpires
          refine ⟨rfl, hints, ?_⟩
          rw [← List.length_eq_zero_iff, hlength, List.length_eq_zero_iff]
          simp
    obtain ⟨rfl, hbools, hnone⟩ := hexpired
    refine ⟨hrelated, ?_⟩
    have hkept : (results ++ expires).filter Object.isInt = results ++ expires :=
      List.filter_eq_self.mpr fun result hmem => (List.mem_append.mp hmem).elim (hints result)
        (hbools result)
    rw [hkept]
    simp only [Answer.decoded, Sum.inr.injEq, hsome, false_or, ← hnone]
    constructor
    · intro heq
      have hlength := congrArg List.length heq
      rw [List.length_map, List.length_map, List.length_append] at hlength
      exact List.length_eq_zero_iff.mp (by omega)
    · rintro rfl
      rw [List.append_nil]

theorem related_call {c : Call} (h : Related isHll added s r) (heven : ∀ key, Even (added key))
    (hstring : ∀ key ∈ c.stringKeys, ¬ isHll key) (hhll : ∀ key ∈ c.hllKeys, isHll key)
    (hlasting : ∀ ttl ∈ c.ttl, 0 < ttl) {answer answer' : Answer}
    (hmemory : InMemory.call c s = some (answer, s'))
    (hredis : RedisCache.call c r = some (answer', r')) :
    Related isHll (c.after added) s' r' ∧
      (answer.decoded = answer'.decoded ↔ c.Agrees added) ∧
      (c.Agrees added → ∀ key, Even (c.after added key)) := by
  cases c with
  | get key =>
      cases hmemory
      obtain ⟨⟨result, r₁⟩, hget, heq⟩ := Option.map_eq_some_iff.mp hredis
      cases heq
      obtain ⟨rfl, hdecoded⟩ := decoded_get h (hstring key List.mem_cons_self) hget
      exact ⟨h, iff_of_true (congrArg Sum.inl hdecoded.symm) trivial, fun _ => heven⟩
  | getMany keys =>
      cases hmemory
      obtain ⟨⟨results, r₁⟩, hget, heq⟩ := Option.map_eq_some_iff.mp hredis
      cases heq
      obtain ⟨rfl, hdecoded⟩ := decoded_getMany h hstring hget
      exact ⟨h, iff_of_true (congrArg Sum.inr hdecoded.symm) trivial, fun _ => heven⟩
  | set key value ttl =>
      cases hmemory
      obtain ⟨⟨result, r₁⟩, hset, heq⟩ := Option.map_eq_some_iff.mp hredis
      cases heq
      exact ⟨related_set h (hstring key List.mem_cons_self) hset, iff_of_true rfl trivial,
        fun _ => heven⟩
  | setMany items ttl =>
      cases hmemory
      obtain ⟨⟨results, r₁⟩, hset, heq⟩ := Option.map_eq_some_iff.mp hredis
      cases heq
      unfold Redis.pipeline at hset
      rw [each_map] at hset
      exact ⟨related_setMany h hstring hset, iff_of_true rfl trivial, fun _ => heven⟩
  | incr key ttl expireKeys =>
      obtain ⟨hrelated, hsame⟩ :=
        call_incr h (hstring key List.mem_cons_self) hlasting hmemory hredis
      exact ⟨hrelated, iff_of_true hsame trivial, fun _ => heven⟩
  | incrMany keys ttl expireKeys =>
      obtain ⟨hrelated, hsame⟩ := call_incrMany h hstring hlasting hmemory hredis
      exact ⟨hrelated, hsame, fun _ => heven⟩
  | pfadd key value =>
      obtain ⟨⟨result, s₁⟩, hadd, heq⟩ := Option.map_eq_some_iff.mp hmemory
      cases heq
      obtain ⟨⟨result', r₁⟩, hadd', heq⟩ := Option.map_eq_some_iff.mp hredis
      cases heq
      obtain ⟨hrelated, hsame⟩ := related_pfadd h (hhll key List.mem_cons_self) hadd hadd'
      refine ⟨hrelated, ⟨fun heq => hsame.mp (Sum.inl.inj heq), fun hnew => ?_⟩, even_add heven⟩
      exact congrArg Sum.inl (hsame.mpr hnew)
  | pfaddMany keys value =>
      obtain ⟨⟨results, s₁⟩, hadd, heq⟩ := Option.map_eq_some_iff.mp hmemory
      cases heq
      obtain ⟨⟨results', r₁⟩, hadd', heq⟩ := Option.map_eq_some_iff.mp hredis
      cases heq
      unfold Redis.pipeline at hadd'
      rw [each_map] at hadd'
      obtain ⟨hrelated, hsame⟩ := related_pfaddMany h hhll hadd hadd'
      refine ⟨hrelated, ⟨fun heq => hsame.mp (Sum.inr.inj heq), fun hnew => ?_⟩,
        even_pfaddMany heven⟩
      exact congrArg Sum.inr (hsame.mpr hnew)
  | pfcount key =>
      cases hmemory
      obtain ⟨⟨result, r₁⟩, hcount, heq⟩ := Option.map_eq_some_iff.mp hredis
      cases heq
      obtain ⟨rfl, rfl⟩ := pfcount_even h (hhll key List.mem_cons_self) (heven key) hcount
      exact ⟨h, iff_of_true rfl trivial, fun _ => heven⟩
  | delete key =>
      cases hmemory
      cases hredis
      exact ⟨related_delete h key, iff_of_true rfl trivial, fun _ => even_delete heven key⟩
  | clear =>
      cases hmemory
      cases hredis
      exact ⟨.start isHll, iff_of_true rfl trivial, fun _ _ => rfl⟩

end Related

/-! ## All calls -/

theorem run_agree {isHll : String → Prop} {calls : List Call} {added : Added} {s s' : InMemory}
    {r r' : Redis} (h : Related isHll added s r) (heven : ∀ key, Even (added key))
    (hstring : ∀ c ∈ calls, ∀ key ∈ c.stringKeys, ¬ isHll key)
    (hhll : ∀ c ∈ calls, ∀ key ∈ c.hllKeys, isHll key) (hlasting : Lasting calls)
    {answers answers' : List Answer} (hmemory : InMemory.run calls s = some (answers, s'))
    (hredis : RedisCache.run calls r = some (answers', r')) :
    answers.map Answer.decoded = answers'.map Answer.decoded ↔ Agreeing added calls := by
  induction calls generalizing added s r answers answers' with
  | nil =>
      cases hmemory
      cases hredis
      exact iff_of_true rfl trivial
  | cons c calls ih =>
      obtain ⟨answer, s₁, rest, hone, hrest, rfl⟩ := each_cons hmemory
      obtain ⟨answer', r₁, rest', hone', hrest', rfl⟩ := each_cons hredis
      obtain ⟨hstring, hstrings⟩ := List.forall_mem_cons.mp hstring
      obtain ⟨hhll, hhlls⟩ := List.forall_mem_cons.mp hhll
      obtain ⟨hlasts, hlasting⟩ := List.forall_mem_cons.mp hlasting
      obtain ⟨hrelated, hsame, hkeeps⟩ := related_call h heven hstring hhll hlasts hone hone'
      rw [List.map_cons, List.map_cons, List.cons.injEq, hsame]
      exact and_congr_right fun hagrees =>
        ih hrelated (hkeeps hagrees) hstrings hhlls hlasting hrest hrest'

/-- The managers return the same results exactly when no `incr` of several keys sets a time
to live and the values of every HyperLogLog are as different by `str` as by encoding. -/
theorem same_results_iff {calls : List Call} (hkeys : DisjointKeys calls)
    (hlasting : Lasting calls) {answers answers' : List Answer} {s : InMemory} {r : Redis}
    (hmemory : InMemory.run calls {} = some (answers, s))
    (hredis : RedisCache.run calls [] = some (answers', r)) :
    answers.map Answer.decoded = answers'.map Answer.decoded ↔
      Agreeing (fun _ => []) calls := by
  let isHll : String → Prop := fun key => ∃ c ∈ calls, key ∈ c.hllKeys
  refine run_agree (.start isHll) (fun _ => rfl) ?_ ?_ hlasting hmemory hredis
  · rintro c hc key hkey ⟨c', hc', hmem⟩
    exact hkeys c hc c' hc' key hkey hmem
  · exact fun c hc key hkey => ⟨c, hc, hkey⟩

def viewed : List Call :=
  [.setMany [("views:1", .int 7), ("views:2", .text "8")] (some 60),
    .pfadd "visitors:1" (.text "a"), .pfaddMany ["visitors:1", "visitors:2"] (.text "b"),
    .incrMany ["views:1", "views:2"] none (some ["visitors:1"]), .getMany ["views:1", "views:3"],
    .pfcount "visitors:1", .delete "views:1", .incr "views:1" (some 60) none]

theorem viewed_same :
    (InMemory.run viewed {}).map (fun run => run.1.map Answer.decoded) =
      (RedisCache.run viewed []).map fun run => run.1.map Answer.decoded := by
  have hkeys : DisjointKeys viewed := by
    unfold DisjointKeys
    decide
  have hlasting : Lasting viewed := by
    unfold Lasting
    decide
  exact congrArg some ((same_results_iff hkeys hlasting rfl rfl).mpr (by decide))

def countedView : List Call :=
  [.pfaddMany ["visitors:1"] (.text "a"), .incrMany ["views:1"] (some 86400) (some ["visitors:1"])]

/-- Redis answers `[1, True]` where the dictionary answers `[1]`. -/
theorem incr_keeps_expire :
    ¬ ∀ calls, DisjointKeys calls → Lasting calls → ∀ answers answers' s r,
      InMemory.run calls {} = some (answers, s) → RedisCache.run calls [] = some (answers', r) →
      answers.map Answer.decoded = answers'.map Answer.decoded := by
  intro h
  have hkeys : DisjointKeys countedView := by
    unfold DisjointKeys
    decide
  have hlasting : Lasting countedView := by
    unfold Lasting
    decide
  have hsame := h countedView hkeys hlasting _ _ _ _ rfl rfl
  revert hsame
  decide

end TicketBooking.Cache.Managers
