import TicketBooking.Library.Sessions
import Mathlib.Data.List.Nodup
/-!
# Unique keys under interleaving

Two ways in which sessions keep the keys of a table apart: each key is drawn from a sequence
that never goes back, or it is inserted under a lock, after the stored keys have been looked
at.
-/

namespace TicketBooking.Library.UniqueKeys

open TicketBooking.Library.Sessions

variable {ι S Row Pc Act K : Type*}

/-! ## Keys from a sequence -/

/-- The stored keys, the next one of the sequence, and the keys that a session has drawn and
not stored yet; `ready` is what the session knows of its own frame. -/
structure Numbering (S Pc : Type*) where
  stored : S → List Nat
  next : S → Nat
  drawn : Pc → List Nat
  ready : Pc → Prop

namespace Numbering

inductive Moves (N : Numbering S Pc) (s s' : S) (pc pc' : Pc) : Prop
  | keeps (hstored : (N.stored s').Sublist (N.stored s)) (hnext : N.next s ≤ N.next s')
      (hdrawn : (N.drawn pc').Sublist (N.drawn pc))
  | draws (n : Nat) (hstored : N.stored s' = N.stored s) (hnext : N.next s' = N.next s + n)
      (hdrawn : N.drawn pc' = N.drawn pc ++ List.range' (N.next s) n)
  | stores (hstored : N.stored s' = N.stored s ++ N.drawn pc) (hnext : N.next s' = N.next s)
      (hdrawn : N.drawn pc' = [])

structure Inv (N : Numbering S Pc) (s : S) : Prop where
  nodup : (N.stored s).Nodup
  below : ∀ key ∈ N.stored s, key < N.next s

/-- The keys a session has drawn are nowhere else. -/
structure Fresh (N : Numbering S Pc) (s : S) (pc : Pc) : Prop where
  nodup : (N.drawn pc).Nodup
  below : ∀ key ∈ N.drawn pc, key < N.next s
  new : ∀ key ∈ N.drawn pc, key ∉ N.stored s
  ready : N.ready pc

def outline (N : Numbering S Pc) : Outline ι S Row Pc where
  inv := N.Inv
  at_ _ s _ pc := N.Fresh s pc
  apart pc pc' := (N.drawn pc).Disjoint (N.drawn pc')

variable {N : Numbering S Pc} {s s' : S} {pc pc' other : Pc}

theorem Moves.next_le (h : N.Moves s s' pc pc') : N.next s ≤ N.next s' := by
  cases h with
  | keeps _ hnext _ => exact hnext
  | draws n _ hnext _ => exact hnext ▸ Nat.le_add_right _ _
  | stores _ hnext _ => exact hnext.ge

theorem lt_of_mem_range' {n key start : Nat} (h : key ∈ List.range' start n) :
    start ≤ key ∧ key < start + n :=
  List.mem_range'_1.mp h

theorem Inv.moves (h : N.Inv s) (hfresh : N.Fresh s pc) (hmoves : N.Moves s s' pc pc') :
    N.Inv s' := by
  cases hmoves with
  | keeps hstored hnext _ =>
      exact ⟨h.nodup.sublist hstored, fun key hkey =>
        (h.below key (hstored.subset hkey)).trans_le hnext⟩
  | draws n hstored hnext _ =>
      refine ⟨hstored ▸ h.nodup, fun key hkey => ?_⟩
      rw [hnext]
      exact (h.below key (hstored ▸ hkey)).trans_le (Nat.le_add_right _ _)
  | stores hstored hnext _ =>
      refine ⟨?_, fun key hkey => ?_⟩
      · rw [hstored, List.nodup_append]
        refine ⟨h.nodup, hfresh.nodup, fun key hkey key' hkey' heq => ?_⟩
        exact hfresh.new key' hkey' (heq ▸ hkey)
      · rw [hnext]
        rw [hstored] at hkey
        rcases List.mem_append.mp hkey with hkey | hkey
        · exact h.below key hkey
        · exact hfresh.below key hkey

theorem Fresh.moves (hinv : N.Inv s) (h : N.Fresh s pc) (hmoves : N.Moves s s' pc pc')
    (hready : N.ready pc') : N.Fresh s' pc' := by
  cases hmoves with
  | keeps hstored hnext hdrawn =>
      refine ⟨h.nodup.sublist hdrawn, fun key hkey => ?_, fun key hkey hmem => ?_, hready⟩
      · exact (h.below key (hdrawn.subset hkey)).trans_le hnext
      · exact h.new key (hdrawn.subset hkey) (hstored.subset hmem)
  | draws n hstored hnext hdrawn =>
      refine ⟨?_, fun key hkey => ?_, fun key hkey hmem => ?_, hready⟩
      · rw [hdrawn, List.nodup_append]
        refine ⟨h.nodup, List.nodup_range' .., fun key hkey key' hkey' heq => ?_⟩
        exact absurd (h.below key hkey) (by rw [heq]; exact (lt_of_mem_range' hkey').1.not_gt)
      · rw [hnext]
        rw [hdrawn] at hkey
        rcases List.mem_append.mp hkey with hkey | hkey
        · exact (h.below key hkey).trans_le (Nat.le_add_right _ _)
        · exact (lt_of_mem_range' hkey).2
      · rw [hstored] at hmem
        rw [hdrawn] at hkey
        rcases List.mem_append.mp hkey with hkey | hkey
        · exact h.new key hkey hmem
        · exact absurd (hinv.below key hmem) (lt_of_mem_range' hkey).1.not_gt
  | stores _ _ hdrawn =>
      refine ⟨hdrawn ▸ List.nodup_nil, ?_, ?_, hready⟩
      all_goals
        intro key hkey
        rw [hdrawn] at hkey
        cases hkey

theorem Fresh.frame (h : N.Fresh s other) (hmoves : N.Moves s s' pc pc')
    (happart : (N.drawn pc).Disjoint (N.drawn other)) : N.Fresh s' other := by
  refine ⟨h.nodup, fun key hkey => (h.below key hkey).trans_le hmoves.next_le,
    fun key hkey hmem => ?_, h.ready⟩
  cases hmoves with
  | keeps hstored _ _ => exact h.new key hkey (hstored.subset hmem)
  | draws n hstored _ _ => exact h.new key hkey (hstored ▸ hmem)
  | stores hstored _ _ =>
      rw [hstored] at hmem
      rcases List.mem_append.mp hmem with hmem | hmem
      · exact h.new key hkey hmem
      · exact happart hmem hkey

theorem Moves.disjoint (h : N.Fresh s other) (hmoves : N.Moves s s' pc pc')
    (happart : (N.drawn pc).Disjoint (N.drawn other)) :
    (N.drawn pc').Disjoint (N.drawn other) := by
  intro key hkey hother
  cases hmoves with
  | keeps _ _ hdrawn => exact happart (hdrawn.subset hkey) hother
  | draws n _ _ hdrawn =>
      rw [hdrawn] at hkey
      rcases List.mem_append.mp hkey with hkey | hkey
      · exact happart hkey hother
      · exact absurd (h.below key hother) (lt_of_mem_range' hkey).1.not_gt
  | stores _ _ hdrawn =>
      rw [hdrawn] at hkey
      cases hkey

variable {P : Protocol ι S Row Pc Act}
  {ok : World ι S Row Pc → ι → Act → Prop}

/-- Sessions that draw before they store keep the keys apart. -/
theorem sound (hstep : ∀ i s pc a eff pc', P i s pc a = some (eff, pc') → N.ready pc →
      N.Moves s (eff.apply s) pc pc' ∧ N.ready pc') : (N.outline (ι := ι)).Sound P ok where
  own w i a eff pc hw _ hP _ := by
    obtain ⟨hmoves, hready⟩ := hstep i w.shared (w.pc i) a eff pc hP (hw.at_ i).ready
    exact ⟨hw.inv.moves (hw.at_ i) hmoves, (hw.at_ i).moves hw.inv hmoves hready⟩
  frame w i j a eff pc hw _ hP _ hij := by
    obtain ⟨hmoves, -⟩ := hstep i w.shared (w.pc i) a eff pc hP (hw.at_ i).ready
    have hdisjoint := hmoves.disjoint (hw.at_ j) (hw.apart i j hij.symm)
    exact ⟨(hw.at_ j).frame hmoves (hw.apart i j hij.symm), hdisjoint,
      fun key hkey hkey' => hdisjoint hkey' hkey⟩

end Numbering

/-! ## Keys under a lock -/

/-- The stored keys, the lock of each, the key whose lock a session has just taken, and the
one it has found free under the lock. -/
structure Locking (S Row Pc K : Type*) where
  stored : S → List K
  row : K → Row
  locked : Pc → Option K
  free : Pc → Option K
  ready : Pc → Prop

namespace Locking

inductive Moves (L : Locking S Row Pc K) (s : S) (eff : Effect S Row) (pc pc' : Pc) : Prop
  | keeps (hstored : (L.stored (eff.apply s)).Sublist (L.stored s)) (hlocked : L.locked pc' = none)
      (hfree : L.free pc' = none)
  | locks (key : K) (heff : eff = .lock (L.row key)) (hlocked : L.locked pc' = some key)
      (hfree : L.free pc' = none)
  | finds (key : K) (heff : eff = .stay) (hlocked : L.locked pc = some key)
      (hnew : key ∉ L.stored s) (hlocked' : L.locked pc' = none) (hfree : L.free pc' = some key)
  | stores (key : K) (hfree : L.free pc = some key)
      (hstored : L.stored (eff.apply s) = L.stored s ++ [key]) (hlocked : L.locked pc' = none)
      (hfree' : L.free pc' = none)

/-- A session holds the lock of its key, and nobody else has stored one it found free. -/
structure At (L : Locking S Row Pc K) (s : S) (rows : Set Row) (pc : Pc) : Prop where
  locked : ∀ key, L.locked pc = some key → L.row key ∈ rows
  free : ∀ key, L.free pc = some key → L.row key ∈ rows ∧ key ∉ L.stored s
  ready : L.ready pc

def outline (L : Locking S Row Pc K) : Outline ι S Row Pc where
  inv s := (L.stored s).Nodup
  at_ _ s rows pc := L.At s rows pc
  apart _ _ := True

variable {L : Locking S Row Pc K} {s : S} {eff : Effect S Row} {rows : Set Row} {pc pc' : Pc}

theorem Moves.nodup (hmoves : L.Moves s eff pc pc') (h : (L.stored s).Nodup)
    (hat : L.At s rows pc) : (L.stored (eff.apply s)).Nodup := by
  cases hmoves with
  | keeps hstored _ _ => exact h.sublist hstored
  | locks key heff _ _ => exact heff ▸ h
  | finds key heff _ _ _ _ => exact heff ▸ h
  | stores key hfree hstored _ _ =>
      rw [hstored, List.nodup_append]
      refine ⟨h, List.nodup_singleton _, fun stored hmem key' hkey heq => ?_⟩
      rw [List.mem_singleton.mp hkey] at heq
      exact (hat.free key hfree).2 (heq ▸ hmem)

theorem At.moves (h : L.At s rows pc) (hmoves : L.Moves s eff pc pc') (hready : L.ready pc') :
    L.At (eff.apply s) (eff.held rows) pc' := by
  cases hmoves with
  | keeps _ hlocked hfree =>
      exact ⟨fun key hkey => by simp [hlocked] at hkey, fun key hkey => by simp [hfree] at hkey,
        hready⟩
  | locks key heff hlocked hfree =>
      refine ⟨fun key' hkey' => ?_, fun key' hkey' => by simp [hfree] at hkey', hready⟩
      rw [hlocked] at hkey'
      cases hkey'
      rw [heff]
      exact Set.mem_insert _ _
  | finds key heff hlocked hnew hlocked' hfree =>
      refine ⟨fun key' hkey' => by simp [hlocked'] at hkey', fun key' hkey' => ?_, hready⟩
      rw [hfree] at hkey'
      cases hkey'
      rw [heff]
      exact ⟨h.locked key hlocked, hnew⟩
  | stores key _ _ hlocked hfree =>
      exact ⟨fun key hkey => by simp [hlocked] at hkey, fun key hkey => by simp [hfree] at hkey,
        hready⟩

theorem At.frame {rows' : Set Row} {other : Pc} (h : L.At s rows' other)
    (hat : L.At s rows pc) (hmoves : L.Moves s eff pc pc')
    (hdisjoint : ∀ row ∈ rows, row ∉ rows') : L.At (eff.apply s) rows' other := by
  refine ⟨h.locked, fun key hkey => ?_, h.ready⟩
  obtain ⟨hrow, hnew⟩ := h.free key hkey
  refine ⟨hrow, fun hmem => ?_⟩
  cases hmoves with
  | keeps hstored _ _ => exact hnew (hstored.subset hmem)
  | locks key' heff _ _ =>
      subst heff
      exact hnew hmem
  | finds key' heff _ _ _ _ =>
      subst heff
      exact hnew hmem
  | stores key' hfree hstored _ _ =>
      rw [hstored] at hmem
      rcases List.mem_append.mp hmem with hmem | hmem
      · exact hnew hmem
      · rw [List.mem_singleton.mp hmem] at hrow
        exact hdisjoint _ (hat.free key' hfree).1 hrow

variable {P : Protocol ι S Row Pc Act}
  {ok : World ι S Row Pc → ι → Act → Prop}

/-- Sessions that look under the lock of a key keep the keys apart. -/
theorem sound (hstep : ∀ i s pc a eff pc', P i s pc a = some (eff, pc') → L.ready pc →
      L.Moves s eff pc pc' ∧ L.ready pc') : (L.outline (ι := ι)).Sound P ok where
  own w i a eff pc hw _ hP _ := by
    obtain ⟨hmoves, hready⟩ := hstep i w.shared (w.pc i) a eff pc hP (hw.at_ i).ready
    exact ⟨hmoves.nodup hw.inv (hw.at_ i), (hw.at_ i).moves hmoves hready⟩
  frame w i j a eff pc hw _ hP _ hij := by
    obtain ⟨hmoves, -⟩ := hstep i w.shared (w.pc i) a eff pc hP (hw.at_ i).ready
    refine ⟨(hw.at_ j).frame (hw.at_ i) hmoves fun row hi hj => ?_, trivial, trivial⟩
    exact hij (w.held_disjoint hj hi)

end Locking

end TicketBooking.Library.UniqueKeys
