import Mathlib.Data.List.Nodup
/-!
# Inserts that skip what is there

`INSERT ... ON CONFLICT DO NOTHING` into a table whose rows are unique, and the
cutting of a long list of rows into statements of bounded size.  Whatever the
cut, the rows and the counts are those of one statement over the whole list.
-/

namespace TicketBooking.Library.Inserts

section Insert

variable {α : Type*} [DecidableEq α]

/-- The table after the statement and the number of rows it inserted.  A row
that is present, or was inserted earlier in the statement, is skipped. -/
def insertNew (table : List α) : List α → List α × Nat
  | [] => (table, 0)
  | row :: rows =>
      if row ∈ table then insertNew table rows
      else ((insertNew (table ++ [row]) rows).1, (insertNew (table ++ [row]) rows).2 + 1)

@[simp] theorem insertNew_nil (table : List α) : insertNew table [] = (table, 0) := rfl

theorem insertNew_append (table xs ys : List α) :
    insertNew table (xs ++ ys) =
      ((insertNew (insertNew table xs).1 ys).1,
        (insertNew table xs).2 + (insertNew (insertNew table xs).1 ys).2) := by
  induction xs generalizing table with
  | nil => simp
  | cons x xs ih =>
      rw [List.cons_append]
      by_cases hx : x ∈ table
      · simp only [insertNew, if_pos hx]
        exact ih table
      · simp only [insertNew, if_neg hx, ih (table ++ [x])]
        rw [Nat.add_right_comm]

theorem mem_insertNew {table rows : List α} {x : α} :
    x ∈ (insertNew table rows).1 ↔ x ∈ table ∨ x ∈ rows := by
  induction rows generalizing table with
  | nil => simp
  | cons row rows ih =>
      by_cases hrow : row ∈ table
      · simp only [insertNew, if_pos hrow]
        rw [ih, List.mem_cons]
        constructor
        · rintro (h | h)
          · exact .inl h
          · exact .inr (.inr h)
        · rintro (h | rfl | h)
          · exact .inl h
          · exact .inl hrow
          · exact .inr h
      · simp only [insertNew, if_neg hrow]
        rw [ih, List.mem_append, List.mem_singleton, List.mem_cons, or_assoc]

theorem nodup_insertNew {table rows : List α} (h : table.Nodup) :
    (insertNew table rows).1.Nodup := by
  induction rows generalizing table with
  | nil => exact h
  | cons row rows ih =>
      by_cases hrow : row ∈ table
      · simp only [insertNew, if_pos hrow]
        exact ih h
      · simp only [insertNew, if_neg hrow]
        exact ih (List.concat_eq_append ▸ h.concat hrow)

/-- The rows already in the table stay where they are. -/
theorem prefix_insertNew (table rows : List α) : table <+: (insertNew table rows).1 := by
  induction rows generalizing table with
  | nil => exact List.prefix_rfl
  | cons row rows ih =>
      by_cases hrow : row ∈ table
      · simp only [insertNew, if_pos hrow]
        exact ih table
      · simp only [insertNew, if_neg hrow]
        exact (List.prefix_append table [row]).trans (ih _)

/-- The count the statement reports is the number of rows added. -/
theorem length_insertNew (table rows : List α) :
    (insertNew table rows).1.length = table.length + (insertNew table rows).2 := by
  induction rows generalizing table with
  | nil => rfl
  | cons row rows ih =>
      by_cases hrow : row ∈ table
      · simp only [insertNew, if_pos hrow]
        exact ih table
      · simp only [insertNew, if_neg hrow]
        rw [ih, List.length_append, List.length_singleton]
        omega

end Insert

section Chunks

variable {α : Type*}

/-- `xs[i:i + size]` for `i` in `range(0, len(xs), size)`. -/
def chunks (size : Nat) (xs : List α) : List (List α) :=
  (List.range' 0 ((xs.length + size - 1) / size) size).map fun i => (xs.drop i).take size

/-- The first `n` chunks from `start` on are the `n * size` elements there. -/
theorem flatten_chunks_from (size start n : Nat) (xs : List α) :
    ((List.range' start n size).map fun i => (xs.drop i).take size).flatten =
      (xs.drop start).take (n * size) := by
  induction n generalizing start with
  | zero => simp
  | succ n ih =>
      have hsplit : (n + 1) * size = size + n * size := by
        rw [Nat.succ_mul, Nat.add_comm]
      rw [List.range'_succ, List.map_cons, List.flatten_cons, ih, hsplit, List.take_add,
        List.drop_drop]

theorem flatten_chunks {size : Nat} (hsize : 0 < size) (xs : List α) :
    (chunks size xs).flatten = xs := by
  have hcover : xs.length ≤ (xs.length + size - 1) / size * size := by
    have hlt := Nat.lt_div_mul_add (a := xs.length + size - 1) hsize
    omega
  unfold chunks
  rw [flatten_chunks_from, List.drop_zero, List.take_of_length_le hcover]

theorem chunks_singleton {size : Nat} (hsize : 0 < size) (x : α) : chunks size [x] = [[x]] := by
  have hcount : ([x].length + size - 1) / size = 1 := by
    rw [List.length_singleton, Nat.add_sub_cancel_left, Nat.div_self hsize]
  have htake : [x].take size = [x] := List.take_of_length_le hsize
  rw [chunks, hcount, List.range'_one, List.map_singleton, List.drop_zero, htake]

theorem mem_chunks {size : Nat} (hsize : 0 < size) {xs chunk : List α}
    (h : chunk ∈ chunks size xs) : chunk ≠ [] ∧ chunk.length ≤ size := by
  unfold chunks at h
  obtain ⟨start, hstart, rfl⟩ := List.mem_map.mp h
  rw [List.mem_range'] at hstart
  obtain ⟨i, hi, rfl⟩ := hstart
  have hcover : i * size < xs.length := by
    have hle : i * size + size ≤ xs.length + size - 1 := by
      calc i * size + size = (i + 1) * size := (Nat.succ_mul i size).symm
        _ ≤ (xs.length + size - 1) / size * size := Nat.mul_le_mul_right size hi
        _ ≤ xs.length + size - 1 := Nat.div_mul_le_self _ _
    omega
  rw [Nat.zero_add, Nat.mul_comm size i]
  constructor
  · rw [← List.length_pos_iff, List.length_take, List.length_drop]
    omega
  · exact List.length_take_le _ _

end Chunks

end TicketBooking.Library.Inserts
