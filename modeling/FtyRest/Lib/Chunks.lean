import Mathlib.Data.List.Basic
import Mathlib.Algebra.Ring.Nat

/-!
# Memory in chunks of one size

The cells of a list of chunks, one chunk after the other, and where the operations on a chunk are
found in them.
-/

namespace Chunks

variable {α : Type*} {n : Nat}

def cells (chunks : List (Vector α n)) : List α := chunks.flatMap Vector.toList

@[simp]
theorem cells_nil : cells ([] : List (Vector α n)) = [] := rfl

@[simp]
theorem cells_cons (chunk : Vector α n) (chunks : List (Vector α n)) :
    cells (chunk :: chunks) = chunk.toList ++ cells chunks := rfl

@[simp]
theorem cells_append (chunks more : List (Vector α n)) :
    cells (chunks ++ more) = cells chunks ++ cells more := List.flatMap_append

@[simp]
theorem length_cells (chunks : List (Vector α n)) :
    (cells chunks).length = chunks.length * n := by
  induction chunks with
  | nil => simp
  | cons chunk chunks ih =>
    rw [cells_cons, List.length_append, ih, Vector.length_toList, List.length_cons,
      Nat.succ_mul, Nat.add_comm]

theorem cells_take (chunks : List (Vector α n)) (k : Nat) :
    cells (chunks.take k) = (cells chunks).take (k * n) := by
  induction chunks generalizing k with
  | nil => simp
  | cons chunk chunks ih =>
    cases k with
    | zero => simp
    | succ k =>
      -- the first chunk takes `n` of the `(k + 1) * n` cells
      have hrest : (k + 1) * n - chunk.toList.length = k * n := by
        rw [Vector.length_toList, Nat.succ_mul, Nat.add_sub_cancel]
      have hfirst : chunk.toList.length ≤ (k + 1) * n := by
        rw [Vector.length_toList]
        exact Nat.le_mul_of_pos_left n (Nat.succ_pos k)
      rw [List.take_succ_cons, cells_cons, cells_cons, ih, List.take_append, hrest,
        List.take_of_length_le hfirst]

theorem cells_drop (chunks : List (Vector α n)) (k : Nat) :
    cells (chunks.drop k) = (cells chunks).drop (k * n) := by
  induction chunks generalizing k with
  | nil => simp
  | cons chunk chunks ih =>
    cases k with
    | zero => simp
    | succ k =>
      have hrest : (k + 1) * n - chunk.toList.length = k * n := by
        rw [Vector.length_toList, Nat.succ_mul, Nat.add_sub_cancel]
      have hfirst : chunk.toList.length ≤ (k + 1) * n := by
        rw [Vector.length_toList]
        exact Nat.le_mul_of_pos_left n (Nat.succ_pos k)
      rw [List.drop_succ_cons, cells_cons, ih, List.drop_append, hrest,
        List.drop_eq_nil_of_le hfirst, List.nil_append]

/-- A chunk is found where the chunks before it end. -/
theorem take_drop_cells {chunks : List (Vector α n)} {i : Nat} {chunk : Vector α n}
    (h : chunks[i]? = some chunk) : ((cells chunks).drop (i * n)).take n = chunk.toList := by
  obtain ⟨hi, hget⟩ := List.getElem?_eq_some_iff.mp h
  rw [← cells_drop, List.drop_eq_getElem_cons hi, hget, cells_cons,
    List.take_append_of_le_length (by rw [Vector.length_toList]),
    List.take_of_length_le (by rw [Vector.length_toList])]

/-- To put something into a chunk is to put it into the cells. -/
theorem cells_modify {chunks : List (Vector α n)} {i j : Nat} (hi : i < chunks.length)
    (hj : j < n) (x : α) :
    cells (chunks.modify i fun chunk ↦ chunk.setIfInBounds j x) =
      (cells chunks).set (i * n + j) x := by
  induction chunks generalizing i with
  | nil => exact absurd hi (Nat.not_lt_zero i)
  | cons chunk chunks ih =>
    cases i with
    | zero =>
      have hin : j < chunk.toList.length := by rw [Vector.length_toList]; exact hj
      rw [Nat.zero_mul, Nat.zero_add, cells_cons, List.set_append_left _ _ hin]
      show (chunk.setIfInBounds j x).toList ++ cells chunks = _
      rw [Vector.toList_setIfInBounds]
    | succ i =>
      have hbehind : chunk.toList.length ≤ (i + 1) * n + j := by
        rw [Vector.length_toList, Nat.succ_mul]
        omega
      have hrest : (i + 1) * n + j - chunk.toList.length = i * n + j := by
        rw [Vector.length_toList, Nat.succ_mul]
        omega
      rw [cells_cons, List.set_append_right _ _ hbehind, hrest,
        ← ih (Nat.lt_of_succ_lt_succ hi)]
      rfl

end Chunks
