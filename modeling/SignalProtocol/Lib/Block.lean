/-
# Blocks of memory

A block is what `malloc` returns: a fixed number of cells.  `Block.read` and `Block.write` are
partial: outside the block they give nothing, so a computation that gives something has stayed
inside.  What a region holds after a write is said for the region that was
written (`slice_overwrite`) and for one in front of it or behind (`slice_overwrite_of_le`,
`slice_overwrite_of_ge`).
-/
import Mathlib.Data.List.Basic
import Mathlib.Tactic.Common

namespace SignalProtocol

namespace Block

variable {α : Type} {b data : List α} {i j m n : Nat}

/-! ## 1. Regions -/

/-- The `n` cells from cell `i` on. -/
def slice (b : List α) (i n : Nat) : List α :=
  (b.drop i).take n

/-- The block with some of its cells replaced. -/
def overwrite (b : List α) (i : Nat) (data : List α) : List α :=
  b.take i ++ data ++ b.drop (i + data.length)

/-- Reading `n` cells. -/
def read (b : List α) (i n : Nat) : Option (List α) :=
  if i + n ≤ b.length then some (slice b i n) else none

/-- Writing some cells. -/
def write (b : List α) (i : Nat) (data : List α) : Option (List α) :=
  if i + data.length ≤ b.length then some (overwrite b i data) else none

/-- `memmove`: the source is read before the destination is written. -/
def move (b : List α) (j i n : Nat) : Option (List α) := do
  write b j (← read b i n)

theorem read_of_le (h : i + n ≤ b.length) : read b i n = some (slice b i n) :=
  if_pos h

theorem write_of_le (h : i + data.length ≤ b.length) :
    write b i data = some (overwrite b i data) :=
  if_pos h

theorem length_slice (h : i + n ≤ b.length) : (slice b i n).length = n := by
  rw [slice, List.length_take, List.length_drop]
  omega

theorem length_overwrite (h : i + data.length ≤ b.length) :
    (overwrite b i data).length = b.length := by
  simp only [overwrite, List.length_append, List.length_take, List.length_drop]
  omega

theorem move_of_le (hi : i + n ≤ b.length) (hj : j + n ≤ b.length) :
    move b j i n = some (overwrite b j (slice b i n)) := by
  rw [move, read_of_le hi]
  exact write_of_le (by rwa [length_slice hi])

/-- Two writes one behind the other fill the start of a block. -/
theorem overwrite_overwrite (b u v : List α) :
    overwrite (overwrite b 0 u) u.length v = u ++ v ++ b.drop (u.length + v.length) := by
  have hfirst : overwrite b 0 u = u ++ b.drop u.length := by
    rw [overwrite, List.take_zero, List.nil_append, Nat.zero_add]
  rw [hfirst, overwrite, List.take_left, ← List.drop_drop, List.drop_left, List.drop_drop]

/-! ## 2. What a region holds -/

@[simp]
theorem slice_zero (b : List α) (i : Nat) : slice b i 0 = [] :=
  List.take_zero

/-- A region in two parts. -/
theorem slice_add (b : List α) (i m n : Nat) :
    slice b i (m + n) = slice b i m ++ slice b (i + m) n := by
  rw [slice, List.take_add, List.drop_drop]
  rfl

theorem take_slice (h : m ≤ n) : (slice b i n).take m = slice b i m := by
  rw [slice, List.take_take, Nat.min_eq_left h]
  rfl

theorem drop_slice (b : List α) (i m n : Nat) :
    (slice b i n).drop m = slice b (i + m) (n - m) := by
  rw [slice, List.drop_take, List.drop_drop]
  rfl

/-- The region that was written. -/
theorem slice_overwrite (h : i ≤ b.length) : slice (overwrite b i data) i data.length = data := by
  have hlen : (b.take i).length = i := List.length_take_of_le h
  rw [slice, overwrite, List.append_assoc, List.drop_left' hlen, List.take_left]

/-- A region in front of it. -/
theorem slice_overwrite_of_le (hi : i ≤ b.length) (h : j + n ≤ i) :
    slice (overwrite b i data) j n = slice b j n := by
  have hlen : (b.take i).length = i := List.length_take_of_le hi
  rw [slice, overwrite, List.append_assoc, List.drop_append_of_le_length (by omega),
    List.take_append_of_le_length (by rw [List.length_drop, hlen]; omega), List.drop_take,
    List.take_take, Nat.min_eq_left (by omega)]
  rfl

/-- A region behind it. -/
theorem slice_overwrite_of_ge (hi : i ≤ b.length) (h : i + data.length ≤ j) :
    slice (overwrite b i data) j n = slice b j n := by
  have hlen : (b.take i ++ data).length = i + data.length := by
    rw [List.length_append, List.length_take_of_le hi]
  obtain ⟨d, rfl⟩ := Nat.exists_eq_add_of_le h
  rw [slice, overwrite, ← hlen, List.drop_append, List.drop_of_length_le (by omega),
    List.nil_append, hlen, List.drop_drop]
  simp only [slice, Nat.add_sub_cancel_left]

end Block

end SignalProtocol
