import Mathlib.Tactic.Linarith

/-! Rows that are copied from one buffer to another one, with a distance of their own in
each: what every index holds afterwards, and when one stretch would have done.
-/

namespace ShmFrame.Foundation

/-- So many elements from an index of the source on, to an index of the destination. -/
structure Stretch where
  source : Nat
  target : Nat
  length : Nat

namespace Stretch

variable {Element : Type}

/-- Copies a stretch. -/
def copy (source : Nat → Element) (buffer : Nat → Element) (stretch : Stretch) : Nat → Element :=
  fun index =>
    if stretch.target ≤ index ∧ index < stretch.target + stretch.length then
      source (stretch.source + (index - stretch.target))
    else buffer index

/-- Rows of one length that follow one another, from rows that are `stride` apart. -/
def rows (base length stride count : Nat) : List Stretch :=
  (List.range count).map fun row =>
    { source := row * stride, target := base + row * length, length }

variable {source buffer other : Nat → Element} {base length stride count index : Nat}

/-- A stretch changes nothing before it and behind it. -/
theorem copy_outside {first target : Nat} (outside : index < target ∨ target + length ≤ index)
    : copy source buffer { source := first, target, length } index = buffer index := by
  refine if_neg fun inside => ?_
  obtain ⟨begins, ends⟩ := inside
  dsimp only at begins ends
  omega

/-- The elements of a stretch are those of the source. -/
theorem copy_inside {first target column : Nat} (inStretch : column < length)
    : copy source buffer { source := first, target, length } (target + column)
      = source (first + column) := by
  have inside : target ≤ target + column ∧ target + column < target + length :=
    ⟨Nat.le_add_right _ _, Nat.add_lt_add_left inStretch target⟩
  rw [copy, if_pos inside, Nat.add_sub_cancel_left]

/-- A stretch from the middle of a source is one from the start of what follows there. -/
theorem copy_shifted {first target : Nat}
    : copy (fun element => source (first + element)) buffer
          { source := 0, target, length }
      = copy source buffer { source := first, target, length } := by
  funext index
  simp only [copy, Nat.zero_add]

/-- What is copied into buffers that agree at an index leaves them in agreement there, by
induction on the stretches.
-/
theorem copies_congr (same : buffer index = other index) (stretches : List Stretch)
    : stretches.foldl (copy source) buffer index = stretches.foldl (copy source) other index := by
  induction stretches generalizing buffer other with
  | nil => exact same
  | cons stretch rest ih =>
      refine ih ?_
      unfold copy
      split
      · rfl
      · exact same

/-- The last row is copied last. -/
theorem copy_rows_succ (source buffer : Nat → Element) (base length stride count : Nat)
    : (rows base length stride (count + 1)).foldl (copy source) buffer
      = copy source ((rows base length stride count).foldl (copy source) buffer)
          { source := count * stride, target := base + count * length, length } := by
  simp only [rows, List.range_succ, List.map_append, List.foldl_append, List.map_cons,
    List.map_nil, List.foldl_cons, List.foldl_nil]

/-- Rows change nothing before the first and behind the last one, by induction on their
number.
-/
theorem copy_rows_outside (outside : index < base ∨ base + count * length ≤ index)
    : (rows base length stride count).foldl (copy source) buffer index = buffer index := by
  induction count with
  | zero => rfl
  | succ count ih =>
      rw [Nat.succ_mul] at outside
      rw [copy_rows_succ, copy_outside (by omega)]
      exact ih (by omega)

/-- Every element of every row is where it belongs, by induction on their number. -/
theorem copy_rows_at {row column : Nat} (inRow : column < length) (below : row < count)
    : (rows base length stride count).foldl (copy source) buffer (base + (row * length + column))
      = source (row * stride + column) := by
  induction count with
  | zero => exact absurd below (Nat.not_lt_zero row)
  | succ count ih =>
      rw [copy_rows_succ]
      rcases Nat.lt_or_eq_of_le (Nat.lt_succ_iff.mp below) with earlier | rfl
      · have ends : (row + 1) * length ≤ count * length := Nat.mul_le_mul_right length earlier
        rw [Nat.succ_mul] at ends
        rw [copy_outside (Or.inl (by omega))]
        exact ih earlier
      · rw [← Nat.add_assoc]
        exact copy_inside inRow

/-- Rows that follow one another in the source as well are a single stretch. -/
theorem copy_rows_single
    : (rows base length length count).foldl (copy source) buffer
      = copy source buffer { source := 0, target := base, length := length * count } := by
  funext index
  rcases Nat.lt_or_ge index base with before | after
  · rw [copy_rows_outside (Or.inl before), copy_outside (Or.inl before)]
  obtain ⟨element, rfl⟩ := Nat.exists_eq_add_of_le after
  rw [Nat.mul_comm length count]
  rcases Nat.lt_or_ge element (count * length) with inside | behind
  · have some_ : 0 < length := by
      rcases Nat.eq_zero_or_pos length with rfl | positive
      · rw [Nat.mul_zero] at inside
        exact absurd inside (Nat.not_lt_zero element)
      · exact positive
    have below : element / length < count := (Nat.div_lt_iff_lt_mul some_).mpr inside
    have split : element / length * length + element % length = element :=
      Nat.div_add_mod' element length
    have filled
        : (rows base length length count).foldl (copy source) buffer
              (base + (element / length * length + element % length))
            = source (element / length * length + element % length) :=
      copy_rows_at (Nat.mod_lt element some_) below
    rw [split] at filled
    rw [filled, copy_inside inside, Nat.zero_add]
  · rw [copy_rows_outside (Or.inr (by omega)), copy_outside (Or.inr (by omega))]

end Stretch
end ShmFrame.Foundation
