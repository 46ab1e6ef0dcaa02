import Mathlib.Data.List.Basic
import Mathlib.Tactic.Ring

/-! Counted loops that may fail, and lists that such loops build from blocks of one length. -/

namespace ShmFrame.Foundation

-----------------------------------------------------------------------------------------
-- Loops
-----------------------------------------------------------------------------------------

section Loop

variable {State : Type*}

/-- Performs a body for 0, 1, 2 and so on below a bound; none once it fails. -/
def loop (body : Nat → State → Option State) : Nat → State → Option State
  | 0, state => some state
  | count + 1, state => (loop body count state).bind (body count)

/-- Invariant rule: a body that takes the invariant from each index to the next one never
fails and takes it from 0 to the bound. By induction on the bound.
-/
theorem loop_invariant {body : Nat → State → Option State} (invariant : Nat → State → Prop)
    {count : Nat}
    (step
      : ∀ index < count, ∀ state,
          invariant index state
          → ∃ next, body index state = some next ∧ invariant (index + 1) next)
    {start : State} (initially : invariant 0 start)
    : ∃ final, loop body count start = some final ∧ invariant count final := by
  induction count with
  | zero => exact ⟨start, rfl, initially⟩
  | succ count ih =>
      obtain ⟨middle, before, holds⟩ :=
        ih fun index below => step index (Nat.lt_succ_of_lt below)
      obtain ⟨final, last, after⟩ := step count (Nat.lt_succ_self count) middle holds
      exact ⟨final, by rw [loop, before, Option.bind_some, last], after⟩

end Loop

-----------------------------------------------------------------------------------------
-- Blocks
-----------------------------------------------------------------------------------------

section Blocks

variable {α : Type*}

/-- The first blocks of a sequence, one after the other. -/
def blocks (block : Nat → List α) : Nat → List α
  | 0 => []
  | count + 1 => blocks block count ++ block count

variable {block : Nat → List α} {size : Nat}

/-- Blocks of one length add up, by induction on their number. -/
theorem blocks_length (sized : ∀ index, (block index).length = size) (count : Nat)
    : (blocks block count).length = count * size := by
  induction count with
  | zero => rw [blocks, List.length_nil, Nat.zero_mul]
  | succ count ih => rw [blocks, List.length_append, ih, sized, Nat.succ_mul]

/-- What stands at some place of a block stands behind all blocks before it, by induction on
the number of blocks.
-/
theorem blocks_getElem? (sized : ∀ index, (block index).length = size) {count index place : Nat}
    (below : index < count) (inside : place < size)
    : (blocks block count)[index * size + place]? = (block index)[place]? := by
  induction count with
  | zero => exact absurd below (Nat.not_lt_zero index)
  | succ count ih =>
      have before := blocks_length sized count
      rcases Nat.lt_succ_iff_lt_or_eq.mp below with earlier | rfl
      · have enough : (index + 1) * size ≤ count * size := Nat.mul_le_mul_right size earlier
        rw [Nat.succ_mul] at enough
        rw [blocks, List.getElem?_append_left (by omega), ih earlier]
      · rw [blocks, List.getElem?_append_right (by omega), before, Nat.add_sub_cancel_left]

end Blocks
end ShmFrame.Foundation
