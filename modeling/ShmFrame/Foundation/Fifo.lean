import Mathlib.Data.List.Basic

/-! Bounded queues, seen through their history: everything accepted and everything handed
out so far, oldest first. A queue is exact when it hands out what it accepted, in that
order, and never holds more than its capacity.
-/

namespace ShmFrame.Foundation

/-- The history of a queue, oldest first. -/
structure Fifo (α : Type*) where
  accepted : List α := []
  popped : List α := []

namespace Fifo

variable {α : Type*}

/-- The number of elements accepted and not handed out yet. -/
def unread (queue : Fifo α) : Nat := queue.accepted.length - queue.popped.length

/-- Accepts an element. -/
def push (queue : Fifo α) (element : α) : Fifo α :=
  { queue with accepted := queue.accepted ++ [element] }

/-- Hands out an element. -/
def pop (queue : Fifo α) (element : α) : Fifo α :=
  { queue with popped := queue.popped ++ [element] }

/-- Lossless, in order, nothing twice, and bounded. -/
structure Exact (queue : Fifo α) (capacity : Nat) : Prop where
  inOrder : queue.popped <+: queue.accepted
  bounded : queue.accepted.length ≤ queue.popped.length + capacity

variable {queue : Fifo α} {capacity : Nat}

/-- A queue without history is exact. -/
theorem Exact.empty : Exact (α := α) {} capacity :=
  ⟨List.prefix_rfl, Nat.zero_le _⟩

/-- The unread elements fit the capacity. -/
theorem Exact.unread_le (exact_ : queue.Exact capacity) : queue.unread ≤ capacity :=
  Nat.sub_le_iff_le_add'.mpr exact_.bounded

/-- A queue with room stays exact when it accepts an element. -/
theorem Exact.push (exact_ : queue.Exact capacity) (room : queue.unread < capacity)
    (element : α)
    : (queue.push element).Exact capacity := by
  refine ⟨exact_.inOrder.trans (List.prefix_append _ _), ?_⟩
  have fewer := exact_.inOrder.length_le
  simp only [Fifo.unread] at room
  simp only [Fifo.push, List.length_append, List.length_singleton]
  omega

/-- An exact queue stays exact when it hands out its oldest unread element. -/
theorem Exact.pop (exact_ : queue.Exact capacity) {element : α}
    (oldest : queue.accepted[queue.popped.length]? = some element)
    : (queue.pop element).Exact capacity := by
  obtain ⟨rest, accepted⟩ := exact_.inOrder
  have next : rest[0]? = some element := by
    rw [← accepted, List.getElem?_append_right (Nat.le_refl _), Nat.sub_self] at oldest
    exact oldest
  cases rest with
  | nil => simp at next
  | cons head later =>
      obtain rfl := Option.some.inj next
      refine ⟨⟨later, ?_⟩, ?_⟩
      · simp only [Fifo.pop, ← accepted, List.append_assoc, List.singleton_append]
      · have bounded := exact_.bounded
        simp only [Fifo.pop, List.length_append, List.length_singleton]
        omega

end Fifo
end ShmFrame.Foundation
