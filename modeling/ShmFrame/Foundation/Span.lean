import Mathlib.Tactic.Linarith

/-! Half-open ranges of offsets, and arrays of equally spaced ones.
-/

namespace ShmFrame.Foundation

/-- The offsets from `first` on, `size` of them. -/
structure Span where
  first : Nat
  size : Nat
deriving DecidableEq

namespace Span

/-- The first offset behind the span. -/
def last (span : Span) : Nat := span.first + span.size

/-- An offset of the span. -/
def Holds (span : Span) (offset : Nat) : Prop := span.first ≤ offset ∧ offset < span.last

instance (span : Span) (offset : Nat) : Decidable (span.Holds offset) :=
  inferInstanceAs (Decidable (_ ∧ _))

/-- All of one span lies in another one. -/
def Inside (inner outer : Span) : Prop := outer.first ≤ inner.first ∧ inner.last ≤ outer.last

/-- Two spans have no offset in common: one ends before the other one begins. -/
def Apart (left right : Span) : Prop := left.last ≤ right.first ∨ right.last ≤ left.first

instance (left right : Span) : Decidable (left.Apart right) :=
  inferInstanceAs (Decidable (_ ∨ _))

variable {inner middle outer left right : Span}

/-- A span lies in itself. -/
@[simp] theorem Inside.refl (span : Span) : span.Inside span := ⟨le_rfl, le_rfl⟩

/-- What lies in a span lies in every span around it. -/
theorem Inside.trans (one : inner.Inside middle) (two : middle.Inside outer)
    : inner.Inside outer :=
  ⟨two.1.trans one.1, one.2.trans two.2⟩

/-- So do the offsets. -/
theorem Inside.holds (inside : inner.Inside outer) {offset : Nat} (holds : inner.Holds offset)
    : outer.Holds offset :=
  ⟨inside.1.trans holds.1, holds.2.trans_le inside.2⟩

/-- Being apart is symmetric. -/
theorem Apart.symm (apart : left.Apart right) : right.Apart left := Or.symm apart

/-- Spans that are apart share no offset. -/
theorem Apart.not_holds (apart : left.Apart right) {offset : Nat} (holds : left.Holds offset)
    : ¬ right.Holds offset := by
  rintro ⟨begins, ends⟩
  obtain ⟨after, before⟩ := holds
  rcases apart with first | second
  · omega
  · omega

/-- What lies in one of two spans that are apart is apart from what lies in the other. -/
theorem Apart.inside {innerLeft innerRight : Span} (apart : left.Apart right)
    (inLeft : innerLeft.Inside left) (inRight : innerRight.Inside right)
    : innerLeft.Apart innerRight := by
  obtain ⟨leftFirst, leftLast⟩ := inLeft
  obtain ⟨rightFirst, rightLast⟩ := inRight
  rcases apart with first | second
  · exact Or.inl (leftLast.trans (first.trans rightFirst))
  · exact Or.inr (rightLast.trans (second.trans leftFirst))

-----------------------------------------------------------------------------------------
-- Arrays
-----------------------------------------------------------------------------------------

/-- The element with some index of an array of spans that are `stride` apart. -/
def element (base stride size index : Nat) : Span where
  first := base + index * stride
  size := size

variable {base stride size count index other : Nat}

/-- Elements no larger than their distance do not overlap. -/
theorem element_apart (fits : size ≤ stride) (distinct : index ≠ other)
    : (element base stride size index).Apart (element base stride size other) := by
  rcases Nat.lt_or_gt_of_ne distinct with before | after
  · refine Or.inl ?_
    have next : (index + 1) * stride ≤ other * stride := Nat.mul_le_mul_right stride before
    rw [Nat.succ_mul] at next
    simp only [last, element]
    omega
  · refine Or.inr ?_
    have next : (other + 1) * stride ≤ index * stride := Nat.mul_le_mul_right stride after
    rw [Nat.succ_mul] at next
    simp only [last, element]
    omega

/-- The elements lie in the array. -/
theorem element_inside (fits : size ≤ stride) (below : index < count)
    : (element base stride size index).Inside { first := base, size := count * stride } := by
  have next : (index + 1) * stride ≤ count * stride := Nat.mul_le_mul_right stride below
  rw [Nat.succ_mul] at next
  constructor
  · simp only [element]
    omega
  · simp only [last, element]
    omega

end Span
end ShmFrame.Foundation
