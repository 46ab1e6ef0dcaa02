import Mathlib.Tactic.TypeStar

/-! Families of parties. A step of one party replaces its entry and leaves all others. -/

namespace ShmFrame.Foundation

variable {Index Value : Type*} [DecidableEq Index]

/-- The family with one entry replaced. -/
def assign (family : Index → Value) (index : Index) (value : Value) : Index → Value :=
  fun other => if other = index then value else family other

/-- The replaced entry. -/
@[simp] theorem assign_same (family : Index → Value) (index : Index) (value : Value)
    : assign family index value index = value :=
  if_pos rfl

/-- Every other entry. -/
theorem assign_apart (family : Index → Value) {index other : Index} (value : Value)
    (apart : other ≠ index)
    : assign family index value other = family other :=
  if_neg apart

/-- What holds of the new entry and of all others holds of the whole family. -/
theorem forall_assign {family : Index → Value} {index : Index} {value : Value}
    {property : Index → Value → Prop}
    (here : property index value)
    (others : ∀ other, other ≠ index → property other (family other))
    (party : Index)
    : property party (assign family index value party) := by
  by_cases same : party = index
  · subst same
    rw [assign_same]
    exact here
  · rw [assign_apart _ _ same]
    exact others party same

end ShmFrame.Foundation
