import Mathlib.Tactic.TypeStar

/-! Stateful computations that do not notice a change of the state: run on the changed
state they return the same value, and leave behind the same state, changed.
-/

namespace ShmFrame.Foundation

variable {State Value Result : Type}

/-- From every state of the invariant `given`, the computation does not notice the change,
and it ends in a state of the invariant.
-/
structure Blind (change : State → State) (given : State → Prop) (call : StateM State Value)
    : Prop where
  commutes
    : ∀ state, given state
        → call.run (change state) = ((call.run state).1, change (call.run state).2)
  keeps : ∀ state, given state → given (call.run state).2

namespace Blind

variable {change : State → State} {given : State → Prop}

/-- Returning a value touches nothing. -/
theorem pure (value : Value) : Blind change given (Pure.pure value) where
  commutes := fun _ _ => rfl
  keeps := fun _ holds => holds

/-- Computations that notice nothing can be run one after the other; what the first one
returns from states of the invariant may be used for the second.
-/
theorem bind_of {first : StateM State Value} {second : Value → StateM State Result}
    (here : Blind change given first) (yields : Value → Prop)
    (known : ∀ state, given state → yields (first.run state).1)
    (later : ∀ value, yields value → Blind change given (second value))
    : Blind change given (first >>= second) where
  commutes := fun state holds => by
    have start := here.commutes state holds
    have rest := (later _ (known state holds)).commutes _ (here.keeps state holds)
    change (second (first.run (change state)).1).run (first.run (change state)).2 = _
    rw [start]
    exact rest
  keeps := fun state holds => (later _ (known state holds)).keeps _ (here.keeps state holds)

/-- So can those whose second part works for every value. -/
theorem bind {first : StateM State Value} {second : Value → StateM State Result}
    (here : Blind change given first) (later : ∀ value, Blind change given (second value))
    : Blind change given (first >>= second) :=
  here.bind_of (fun _ => True) (fun _ _ => True.intro) fun value _ => later value

/-- A test that does not look at the state may decide between two of them. -/
theorem ite {condition : Prop} [Decidable condition] {yes no : StateM State Value}
    (whenTrue : condition → Blind change given yes)
    (whenFalse : ¬ condition → Blind change given no)
    : Blind change given (if condition then yes else no) := by
  split
  · rename_i holds
    exact whenTrue holds
  · rename_i fails
    exact whenFalse fails

/-- Loading something the change leaves alone. -/
theorem load {read : State → Value}
    (same : ∀ state, given state → read (change state) = read state)
    : Blind change given (modifyGet fun state => (read state, state)) where
  commutes := fun state holds => congrArg (·, change state) (same state holds)
  keeps := fun _ holds => holds

/-- Storing something the change leaves alone. -/
theorem store {write : State → State}
    (same : ∀ state, write (change state) = change (write state))
    (keeps : ∀ state, given state → given (write state))
    : Blind change given (modify write) where
  commutes := fun state _ => congrArg (PUnit.unit, ·) (same state)
  keeps := keeps

end Blind
end ShmFrame.Foundation
