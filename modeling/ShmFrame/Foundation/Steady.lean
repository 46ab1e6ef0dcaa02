import Mathlib.Order.Defs.Unbundled

/-! Stateful computations that only ever move along a preorder of the states. -/

namespace ShmFrame.Foundation

variable {State Value Result : Type}

/-- Wherever the computation starts, it ends in a state related to the start. -/
def Steady (relation : State → State → Prop) (call : StateM State Value) : Prop :=
  ∀ state, relation state (call.run state).2

namespace Steady

variable {relation : State → State → Prop}

/-- Returning a value moves nothing. -/
theorem pure [Std.Refl relation] (value : Value) : Steady relation (Pure.pure value) :=
  fun state => Std.Refl.refl state

/-- Steady computations can be run one after the other. -/
theorem bind [IsTrans State relation] {first : StateM State Value}
    {second : Value → StateM State Result}
    (here : Steady relation first) (later : ∀ value, Steady relation (second value))
    : Steady relation (first >>= second) :=
  fun state => IsTrans.trans _ _ _ (here state) (later _ _)

/-- A test may decide between two of them. -/
theorem ite {condition : Prop} [Decidable condition] {yes no : StateM State Value}
    (whenTrue : Steady relation yes) (whenFalse : Steady relation no)
    : Steady relation (if condition then yes else no) := by
  split
  · exact whenTrue
  · exact whenFalse

/-- Loading something moves nothing. -/
theorem load [Std.Refl relation] (read : State → Value)
    : Steady relation (modifyGet fun state => (read state, state)) :=
  fun state => Std.Refl.refl state

/-- Storing something moves along the relation if the store does. -/
theorem store {write : State → State} (moves : ∀ state, relation state (write state))
    : Steady relation (modify write) :=
  moves

/-- What is loaded is a part of the state the rest starts from. -/
theorem bind_load {read : State → Value} {second : Value → StateM State Result}
    (later : ∀ state, relation state ((second (read state)).run state).2)
    : Steady relation ((modifyGet fun state => (read state, state)) >>= second) :=
  later

/-- From one state: a first move, then a steady rest. -/
theorem bind_at [IsTrans State relation] {first : StateM State Value}
    {second : Value → StateM State Result} {state : State}
    (here : relation state (first.run state).2) (later : ∀ value, Steady relation (second value))
    : relation state ((first >>= second).run state).2 :=
  IsTrans.trans _ _ _ here (later _ _)

/-- From one state: a test. -/
theorem ite_at {condition : Prop} [Decidable condition] {yes no : StateM State Value}
    {state : State}
    (whenTrue : relation state (yes.run state).2) (whenFalse : relation state (no.run state).2)
    : relation state ((if condition then yes else no).run state).2 := by
  split
  · exact whenTrue
  · exact whenFalse

end Steady
end ShmFrame.Foundation
