import ShmFrame.Foundation.Effects

/-! Programs that keep to a protocol: each effect is performed only in states of the environment
in which it is allowed, however the environment has answered before.
-/

namespace ShmFrame.Foundation.Program

variable {Effect : Type} {Answer : Effect → Type} {Value Result World : Type}

/-- Every effect is allowed in the state in which it is performed, and so is the result. -/
def Guarded (environment : Environment Effect Answer World) (guard : World → Effect → Prop)
    : Program Effect Answer Value → World → (Value → World → Prop) → Prop
  | .done value, world, required => required value world
  | .perform effect next, world, required =>
      guard world effect
      ∧ ∀ answer later,
          environment world effect answer later
          → Guarded environment guard (next answer) later required

variable {environment : Environment Effect Answer World} {guard : World → Effect → Prop}
  {program : Program Effect Answer Value} {second : Value → Program Effect Answer Result}
  {world : World} {required : Value → World → Prop}

/-- A weaker protocol and a weaker requirement, by induction on the program. -/
theorem Guarded.mono {weakGuard : World → Effect → Prop} {weak : Value → World → Prop}
    (guarded : program.Guarded environment guard world required)
    (allows : ∀ world effect, guard world effect → weakGuard world effect)
    (implies : ∀ value later, required value later → weak value later)
    : program.Guarded environment weakGuard world weak := by
  induction program generalizing world with
  | done value => exact implies value world guarded
  | perform effect next ih =>
      exact ⟨allows world effect guarded.1, fun answer later answered =>
        ih answer (guarded.2 answer later answered)⟩

/-- One program after the other, by induction on the first. -/
theorem Guarded.bind {middle : Value → World → Prop} {ensured : Result → World → Prop}
    (first : program.Guarded environment guard world middle)
    (rest
      : ∀ value later,
          middle value later → (second value).Guarded environment guard later ensured)
    : (program >>= second).Guarded environment guard world ensured := by
  induction program generalizing world with
  | done value => exact rest value world first
  | perform effect next ih =>
      exact ⟨first.1, fun answer later answered => ih answer (first.2 answer later answered)⟩

/-- One effect after which the program goes on. -/
theorem Guarded.effect {effect : Effect} {next : Answer effect → Program Effect Answer Result}
    {ensured : Result → World → Prop} (allowed : guard world effect)
    (rest
      : ∀ answer later,
          environment world effect answer later
          → (next answer).Guarded environment guard later ensured)
    : (single effect >>= next).Guarded environment guard world ensured :=
  ⟨allowed, rest⟩

/-- A test decides. -/
theorem Guarded.ite {condition : Prop} [Decidable condition]
    {yes no : Program Effect Answer Value}
    (ifTrue : condition → yes.Guarded environment guard world required)
    (ifFalse : ¬ condition → no.Guarded environment guard world required)
    : (if condition then yes else no).Guarded environment guard world required := by
  split
  · exact ifTrue (by assumption)
  · exact ifFalse (by assumption)

end ShmFrame.Foundation.Program
