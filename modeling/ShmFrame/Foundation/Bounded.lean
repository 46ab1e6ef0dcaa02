import ShmFrame.Foundation.Effects

/-! How many effects a program performs at most, however its environment answers. -/

namespace ShmFrame.Foundation.Program

variable {Effect : Type} {Answer : Effect → Type} {Value Result World Other : Type}

/-- However the environment answers, the program performs so many effects at most, all of them
allowed, and what it returns is as required.
-/
def Within (environment : Environment Effect Answer World) (allowed : Effect → Prop)
    : Program Effect Answer Value → World → Nat → (Value → World → Prop) → Prop
  | .done value, world, _, required => required value world
  | .perform effect next, world, bound, required =>
      allowed effect ∧ 0 < bound
      ∧ ∀ answer later,
          environment world effect answer later
          → Within environment allowed (next answer) later (bound - 1) required

variable {environment : Environment Effect Answer World} {allowed : Effect → Prop}
  {program : Program Effect Answer Value} {second : Value → Program Effect Answer Result}
  {world : World} {bound more : Nat} {required : Value → World → Prop}

/-- A weaker bound, a weaker requirement and more allowed effects, by induction on the program.
-/
theorem Within.mono {weak : Value → World → Prop} {all : Effect → Prop}
    (within : program.Within environment allowed world bound required)
    (allows : ∀ effect, allowed effect → all effect) (fewer : bound ≤ more)
    (implies : ∀ value later, required value later → weak value later)
    : program.Within environment all world more weak := by
  induction program generalizing world bound more with
  | done value => exact implies value world within
  | perform effect next ih =>
      obtain ⟨allow, positive, rest⟩ := within
      exact ⟨allows effect allow, Nat.lt_of_lt_of_le positive fewer, fun answer later answered =>
        ih answer (rest answer later answered) (Nat.sub_le_sub_right fewer 1)⟩

/-- A weaker bound alone. -/
theorem Within.widen (within : program.Within environment allowed world bound required)
    (fewer : bound ≤ more)
    : program.Within environment allowed world more required :=
  within.mono (fun _ => id) fewer fun _ _ => id

/-- One program after the other, by induction on the first. -/
theorem Within.bind {middle : Value → World → Prop} {ensured : Result → World → Prop}
    (bound more : Nat)
    (first : program.Within environment allowed world bound middle)
    (rest
      : ∀ value later,
          middle value later → (second value).Within environment allowed later more ensured)
    : (program >>= second).Within environment allowed world (bound + more) ensured := by
  induction program generalizing world bound with
  | done value =>
      exact (rest value world first).widen (Nat.le_add_left more bound)
  | perform effect next ih =>
      obtain ⟨allow, positive, continues⟩ := first
      refine ⟨allow, by omega, fun answer later answered => ?_⟩
      exact (ih answer _ (continues answer later answered)).widen (by omega)

/-- A program that goes on without any further effect. -/
theorem Within.returning {finish : Value → Result}
    (first : program.Within environment allowed world bound required)
    : (program >>= fun value => Pure.pure (finish value)).Within environment allowed world bound
        fun _ _ => True :=
  Within.bind bound 0 first fun _ _ _ => trivial

/-- A test decides. -/
theorem Within.ite {condition : Prop} [Decidable condition]
    {yes no : Program Effect Answer Value}
    (ifTrue : condition → yes.Within environment allowed world bound required)
    (ifFalse : ¬ condition → no.Within environment allowed world bound required)
    : (if condition then yes else no).Within environment allowed world bound required := by
  split
  · exact ifTrue (by assumption)
  · exact ifFalse (by assumption)

/-- What is ensured anyway is ensured within the bound, by induction on the program. -/
theorem Within.and {ensured : Value → World → Prop}
    (within : program.Within environment allowed world bound required) {all : Effect → Prop}
    (ensures : program.Ensures environment all world ensured)
    : program.Within environment allowed world bound fun value later =>
        required value later ∧ ensured value later := by
  induction program generalizing world bound with
  | done value => exact ⟨within, ensures⟩
  | perform effect next ih =>
      obtain ⟨allow, positive, rest⟩ := within
      exact ⟨allow, positive, fun answer later answered =>
        ih answer (rest answer later answered) (ensures.2 answer later answered)⟩

end ShmFrame.Foundation.Program
