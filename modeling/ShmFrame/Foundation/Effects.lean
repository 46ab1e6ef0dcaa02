import Mathlib.Order.Basic
import Mathlib.Tactic.TypeStar

/-! Programs that perform one effect at a time, and what can be said of them for every
environment that answers: which effects they perform, and what they return.
-/

namespace ShmFrame.Foundation

/-- A program over some effects, each with its own type of answers. An effect without any
answer is one that is never left.
-/
inductive Program (Effect : Type) (Answer : Effect → Type) (Value : Type)
  | done (value : Value)
  | perform (effect : Effect) (next : Answer effect → Program Effect Answer Value)

namespace Program

variable {Effect : Type} {Answer : Effect → Type} {Value Result : Type}

/-- One program after the other. -/
def bind (program : Program Effect Answer Value)
    (second : Value → Program Effect Answer Result)
    : Program Effect Answer Result :=
  match program with
  | .done value => second value
  | .perform effect next => .perform effect fun answer => (next answer).bind second

instance : Monad (Program Effect Answer) where
  pure := done
  bind := bind

/-- A single effect, which returns its answer. -/
def single (effect : Effect) : Program Effect Answer (Answer effect) := .perform effect .done

-----------------------------------------------------------------------------------------
-- What a program ensures
-----------------------------------------------------------------------------------------

/-- Which answers an environment may give in which of its states, and where it goes. -/
def Environment (Effect : Type) (Answer : Effect → Type) (World : Type) : Type :=
  World → (effect : Effect) → Answer effect → World → Prop

variable {World Other : Type}

/-- However the environment answers, all effects are allowed, and the result is as required
if there is one.
-/
def Ensures (environment : Environment Effect Answer World) (allowed : Effect → Prop)
    : Program Effect Answer Value → World → (Value → World → Prop) → Prop
  | .done value, world, required => required value world
  | .perform effect next, world, required =>
      allowed effect
      ∧ ∀ answer later,
          environment world effect answer later
          → Ensures environment allowed (next answer) later required

variable {environment : Environment Effect Answer World} {allowed : Effect → Prop} {world : World}

/-- The second program starts where the first one ends, by induction on the first. -/
theorem ensures_bind {program : Program Effect Answer Value}
    {second : Value → Program Effect Answer Result} {required : Result → World → Prop}
    : (program >>= second).Ensures environment allowed world required
      ↔ program.Ensures environment allowed world fun value later =>
          (second value).Ensures environment allowed later required := by
  induction program generalizing world with
  | done value => exact Iff.rfl
  | perform effect next ih =>
      exact and_congr_right fun _ =>
        forall_congr' fun answer => forall_congr' fun later => imp_congr_right fun _ => ih answer

/-- A weaker requirement, and more allowed effects, by induction on the program. -/
theorem Ensures.mono {program : Program Effect Answer Value} {more : Effect → Prop}
    {strong weak : Value → World → Prop}
    (ensures : program.Ensures environment allowed world strong)
    (allows : ∀ effect, allowed effect → more effect)
    (implies : ∀ value later, strong value later → weak value later)
    : program.Ensures environment more world weak := by
  induction program generalizing world with
  | done value => exact implies value world ensures
  | perform effect next ih =>
      exact ⟨allows effect ensures.1, fun answer later answered =>
        ih answer (ensures.2 answer later answered)⟩

/-- What a program ensures for what it returns, its continuation may assume. -/
theorem Ensures.bind {program : Program Effect Answer Value}
    {second : Value → Program Effect Answer Result} {middle : Value → World → Prop}
    {required : Result → World → Prop}
    (first : program.Ensures environment allowed world middle)
    (rest
      : ∀ value later,
          middle value later → (second value).Ensures environment allowed later required)
    : (program >>= second).Ensures environment allowed world required :=
  ensures_bind.mpr (first.mono (fun _ => id) rest)

/-- A test may decide between two programs. -/
theorem Ensures.ite {condition : Prop} [Decidable condition]
    {yes no : Program Effect Answer Value} {required : Value → World → Prop}
    (whenTrue : condition → yes.Ensures environment allowed world required)
    (whenFalse : ¬ condition → no.Ensures environment allowed world required)
    : (if condition then yes else no).Ensures environment allowed world required := by
  split
  · exact whenTrue (by assumption)
  · exact whenFalse (by assumption)

/-- What is ensured in an environment is ensured in every environment whose answers it could
give as well, by induction on the program.
-/
theorem Ensures.within {program : Program Effect Answer Value}
    {narrow : Environment Effect Answer Other} (view : Other → World)
    (answers
      : ∀ other effect answer later,
          narrow other effect answer later
          → environment (view other) effect answer (view later))
    {other : Other} {required : Value → World → Prop}
    (ensures : program.Ensures environment allowed (view other) required)
    : program.Ensures narrow allowed other fun value later => required value (view later) := by
  induction program generalizing other with
  | done value => exact ensures
  | perform effect next ih =>
      exact ⟨ensures.1, fun answer later answered =>
        ih answer (ensures.2 answer _ (answers _ _ _ _ answered))⟩

/-- Two requirements hold together, by induction on the program. -/
theorem Ensures.and {program : Program Effect Answer Value} {one two : Value → World → Prop}
    (first : program.Ensures environment allowed world one)
    (second : program.Ensures environment allowed world two)
    : program.Ensures environment allowed world fun value later =>
        one value later ∧ two value later := by
  induction program generalizing world with
  | done value => exact ⟨first, second⟩
  | perform effect next ih =>
      exact ⟨first.1, fun answer later answered =>
        ih answer (first.2 answer later answered) (second.2 answer later answered)⟩

/-- What every single answer moves forward, a whole program does, by induction on it. -/
theorem ensures_forward [Preorder World] (everything : ∀ effect, allowed effect)
    (forward : ∀ world effect answer later, environment world effect answer later → world ≤ later)
    (program : Program Effect Answer Value)
    : program.Ensures environment allowed world fun _ later => world ≤ later := by
  induction program generalizing world with
  | done value => exact le_refl world
  | perform effect next ih =>
      refine ⟨everything effect, fun answer later answered => ?_⟩
      have moved := forward world effect answer later answered
      exact (ih answer).mono (fun _ => id) fun _ _ further => moved.trans further

-----------------------------------------------------------------------------------------
-- What a program may return
-----------------------------------------------------------------------------------------

/-- With some answers of the environment, the program returns a value. -/
def Returns (environment : Environment Effect Answer World)
    : Program Effect Answer Value → World → Value → World → Prop
  | .done value, world, result, final => value = result ∧ world = final
  | .perform effect next, world, result, final =>
      ∃ answer later,
        environment world effect answer later
        ∧ Returns environment (next answer) later result final

variable {middle final : World}

/-- A program that is done. -/
theorem Returns.done (value : Value)
    : (pure value : Program Effect Answer Value).Returns environment world value world :=
  ⟨rfl, rfl⟩

/-- A single effect returns any answer there may be. -/
theorem Returns.single {effect : Effect} {answer : Answer effect}
    (answered : environment world effect answer final)
    : (single effect).Returns environment world answer final :=
  ⟨answer, final, answered, rfl, rfl⟩

/-- A program goes on with a value its first part may return, by induction on that part. -/
theorem Returns.bind {program : Program Effect Answer Value}
    {second : Value → Program Effect Answer Result} {value : Value} {result : Result}
    (first : program.Returns environment world value middle)
    (rest : (second value).Returns environment middle result final)
    : (program >>= second).Returns environment world result final := by
  induction program generalizing world with
  | done given =>
      obtain ⟨rfl, rfl⟩ := first
      exact rest
  | perform effect next ih =>
      obtain ⟨answer, later, answered, returns⟩ := first
      exact ⟨answer, later, answered, ih answer returns⟩

/-- Performs a program with answers that are computed, as long as there are any. -/
def play (respond : World → (effect : Effect) → Option (Answer effect × World))
    : Program Effect Answer Value → World → Option (Value × World)
  | .done value, world => some (value, world)
  | .perform effect next, world =>
      (respond world effect).bind fun (answer, later) => play respond (next answer) later

/-- What comes out of that is what the program may return where such answers may be given, by
induction on the program.
-/
theorem returns_of_play {respond : World → (effect : Effect) → Option (Answer effect × World)}
    (possible
      : ∀ world effect answer later,
          respond world effect = some (answer, later) → environment world effect answer later)
    {program : Program Effect Answer Value} {value : Value}
    (played : program.play respond world = some (value, final))
    : program.Returns environment world value final := by
  induction program generalizing world with
  | done given =>
      obtain ⟨rfl, rfl⟩ := Prod.mk.inj (Option.some.inj played)
      exact ⟨rfl, rfl⟩
  | perform effect next ih =>
      obtain ⟨⟨answer, later⟩, answered, rest⟩ := Option.bind_eq_some_iff.mp played
      exact ⟨answer, later, possible _ _ _ _ answered, ih answer rest⟩

/-- What a program ensures holds of what it may return, by induction on the program. -/
theorem Ensures.returned {program : Program Effect Answer Value}
    {required : Value → World → Prop} {value : Value}
    (ensures : program.Ensures environment allowed world required)
    (returns : program.Returns environment world value final)
    : required value final := by
  induction program generalizing world with
  | done given =>
      obtain ⟨rfl, rfl⟩ := returns
      exact ensures
  | perform effect next ih =>
      obtain ⟨answer, later, answered, returns⟩ := returns
      exact ih answer (ensures.2 answer later answered) returns

-----------------------------------------------------------------------------------------
-- Environments that answer in one way
-----------------------------------------------------------------------------------------

/-- The environment that answers every effect in one way, if at all, and moves on. -/
def answering (answer : World → (effect : Effect) → Option (Answer effect))
    (move : World → World)
    : Environment Effect Answer World :=
  fun world effect given later => answer world effect = some given ∧ later = move world

/-- An effect that is answered in one way is followed by one continuation. -/
theorem ensures_answered {answer : World → (effect : Effect) → Option (Answer effect)}
    {move : World → World} {effect : Effect} {given : Answer effect}
    (answered : answer world effect = some given)
    {required : Answer effect → World → Prop}
    : (single effect : Program Effect Answer _).Ensures (answering answer move) allowed world
        required
      ↔ allowed effect ∧ required given (move world) := by
  constructor
  · rintro ⟨here, rest⟩
    exact ⟨here, rest given _ ⟨answered, rfl⟩⟩
  · rintro ⟨here, rest⟩
    refine ⟨here, ?_⟩
    rintro other _ ⟨same, rfl⟩
    rw [answered] at same
    cases same
    exact rest

end Program
end ShmFrame.Foundation
