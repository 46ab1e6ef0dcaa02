import Mathlib.Tactic.TypeStar

/-! Runs of a labelled machine with a partial step function.
Concurrent programs become machines by letting an action name the party that moves next,
so a run is one interleaving and a list of actions is a schedule.
-/

namespace ShmFrame.Foundation

/-- A labelled machine. `step state action` is `none` where `action` is not enabled. -/
structure Machine (State Action : Type*) where
  step : State → Action → Option State

namespace Machine

variable {State Action : Type*}

/-- Performs the actions in order; `none` once one of them is not enabled. -/
def run (machine : Machine State Action) : State → List Action → Option State
  | state, [] => some state
  | state, action :: rest =>
      (machine.step state action).bind fun next => run machine next rest

/-- Every action of the schedule is taken in a state where `guard` allows it. -/
def Meets (machine : Machine State Action) (guard : State → Action → Prop)
    : State → List Action → Prop
  | _, [] => True
  | state, action :: rest =>
      guard state action
      ∧ ∀ next, machine.step state action = some next → Meets machine guard next rest

/-- `property` holds in every state the schedule passes through, both ends included. -/
def Along (machine : Machine State Action) (property : State → Prop)
    : State → List Action → Prop
  | state, [] => property state
  | state, action :: rest =>
      property state
      ∧ ∀ next, machine.step state action = some next → Along machine property next rest

variable {machine : Machine State Action}

/-- A property that holds along a schedule holds where it starts. -/
theorem Along.start {property : State → Prop} {state : State} {schedule : List Action}
    (along : machine.Along property state schedule)
    : property state := by
  cases schedule with
  | nil => exact along
  | cons action rest => exact along.1

/-- The empty schedule stays where it is. -/
@[simp] theorem run_nil (state : State) : machine.run state [] = some state := rfl

/-- A nonempty schedule takes its first action and continues from there. -/
theorem run_cons_eq_some {state final : State} {action : Action} {rest : List Action}
    : machine.run state (action :: rest) = some final
      ↔ ∃ next, machine.step state action = some next
          ∧ machine.run next rest = some final := by
  simp [run, Option.bind_eq_some_iff]

/-- A schedule whose end passes a test reaches some state that passes it. -/
theorem reaches_of_any {start : State} {schedule : List Action} {test : State → Bool}
    (passes : (machine.run start schedule).any test = true)
    : ∃ final, machine.run start schedule = some final ∧ test final = true := by
  rwa [Option.any_eq_true] at passes

/-- A concatenated schedule runs its parts one after the other, by schedule induction. -/
theorem run_append (state : State) (first second : List Action)
    : machine.run state (first ++ second)
      = (machine.run state first).bind fun middle => machine.run middle second := by
  induction first generalizing state with
  | nil => rfl
  | cons action rest ih =>
      simp only [List.cons_append, run, Option.bind_assoc]
      exact Option.bind_congr fun next _ => ih next

/-- A run of a concatenated schedule passes through a middle state. -/
theorem run_append_eq_some {state final : State} {first second : List Action}
    : machine.run state (first ++ second) = some final
      ↔ ∃ middle, machine.run state first = some middle
          ∧ machine.run middle second = some final := by
  rw [run_append, Option.bind_eq_some_iff]

/-- A guard met by a concatenation is met by both parts, by schedule induction. -/
theorem meets_append {guard : State → Action → Prop} {state middle : State}
    {first second : List Action}
    (reached : machine.run state first = some middle)
    : machine.Meets guard state (first ++ second)
      ↔ machine.Meets guard state first ∧ machine.Meets guard middle second := by
  induction first generalizing state with
  | nil =>
      cases reached
      simp [Meets]
  | cons action rest ih =>
      obtain ⟨next, stepped, onward⟩ := run_cons_eq_some.mp reached
      simp only [List.cons_append, Meets, stepped, Option.some.injEq, forall_eq',
        ih onward, and_assoc]

/-- Whether a schedule meets a decidable guard can be computed by performing it. -/
instance Meets.decidable {guard : State → Action → Prop}
    [∀ state action, Decidable (guard state action)]
    : (state : State) → (schedule : List Action)
      → Decidable (machine.Meets guard state schedule)
  | _, [] => isTrue trivial
  | state, action :: rest =>
      match stepped : machine.step state action with
      | none => decidable_of_iff (guard state action) (by simp [Meets, stepped])
      | some next =>
          have : Decidable (machine.Meets guard next rest) := Meets.decidable next rest
          decidable_of_iff (guard state action ∧ machine.Meets guard next rest)
            (by simp [Meets, stepped])

/-- Whether a decidable property holds along a schedule can be computed by performing it. -/
instance Along.decidable {property : State → Prop} [DecidablePred property]
    : (state : State) → (schedule : List Action)
      → Decidable (machine.Along property state schedule)
  | state, [] => inferInstanceAs (Decidable (property state))
  | state, action :: rest =>
      match stepped : machine.step state action with
      | none => decidable_of_iff (property state) (by simp [Along, stepped])
      | some next =>
          have : Decidable (machine.Along property next rest) := Along.decidable next rest
          decidable_of_iff (property state ∧ machine.Along property next rest)
            (by simp [Along, stepped])

/-- What holds along a schedule holds after each of its steps, by schedule induction. -/
theorem Along.meets {property : State → Prop} {state : State} {schedule : List Action}
    (along : machine.Along property state schedule)
    : machine.Meets (fun state action => ∀ next, machine.step state action = some next
        → property next) state schedule := by
  induction schedule generalizing state with
  | nil => trivial
  | cons action rest ih =>
      exact ⟨fun next stepped => (along.2 next stepped).start,
        fun next stepped => ih (along.2 next stepped)⟩

/-- A guard on actions alone is met when every listed action passes it. -/
theorem meets_of_forall {guard : State → Action → Prop} {allowed : Action → Prop}
    (implies : ∀ state action, allowed action → guard state action)
    {state : State} {schedule : List Action}
    (all : ∀ action ∈ schedule, allowed action)
    : machine.Meets guard state schedule := by
  induction schedule generalizing state with
  | nil => trivial
  | cons action rest ih =>
      exact ⟨implies _ _ (all action (by simp)),
        fun next _ => ih fun later member => all later (by simp [member])⟩

/-- Two guards met separately are met together, by schedule induction. -/
theorem Meets.and {left right : State → Action → Prop}
    {state : State} {schedule : List Action}
    (first : machine.Meets left state schedule)
    (second : machine.Meets right state schedule)
    : machine.Meets (fun state action => left state action ∧ right state action)
        state schedule := by
  induction schedule generalizing state with
  | nil => trivial
  | cons action rest ih =>
      exact ⟨⟨first.1, second.1⟩,
        fun next stepped => ih (first.2 next stepped) (second.2 next stepped)⟩

/-- Invariant rule: what every guarded step preserves holds at the end of every run whose
steps meet the guard.
-/
theorem invariant_of_run (guard : State → Action → Prop) (invariant : State → Prop)
    (preserved
      : ∀ state action next,
          invariant state
          → guard state action
          → machine.step state action = some next
          → invariant next)
    {start final : State} {schedule : List Action}
    (initially : invariant start)
    (met : machine.Meets guard start schedule)
    (reached : machine.run start schedule = some final)
    : invariant final := by
  induction schedule generalizing start with
  | nil => exact Option.some.inj reached ▸ initially
  | cons action rest ih =>
      obtain ⟨next, stepped, onward⟩ := run_cons_eq_some.mp reached
      exact ih (preserved _ _ _ initially met.1 stepped) (met.2 next stepped) onward

/-- Invariant rule without a guard: what every step preserves holds at the end of every run. -/
theorem invariant_of_reached (invariant : State → Prop)
    (preserved
      : ∀ state action next,
          invariant state → machine.step state action = some next → invariant next)
    {start final : State} {schedule : List Action}
    (initially : invariant start)
    (reached : machine.run start schedule = some final)
    : invariant final :=
  invariant_of_run (fun _ _ => True) invariant
    (fun state action next holds _ stepped => preserved state action next holds stepped)
    initially (meets_of_forall (fun _ _ _ => True.intro) fun _ _ => True.intro) reached

/-- Exactness rule, for runs whose steps are all granted: where, from every state of an
invariant, a step keeps the property if and only if it meets the guard, the property holds
along a schedule if and only if all of its steps meet the guard. By schedule induction.
-/
theorem along_iff_meets_granted (granted guard : State → Action → Prop)
    (invariant property : State → Prop)
    (preserved
      : ∀ state action next,
          invariant state
          → granted state action
          → machine.step state action = some next
          → invariant next)
    (exact_
      : ∀ state action next,
          invariant state
          → property state
          → machine.step state action = some next
          → (property next ↔ guard state action))
    (blocked
      : ∀ state action,
          invariant state → machine.step state action = none → guard state action)
    {start : State} {schedule : List Action}
    (initially : invariant start) (holds : property start)
    (given : machine.Meets granted start schedule)
    : machine.Along property start schedule ↔ machine.Meets guard start schedule := by
  induction schedule generalizing start with
  | nil => exact ⟨fun _ => trivial, fun _ => holds⟩
  | cons action rest ih =>
      cases stepped : machine.step start action with
      | none =>
          have free := blocked start action initially stepped
          simp [Along, Meets, stepped, holds, free]
      | some next =>
          have same := exact_ start action next initially holds stepped
          have later (kept : property next) :=
            @ih next (preserved start action next initially given.1 stepped) kept
              (given.2 next stepped)
          simp only [Along, Meets, stepped, Option.some.injEq, forall_eq', holds, true_and]
          constructor
          · intro along
            have kept : property next := along.start
            exact ⟨same.mp kept, (later kept).mp along⟩
          · rintro ⟨allowed, met⟩
            exact (later (same.mpr allowed)).mpr met

/-- Exactness rule: the same for all runs. -/
theorem along_iff_meets (guard : State → Action → Prop) (invariant property : State → Prop)
    (preserved
      : ∀ state action next,
          invariant state → machine.step state action = some next → invariant next)
    (exact_
      : ∀ state action next,
          invariant state
          → property state
          → machine.step state action = some next
          → (property next ↔ guard state action))
    (blocked
      : ∀ state action,
          invariant state → machine.step state action = none → guard state action)
    {start : State} {schedule : List Action}
    (initially : invariant start) (holds : property start)
    : machine.Along property start schedule ↔ machine.Meets guard start schedule :=
  along_iff_meets_granted (fun _ _ => True) guard invariant property
    (fun state action next known _ stepped => preserved state action next known stepped)
    exact_ blocked initially holds
    (meets_of_forall (fun _ _ _ => True.intro) fun _ _ => True.intro)

/-- Progress rule: a reflexive and transitive relation that contains every guarded step
relates the two ends of every run whose steps meet the guard.
-/
theorem relation_of_run (guard : State → Action → Prop) (relation : State → State → Prop)
    (reflexive : ∀ state, relation state state)
    (transitive
      : ∀ first second third,
          relation first second → relation second third → relation first third)
    (contained
      : ∀ state action next,
          guard state action
          → machine.step state action = some next
          → relation state next)
    {start final : State} {schedule : List Action}
    (met : machine.Meets guard start schedule)
    (reached : machine.run start schedule = some final)
    : relation start final := by
  induction schedule generalizing start with
  | nil => exact Option.some.inj reached ▸ reflexive start
  | cons action rest ih =>
      obtain ⟨next, stepped, onward⟩ := run_cons_eq_some.mp reached
      exact transitive _ _ _ (contained _ _ _ met.1 stepped)
        (ih (met.2 next stepped) onward)

end Machine
end ShmFrame.Foundation
