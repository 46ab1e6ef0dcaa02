import ShmFrame.Foundation.Effects

/-! Programs that follow a computation on some state: whatever the environment answers, a
program returns only what the computation returns as well, for one of the choices that the
computation leaves open.
-/

namespace ShmFrame.Foundation.Program

variable {Effect : Type} {Answer : Effect → Type} {World State : Type}
  {Value Next Returned Last Choice First Second : Type}

/-- Whatever the program returns agrees with what the computation returns for some choice. -/
def Follows (environment : Environment Effect Answer World)
    (program : Program Effect Answer Value) (world : World)
    (computation : Choice → StateM State Returned) (state : State)
    (agree : Value → World → Returned → State → Prop)
    : Prop :=
  program.Ensures environment (fun _ => True) world fun value later =>
    ∃ choice,
      agree value later ((computation choice).run state).1 ((computation choice).run state).2

variable {environment : Environment Effect Answer World}
  {program : Program Effect Answer Value} {second : Value → Program Effect Answer Next}
  {world : World} {computation : Choice → StateM State Returned} {state : State}

/-- What is returned agrees. -/
theorem Follows.returned {agree : Value → World → Returned → State → Prop} {value : Value}
    {final : World}
    (follows : program.Follows environment world computation state agree)
    (returns : program.Returns environment world value final)
    : ∃ choice,
        agree value final ((computation choice).run state).1
          ((computation choice).run state).2 :=
  Ensures.returned follows returns

/-- Both are done. -/
theorem Follows.pure {agree : Value → World → Returned → State → Prop} {value : Value}
    (choice : Choice)
    (agrees
      : agree value world ((computation choice).run state).1
          ((computation choice).run state).2)
    : (Pure.pure value : Program Effect Answer Value).Follows environment world computation state
        agree :=
  ⟨choice, agrees⟩

/-- They agree on less. -/
theorem Follows.mono {strong weak : Value → World → Returned → State → Prop}
    (follows : program.Follows environment world computation state strong)
    (implies : ∀ value later returned next,
      strong value later returned next → weak value later returned next)
    : program.Follows environment world computation state weak :=
  Ensures.mono follows (fun _ => id) fun value later ⟨choice, agrees⟩ =>
    ⟨choice, implies value later _ _ agrees⟩

/-- The same choices under other names. -/
theorem Follows.rename {agree : Value → World → Returned → State → Prop}
    {other : Second → StateM State Returned} (name : Choice → Second)
    (same : ∀ choice, (other (name choice)).run state = (computation choice).run state)
    (follows : program.Follows environment world computation state agree)
    : program.Follows environment world other state agree :=
  Ensures.mono follows (fun _ => id) fun _ _ ⟨choice, agrees⟩ =>
    ⟨name choice, by rwa [same choice]⟩

/-- One after the other: choices for both parts make up a choice for the whole. -/
theorem Follows.bindChoices {first : First → StateM State Returned}
    {rest : Second → Returned → StateM State Last} {whole : Choice → StateM State Last}
    {middle : Value → World → Returned → State → Prop} {agree : Next → World → Last → State → Prop}
    (pair : First → Second → Choice)
    (same : ∀ left right, whole (pair left right) = first left >>= rest right)
    (one : program.Follows environment world first state middle)
    (two
      : ∀ value later left,
          middle value later ((first left).run state).1 ((first left).run state).2
          → (second value).Follows environment later
              (fun right => rest right ((first left).run state).1) ((first left).run state).2 agree)
    : (program >>= second).Follows environment world whole state agree := by
  refine Ensures.bind one fun value later happened => ?_
  obtain ⟨left, agrees⟩ := happened
  refine Ensures.mono (two value later left agrees) (fun _ => id) fun result final reached => ?_
  obtain ⟨right, ends⟩ := reached
  refine ⟨pair left right, ?_⟩
  rw [same left right]
  exact ends

/-- One after the other, where only the second part leaves a choice. -/
theorem Follows.bind {first : StateM State Returned} {rest : Choice → Returned → StateM State Last}
    {middle : Value → World → Returned → State → Prop} {agree : Next → World → Last → State → Prop}
    (one : program.Follows environment world (fun _ : Unit => first) state middle)
    (two
      : ∀ value later,
          middle value later (first.run state).1 (first.run state).2
          → (second value).Follows environment later (fun choice => rest choice (first.run state).1)
              (first.run state).2 agree)
    : (program >>= second).Follows environment world (fun choice => first >>= rest choice) state
        agree :=
  Follows.bindChoices (fun _ choice => choice) (fun _ _ => rfl) one fun value later _ agrees =>
    two value later agrees

/-- One after the other, where only the first part leaves a choice. -/
theorem Follows.bindFirst {first : Choice → StateM State Returned}
    {rest : Returned → StateM State Last}
    {middle : Value → World → Returned → State → Prop} {agree : Next → World → Last → State → Prop}
    (one : program.Follows environment world first state middle)
    (two
      : ∀ value later choice,
          middle value later ((first choice).run state).1 ((first choice).run state).2
          → (second value).Follows environment later
              (fun _ : Unit => rest ((first choice).run state).1) ((first choice).run state).2
              agree)
    : (program >>= second).Follows environment world (fun choice => first choice >>= rest) state
        agree :=
  Follows.bindChoices (fun choice _ => choice) (fun _ _ => rfl) one two

/-- The program is done after something that the computation ends with. -/
theorem Follows.finish {middle : Value → World → Returned → State → Prop}
    {agree : Next → World → Returned → State → Prop}
    (follows : program.Follows environment world computation state middle)
    (ends
      : ∀ value later returned next,
          middle value later returned next
          → ∃ result, second value = Pure.pure result ∧ agree result later returned next)
    : (program >>= second).Follows environment world computation state agree := by
  refine Ensures.bind follows fun value later ⟨choice, agrees⟩ => ?_
  obtain ⟨result, done, settled⟩ := ends value later _ _ agrees
  rw [done]
  exact ⟨choice, settled⟩

/-- The program does something that the computation does not see. -/
theorem Follows.left {agree : Next → World → Returned → State → Prop}
    {middle : Value → World → Prop}
    (ensures : program.Ensures environment (fun _ => True) world middle)
    (rest
      : ∀ value later,
          middle value later → (second value).Follows environment later computation state agree)
    : (program >>= second).Follows environment world computation state agree :=
  Ensures.bind ensures rest

/-- The computation does something that the program does not see. -/
theorem Follows.right {first : StateM State Returned}
    {rest : Choice → Returned → StateM State Last} {agree : Value → World → Last → State → Prop}
    (follows
      : program.Follows environment world (fun choice => rest choice (first.run state).1)
          (first.run state).2 agree)
    : program.Follows environment world (fun choice => first >>= rest choice) state agree :=
  follows

/-- Only the program decides. -/
theorem Follows.iteLeft {condition : Prop} [Decidable condition]
    {yes no : Program Effect Answer Value} {agree : Value → World → Returned → State → Prop}
    (ifTrue : condition → yes.Follows environment world computation state agree)
    (ifFalse : ¬ condition → no.Follows environment world computation state agree)
    : (if condition then yes else no).Follows environment world computation state agree :=
  Ensures.ite ifTrue ifFalse

/-- Only the computation decides. -/
theorem Follows.iteRight {condition : Prop} [Decidable condition]
    {whenTrue whenFalse : Choice → StateM State Returned}
    {agree : Value → World → Returned → State → Prop}
    (ifTrue : condition → program.Follows environment world whenTrue state agree)
    (ifFalse : ¬ condition → program.Follows environment world whenFalse state agree)
    : program.Follows environment world
        (fun choice => if condition then whenTrue choice else whenFalse choice) state agree := by
  by_cases decided : condition
  · simp only [if_pos decided]
    exact ifTrue decided
  · simp only [if_neg decided]
    exact ifFalse decided

/-- Both decide in the same way. -/
theorem Follows.ite {left right : Prop} [Decidable left] [Decidable right] (same : left ↔ right)
    {yes no : Program Effect Answer Value} {whenTrue whenFalse : Choice → StateM State Returned}
    {agree : Value → World → Returned → State → Prop}
    (ifTrue : left → right → yes.Follows environment world whenTrue state agree)
    (ifFalse : ¬ left → ¬ right → no.Follows environment world whenFalse state agree)
    : (if left then yes else no).Follows environment world
        (fun choice => if right then whenTrue choice else whenFalse choice) state agree := by
  refine Follows.iteLeft (fun decided => ?_) fun decided => ?_
  · exact Follows.iteRight (ifTrue decided) fun never => absurd (same.mp decided) never
  · exact Follows.iteRight (fun never => absurd (same.mpr never) decided) (ifFalse decided)

end ShmFrame.Foundation.Program
