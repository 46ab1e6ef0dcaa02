import ShmFrame.Foundation.Run

/-! Traces of labelled transitions, and their inclusion: what a lower level can do is what a
higher level can do, step by step.
-/

namespace ShmFrame.Foundation

variable {State Low High Label Action : Type}

/-- The labels of some transitions, one after the other. -/
inductive Traces (step : State → Label → State → Prop) : State → List Label → State → Prop
  | nil (state : State) : Traces step state [] state
  | cons {state next final label labels} (first : step state label next)
    (rest : Traces step next labels final)
    : Traces step state (label :: labels) final

/-- What a computed transition makes, one label after the other, is a trace. -/
theorem Traces.of_foldlM {step : State → Label → State → Prop}
    {perform : State → Label → Option State}
    (possible
      : ∀ {state label next}, perform state label = some next → step state label next)
    {labels : List Label} {state final : State}
    (performed : labels.foldlM perform state = some final)
    : Traces step state labels final := by
  induction labels generalizing state with
  | nil =>
      cases performed
      exact .nil _
  | cons label labels ih =>
      rw [List.foldlM_cons] at performed
      obtain ⟨next, first, rest⟩ := Option.bind_eq_some_iff.mp performed
      exact .cons (possible first) (ih rest)

/-- A transition of the lower level between related states is one of the higher level, if its
label is among those considered.
-/
def Simulates (low : Low → Label → Low → Prop) (high : High → Label → High → Prop)
    (considered : Label → Prop) (related : Low → High → Prop)
    : Prop :=
  ∀ {state next label other},
    related state other → considered label → low state label next
    → ∃ after, high other label after ∧ related next after

/-- Every trace of the lower level is one of the higher level, by induction on the trace. -/
theorem Simulates.traces {low : Low → Label → Low → Prop} {high : High → Label → High → Prop}
    {considered : Label → Prop} {related : Low → High → Prop}
    (simulates : Simulates low high considered related) {state final : Low} {other : High}
    {labels : List Label} (relate : related state other)
    (all : ∀ label ∈ labels, considered label) (trace : Traces low state labels final)
    : ∃ after, Traces high other labels after ∧ related final after := by
  induction trace generalizing other with
  | nil state => exact ⟨other, .nil other, relate⟩
  | cons first _ ih =>
      obtain ⟨middle, stepped, relate⟩ := simulates relate (all _ List.mem_cons_self) first
      obtain ⟨after, trace, relate⟩ :=
        ih relate fun label member => all label (List.mem_cons_of_mem _ member)
      exact ⟨after, .cons stepped trace, relate⟩

/-- If a machine can make every transition from the states that satisfy an invariant by some
of its steps, it can make whole traces, by induction on the trace.
-/
theorem Traces.run {step : State → Label → State → Prop} {machine : Machine State Action}
    {considered : Label → Prop} {invariant : State → Prop}
    (keeps
      : ∀ {state label next},
          step state label next → considered label → invariant state → invariant next)
    (made
      : ∀ {state label next},
          step state label next → considered label → invariant state
          → ∃ schedule, machine.run state schedule = some next)
    {state final : State} {labels : List Label} (trace : Traces step state labels final)
    (all : ∀ label ∈ labels, considered label) (start : invariant state)
    : ∃ schedule, machine.run state schedule = some final := by
  induction trace with
  | nil state => exact ⟨[], rfl⟩
  | cons first _ ih =>
      have here := all _ List.mem_cons_self
      obtain ⟨before, reached⟩ := made first here start
      obtain ⟨rest, onward⟩ :=
        ih (fun label member => all label (List.mem_cons_of_mem _ member)) (keeps first here start)
      exact ⟨before ++ rest, Machine.run_append_eq_some.mpr ⟨_, reached, onward⟩⟩

end ShmFrame.Foundation
