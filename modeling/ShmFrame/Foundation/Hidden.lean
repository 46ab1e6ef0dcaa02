import Mathlib.Data.List.Basic
import ShmFrame.Foundation.Run

/-! Actions that an observer does not notice. Where they leave every state as it looks, and
visible actions only depend on how a state looks, two runs with the same visible actions end
in states that look the same, whatever else happens in them.
-/

namespace ShmFrame.Foundation.Machine

variable {State Action : Type*} {machine : Machine State Action}

/-- What makes the visible actions independent of the hidden ones: an invariant of all steps,
and a notion of states that look the same.
-/
structure Independent (machine : Machine State Action) (visible : Action → Bool)
    (invariant : State → Prop) (alike : State → State → Prop)
    : Prop where
  equivalence : Equivalence alike
  preserved
    : ∀ state action next,
        invariant state → machine.step state action = some next → invariant next
  hidden
    : ∀ state action next,
        invariant state
        → visible action = false
        → machine.step state action = some next
        → alike state next
  shown
    : ∀ left right action leftNext rightNext,
        invariant left
        → alike left right
        → visible action = true
        → machine.step left action = some leftNext
        → machine.step right action = some rightNext
        → alike leftNext rightNext

variable {visible : Action → Bool} {invariant : State → Prop} {alike : State → State → Prop}

/-- Hidden actions lead to a state that looks the same, by schedule induction. -/
theorem Independent.run_hidden (independent : machine.Independent visible invariant alike)
    {state final : State} {schedule : List Action}
    (unseen : ∀ action ∈ schedule, visible action = false)
    (initially : invariant state) (reached : machine.run state schedule = some final)
    : invariant final ∧ alike state final := by
  induction schedule generalizing state with
  | nil =>
      obtain rfl := Option.some.inj reached
      exact ⟨initially, independent.equivalence.refl state⟩
  | cons action rest ih =>
      obtain ⟨next, stepped, onward⟩ := run_cons_eq_some.mp reached
      have here := independent.hidden state action next initially (unseen action (by simp)) stepped
      have kept := independent.preserved state action next initially stepped
      obtain ⟨last, later⟩ := ih (fun other member => unseen other (by simp [member])) kept onward
      exact ⟨last, independent.equivalence.trans here later⟩

/-- Two runs with the same visible actions end alike, by induction on the first schedule: a
hidden action is skipped, a visible one is found in the second schedule after hidden ones.
-/
theorem Independent.run_alike (independent : machine.Independent visible invariant alike)
    {left right leftFinal rightFinal : State} {first second : List Action}
    (same : first.filter visible = second.filter visible)
    (leftInv : invariant left) (rightInv : invariant right) (start : alike left right)
    (leftRun : machine.run left first = some leftFinal)
    (rightRun : machine.run right second = some rightFinal)
    : alike leftFinal rightFinal := by
  have relation := independent.equivalence
  induction first generalizing left right second with
  | nil =>
      obtain rfl := Option.some.inj leftRun
      have unseen : ∀ action ∈ second, visible action = false := by
        intro action member
        have absent := List.filter_eq_nil_iff.mp same.symm action member
        simpa using absent
      exact relation.trans start (independent.run_hidden unseen rightInv rightRun).2
  | cons action rest ih =>
      obtain ⟨next, stepped, onward⟩ := run_cons_eq_some.mp leftRun
      have kept := independent.preserved left action next leftInv stepped
      cases shown : visible action with
      | false =>
          rw [List.filter_cons_of_neg (by simp [shown])] at same
          have here := independent.hidden left action next leftInv shown stepped
          exact ih same kept rightInv (relation.trans (relation.symm here) start) onward rightRun
      | true =>
          rw [List.filter_cons_of_pos shown] at same
          obtain ⟨skipped, later, rfl, unseen, -, tail⟩ := List.filter_eq_cons_iff.mp same.symm
          obtain ⟨middle, before, after⟩ := run_append_eq_some.mp rightRun
          obtain ⟨other, otherStep, otherRun⟩ := run_cons_eq_some.mp after
          obtain ⟨middleInv, middleAlike⟩ :=
            independent.run_hidden (fun action member => by simpa using unseen action member)
              rightInv before
          have both :=
            independent.shown left middle action next other leftInv
              (relation.trans start middleAlike) shown stepped otherStep
          have otherInv := independent.preserved middle action other middleInv otherStep
          exact ih tail.symm kept otherInv both onward otherRun

end ShmFrame.Foundation.Machine
