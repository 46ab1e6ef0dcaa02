import Mathlib.Data.List.Basic
import Mathlib.Order.Basic

/-! Events at least a fixed gap apart, and how many of them a window of time can hold. -/

namespace ShmFrame.Foundation

/-- Events, newest first, each at least a gap later than all the earlier ones. -/
def SpreadOut (gap : Nat) (times : List Nat) : Prop :=
  times.Pairwise fun later earlier => earlier + gap ≤ later

/-- The events in a window, both of its ends included. -/
def inWindow (start span : Nat) (times : List Nat) : List Nat :=
  times.filter fun time => start ≤ time ∧ time ≤ start + span

namespace SpreadOut

variable {gap : Nat} {times : List Nat}

/-- An event a gap later than the newest one may follow. -/
theorem cons (spread : SpreadOut gap times) {time : Nat}
    (later : ∀ newest ∈ times.head?, newest + gap ≤ time)
    : SpreadOut gap (time :: times) := by
  refine List.pairwise_cons.mpr ⟨fun earlier member => ?_, spread⟩
  cases times with
  | nil => cases member
  | cons newest rest =>
      have newest_later := later newest rfl
      rcases List.mem_cons.mp member with rfl | old
      · exact newest_later
      · have before := (List.pairwise_cons.mp spread).1 earlier old
        omega

/-- From any start up to the newest event there is a gap for each of the others, by induction
on the events.
-/
theorem reach {newest start : Nat} (spread : SpreadOut gap (newest :: times))
    (inside : ∀ time ∈ newest :: times, start ≤ time)
    : start + times.length * gap ≤ newest := by
  induction times generalizing newest with
  | nil => simpa using inside newest List.mem_cons_self
  | cons earlier rest ih =>
      obtain ⟨before, spread⟩ := List.pairwise_cons.mp spread
      have shorter := ih spread fun time member => inside time (List.mem_cons_of_mem _ member)
      have last := before earlier List.mem_cons_self
      rw [List.length_cons, Nat.succ_mul]
      omega

/-- A window holds at most one event for each gap that fits into it, and one more. -/
theorem inWindow_length (spread : SpreadOut gap times) (positive : 0 < gap) (start span : Nat)
    : (inWindow start span times).length ≤ span / gap + 1 := by
  have kept : SpreadOut gap (inWindow start span times) := List.Pairwise.filter _ spread
  have inside : ∀ time ∈ inWindow start span times, start ≤ time ∧ time ≤ start + span :=
    fun time member => of_decide_eq_true (List.mem_filter.mp member).2
  cases window : inWindow start span times with
  | nil => exact Nat.zero_le _
  | cons newest rest =>
      rw [window] at kept inside
      have reached := kept.reach fun time member => (inside time member).1
      have ends := (inside newest List.mem_cons_self).2
      have gaps : rest.length ≤ span / gap := (Nat.le_div_iff_mul_le positive).mpr (by omega)
      exact Nat.succ_le_succ gaps

end SpreadOut
end ShmFrame.Foundation
