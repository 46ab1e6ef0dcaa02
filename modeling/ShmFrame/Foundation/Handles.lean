import Mathlib.Data.Finset.Erase
import Mathlib.Data.Finset.Insert
import ShmFrame.Foundation.Party

/-! Objects under one name that exist as long as somebody holds a handle to them. The name
cannot be taken away from an object; it is free again once the last handle is closed.
-/

namespace ShmFrame.Foundation

/-- What the name stands for, how many objects there have been, and all open handles, each with
the object it refers to.
-/
structure Handles (Owner : Type) where
  bound : Option Nat := none
  count : Nat := 0
  opened : Finset (Owner × Nat) := ∅

namespace Handles

variable {Owner : Type}

/-- The table is right about who holds what, and all of it is the one object of the name. -/
structure Tracks (t : Handles Owner) (held : Owner → Option Nat) : Prop where
  opened : ∀ owner object, (owner, object) ∈ t.opened ↔ held owner = some object
  one : ∀ owner object, held owner = some object → t.bound = some object
  present : ∀ object, t.bound = some object → ∃ owner, held owner = some object
  old : ∀ object, t.bound = some object → object < t.count

variable {t : Handles Owner} {held : Owner → Option Nat} {owner : Owner} {object : Nat}

/-- Whoever holds anything holds the same. -/
theorem Tracks.same (tracks : t.Tracks held) {other : Owner} {second : Nat}
    (here : held owner = some object) (there : held other = some second)
    : second = object :=
  Option.some.inj ((tracks.one other second there).symm.trans (tracks.one owner object here))

variable [DecidableEq Owner]

/-- A handle to the object there is, if there is one. -/
def share (t : Handles Owner) (owner : Owner) : Handles Owner :=
  match t.bound with
  | none => t
  | some object => { t with opened := insert (owner, object) t.opened }

/-- A handle to a new object if the name is free, and to the one there is otherwise. -/
def create (t : Handles Owner) (owner : Owner) : Handles Owner :=
  match t.bound with
  | none => {
      bound := some t.count
      count := t.count + 1
      opened := insert (owner, t.count) t.opened
    }
  | some _ => t.share owner

/-- The object goes with its last handle. -/
def close (t : Handles Owner) (owner : Owner) (object : Nat) : Handles Owner :=
  let opened := t.opened.erase (owner, object)
  { t with opened, bound := t.bound.filter fun bound => ∃ handle ∈ opened, handle.2 = bound }

/-- Closes a handle if it is open. -/
def closeAny (t : Handles Owner) (owner : Owner) : Option Nat → Handles Owner
  | none => t
  | some object => t.close owner object

/-- A handle that changes hands. -/
def handOver (t : Handles Owner) (giver taker : Owner) (object : Nat) : Handles Owner :=
  { t with opened := insert (taker, object) (t.opened.erase (giver, object)) }

/-- What is replaced by itself stays. -/
theorem assign_unchanged {held : Owner → Option Nat} {value : Option Nat}
    (same : held owner = value)
    : assign held owner value = held := by
  funext other
  unfold assign
  split
  · rename_i here
    rw [here, same]
  · rfl

/-- The handle that is opened when the name stands for an object. -/
theorem Tracks.share (tracks : t.Tracks held) (free : held owner = none)
    (bound : t.bound = some object)
    : (t.share owner).Tracks (assign held owner (some object)) := by
  have shared : t.share owner = { t with opened := insert (owner, object) t.opened } := by
    rw [Handles.share, bound]
  rw [shared]
  refine ⟨fun other second => ?_, fun other second holds => ?_, fun second found => ?_,
    tracks.old⟩
  · by_cases same : other = owner
    · subst same
      simp [tracks.opened, free, eq_comm]
    · simp [assign_apart _ _ same, tracks.opened, same]
  · by_cases same : other = owner
    · subst same
      rw [assign_same] at holds
      exact bound.trans holds
    · rw [assign_apart _ _ same] at holds
      exact tracks.one other second holds
  · refine ⟨owner, ?_⟩
    rw [assign_same]
    exact bound.symm.trans found

/-- The new object, when the name is free. -/
theorem Tracks.create (tracks : t.Tracks held) (free : t.bound = none)
    : (t.create owner).Tracks (assign held owner (some t.count)) := by
  have nobody (other : Owner) : held other = none := by
    cases holds : held other with
    | none => rfl
    | some second => exact absurd (tracks.one other second holds) (by simp [free])
  have created : t.create owner = {
      bound := some t.count
      count := t.count + 1
      opened := insert (owner, t.count) t.opened
    } := by
    rw [Handles.create, free]
  rw [created]
  refine ⟨fun other second => ?_, fun other second holds => ?_, fun second found => ?_,
    fun second found => ?_⟩
  · by_cases same : other = owner
    · subst same
      simp [tracks.opened, nobody, eq_comm]
    · simp [assign_apart _ _ same, tracks.opened, same]
  · by_cases same : other = owner
    · subst same
      rwa [assign_same] at holds
    · rw [assign_apart _ _ same, nobody other] at holds
      cases holds
  · refine ⟨owner, ?_⟩
    rw [assign_same]
    exact found
  · obtain rfl := Option.some.inj found
    exact Nat.lt_succ_self _

/-- What a close leaves: the name stands for the same object, or nobody holds anything. -/
theorem Tracks.close (tracks : t.Tracks held) (holds : held owner = some object)
    : (t.close owner object).Tracks (assign held owner none) := by
  have opened (other : Owner) (second : Nat)
      : (other, second) ∈ (t.close owner object).opened
        ↔ assign held owner none other = some second := by
    by_cases same : other = owner
    · subst same
      simp only [Handles.close, Finset.mem_erase, tracks.opened, assign_same, holds]
      simp only [ne_eq, Prod.mk.injEq, true_and, Option.some.injEq, reduceCtorEq, iff_false,
        not_and]
      exact fun apart same => apart same.symm
    · simp [Handles.close, assign_apart _ _ same, tracks.opened, same]
  have kept {second : Nat} (found : (t.close owner object).bound = some second)
      : t.bound = some second ∧ ∃ handle ∈ (t.close owner object).opened, handle.2 = second := by
    have filtered := Option.filter_eq_some_iff.mp found
    exact ⟨filtered.1, of_decide_eq_true filtered.2⟩
  refine ⟨opened, fun other second still => ?_, fun second found => ?_, fun second found =>
    tracks.old second (kept found).1⟩
  · have before : held other = some second := by
      by_cases same : other = owner
      · subst same
        rw [assign_same] at still
        cases still
      · rwa [assign_apart _ _ same] at still
    refine Option.filter_eq_some_iff.mpr ⟨tracks.one other second before, ?_⟩
    exact decide_eq_true ⟨(other, second), (opened other second).mpr still, rfl⟩
  · obtain ⟨-, ⟨other, third⟩, member, rfl⟩ := kept found
    exact ⟨other, (opened other third).mp member⟩

/-- Closing what there is to close. -/
theorem Tracks.closeAny (tracks : t.Tracks held) (owner : Owner)
    : (t.closeAny owner (held owner)).Tracks (assign held owner none) := by
  cases holds : held owner with
  | none =>
      rw [assign_unchanged holds]
      exact tracks
  | some object => exact tracks.close holds

/-- A handle that changes hands still refers to the same object. -/
theorem Tracks.handOver (tracks : t.Tracks held) {taker : Owner} (holds : held owner = some object)
    (free : held taker = none)
    : (t.handOver owner taker object).Tracks
        (assign (assign held owner none) taker (some object)) := by
  have apart : owner ≠ taker := by
    rintro rfl
    rw [holds] at free
    cases free
  refine ⟨fun other second => ?_, fun other second still => ?_, fun second found => ?_,
    tracks.old⟩
  · by_cases same : other = taker
    · subst same
      simp [Handles.handOver, tracks.opened, free, eq_comm]
    · by_cases given : other = owner
      · subst given
        simp only [Handles.handOver, Finset.mem_insert, Finset.mem_erase, tracks.opened, holds,
          assign_apart _ _ same, assign_same]
        simp only [ne_eq, Prod.mk.injEq, same, true_and, false_and, Option.some.injEq, false_or,
          reduceCtorEq, iff_false, not_and]
        exact fun differ equal => differ equal.symm
      · simp [Handles.handOver, assign_apart _ _ same, assign_apart _ _ given, tracks.opened,
          same, given]
  · refine tracks.one owner second ?_
    by_cases same : other = taker
    · subst same
      rw [assign_same] at still
      exact holds.trans still
    · by_cases given : other = owner
      · subst given
        rw [assign_apart _ _ same, assign_same] at still
        cases still
      · rw [assign_apart _ _ same, assign_apart _ _ given] at still
        exact holds.trans (congrArg some (tracks.same holds still).symm)
  · refine ⟨taker, ?_⟩
    rw [assign_same]
    exact (tracks.one owner object holds).symm.trans found

end Handles
end ShmFrame.Foundation
