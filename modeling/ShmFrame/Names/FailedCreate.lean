import ShmFrame.Names.SystemCalls

/-! What a failing `create` does to the names. The destructor of an object that could not be
sized or mapped closes it and leaves its name; and an object that cannot be opened is removed
without having been judged.
-/

namespace ShmFrame.Names

open ShmFrame.Foundation

/-- Every name is bound as before, but for one that was bound to an abandoned object and is
now unbound.
-/
def KeepsNames (cfg : LLConfig) (now : UInt64) (before after : NameTable) : Prop :=
  ∀ name,
    after.bound name = before.bound name
    ∨ after.bound name = none
      ∧ ∃ object ∈ before.bound name, abandoned cfg now (before.objects object) = true

/-- The condition on the name and on the answers of the system: an attempt that gets an
object also gets it sized and mapped, and an object that could not be opened is not removed
in vain unless it is abandoned.
-/
def SystemSound (t : NameTable) (cfg : LLConfig) (call : CreateCall) : Prop :=
  let bytes := (computeLayout cfg).totalSize
  let dead object := abandoned cfg call.judged (t.objects object)
  cfg.accepted = false
  ∨ call.first.refuses = true
  ∨ (t.bound cfg.name = none → call.first.completes bytes = true)
    ∧ ∀ object ∈ t.bound cfg.name,
        (call.opens = true ∧ dead object = false)
        ∨ call.removes = false
        ∨ (call.second.refuses = true → dead object = true)
          ∧ (call.second.refuses = false → call.second.completes bytes = true)

instance (t : NameTable) (cfg : LLConfig) (call : CreateCall)
    : Decidable (SystemSound t cfg call) :=
  inferInstanceAs (Decidable (_ ∨ _ ∨ _ ∧ ∀ object ∈ _, _))

section Outcomes

variable {t next : NameTable} {cfg : LLConfig} {call : CreateCall} {object : Nat}

/-- A name bound to an object that was not there before is not kept. -/
theorem not_keepsNames_of_fresh {now : UInt64} (fresh : next.bound cfg.name = some t.count)
    : ¬ KeepsNames cfg now t next := by
  intro keeps
  rcases keeps cfg.name with same | ⟨none_, -⟩
  · rw [fresh] at same
    exact Nat.lt_irrefl _ (t.below _ _ same.symm)
  · rw [fresh] at none_
    cases none_

/-- A name that is taken away is kept only if its object was abandoned. -/
theorem keepsNames_unbind_iff {now : UInt64} (taken : t.bound cfg.name = some object)
    : KeepsNames cfg now t (t.unbind cfg.name) ↔ abandoned cfg now (t.objects object) = true := by
  constructor
  · intro keeps
    rcases keeps cfg.name with same | ⟨-, other, member, dead⟩
    · simp [taken] at same
    · obtain rfl := Option.some.inj (taken.symm.trans member)
      exact dead
  · intro dead name
    by_cases same : t.objectName name = t.objectName cfg.name
    · have here : t.bound name = some object := (t.bound_congr same).trans taken
      have gone : (t.unbind cfg.name).bound name = none :=
        ((t.unbind cfg.name).bound_congr same).trans (t.unbind_bound cfg.name)
      exact Or.inr ⟨gone, object, here, dead⟩
    · exact Or.inl (t.unbind_bound_apart same)

/-- What the condition says about a call whose second attempt comes after a removal. -/
theorem systemSound_iff_of_removed (accepted : cfg.accepted = true)
    (proceeds : call.first.refuses = false) (taken : t.bound cfg.name = some object)
    (reclaimed
      : call.opens = false ∨ abandoned cfg call.judged (t.objects object) = true)
    (removes : call.removes = true)
    : SystemSound t cfg call
      ↔ (call.second.refuses = true → abandoned cfg call.judged (t.objects object) = true)
        ∧ (call.second.refuses = false
          → call.second.completes (computeLayout cfg).totalSize = true) := by
  constructor
  · rintro (rejected | refuses | ⟨-, sound⟩)
    · simp [accepted] at rejected
    · simp [proceeds] at refuses
    · rcases sound object taken with ⟨opens, alive⟩ | stays | again
      · simp [opens, alive] at reclaimed
      · simp [removes] at stays
      · exact again
  · intro again
    refine Or.inr (Or.inr ⟨by simp [taken], fun other member => ?_⟩)
    obtain rfl := Option.some.inj (taken.symm.trans member)
    exact Or.inr (Or.inr again)

end Outcomes

/-- For every configuration, every state of the names and all answers of the system: a call
of `create` that fails keeps every name, up to an abandoned object's, if and only if the
condition holds.
-/
theorem failedCreate_keepsNames_iff (t : NameTable) (cfg : LLConfig) (call : CreateCall)
    : (∀ status,
          (createPublisher t cfg call).2 = .error status
          → KeepsNames cfg call.judged t (createPublisher t cfg call).1)
      ↔ SystemSound t cfg call := by
  have outcome := createPublisher_cases t cfg call
  generalize createPublisher t cfg call = result at outcome
  cases outcome with
  | invalid rejected =>
      exact ⟨fun _ => Or.inl rejected, fun _ _ _ name => Or.inl rfl⟩
  | refused refuses =>
      exact ⟨fun _ => Or.inr (Or.inl refuses), fun _ _ _ name => Or.inl rfl⟩
  | created accepted free completes installs =>
      refine ⟨fun _ => Or.inr (Or.inr ⟨fun _ => completes, ?_⟩), fun _ _ fails => by cases fails⟩
      simp [free]
  | recreated accepted proceeds taken reclaimed removes again completes installs =>
      rw [systemSound_iff_of_removed accepted proceeds taken reclaimed removes]
      exact ⟨fun _ => ⟨by simp [again], fun _ => completes⟩, fun _ _ fails => by cases fails⟩
  | spared taken opens alive =>
      refine ⟨fun _ => Or.inr (Or.inr ⟨by simp [taken], ?_⟩), fun _ _ _ name => Or.inl rfl⟩
      rintro object member
      obtain rfl := Option.some.inj (taken.symm.trans member)
      exact Or.inl ⟨opens, alive⟩
  | stuck taken fails =>
      exact ⟨fun _ => Or.inr (Or.inr ⟨by simp [taken], fun _ _ => Or.inr (Or.inl fails)⟩),
        fun _ _ _ name => Or.inl rfl⟩
  | broken accepted proceeds free fails adds =>
      constructor
      · intro kept
        exact absurd (kept _ rfl) (not_keepsNames_of_fresh adds.bound)
      · rintro (rejected | refuses | ⟨completes, -⟩)
        · simp [accepted] at rejected
        · simp [proceeds] at refuses
        · simp [completes free] at fails
  | removed accepted proceeds taken reclaimed removes refuses =>
      rw [systemSound_iff_of_removed accepted proceeds taken reclaimed removes]
      constructor
      · intro kept
        exact ⟨fun _ => (keepsNames_unbind_iff taken).mp (kept _ rfl), by simp [refuses]⟩
      · intro sound status _
        exact (keepsNames_unbind_iff taken).mpr (sound.1 refuses)
  | @rebroken _ next _ accepted proceeds taken reclaimed removes again fails adds =>
      rw [systemSound_iff_of_removed accepted proceeds taken reclaimed removes]
      constructor
      · intro kept
        have fresh : next.bound cfg.name = some t.count := adds.bound
        exact absurd (kept _ rfl) (not_keepsNames_of_fresh fresh)
      · rintro ⟨-, completes⟩
        simp [completes again] at fails

/-- The object is created but cannot be mapped: `create` fails, and the name that was free
stays bound to an object nobody uses.
-/
theorem failedCreate_leavesObject
    : ∃ t,
        createPublisher {} {} { first := { region := none } } = (t, .error .mappingFailure)
        ∧ t.bound ({} : LLConfig).name = some 0
        ∧ ¬ KeepsNames {} 0 {} t := by
  have accepted : ({} : LLConfig).accepted = true := by decide +kernel
  have result
      : createPublisher {} {} { first := { region := none } }
        = ((({} : NameTable).bind ({} : LLConfig).name).setObject 0
            { size := (computeLayout {}).totalSize }, .error .mappingFailure) := by
    rw [createPublisher, accepted]
    rfl
  exact ⟨_, result, by simp, not_keepsNames_of_fresh (by simp)⟩

end ShmFrame.Names
