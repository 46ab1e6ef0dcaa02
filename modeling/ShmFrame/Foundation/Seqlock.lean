import Mathlib.Tactic.TypeStar

/-! Sequence locks over an arbitrary content type.
The writer bumps a version before and after it changes the content, so the content moves
only while the version is odd. A reader that sees one even version twice has read a single
content in between, however its loads were spread.
-/

namespace ShmFrame.Foundation

/-- A versioned cell. -/
structure Versioned (Content : Type*) where
  version : Nat
  content : Content

namespace Versioned

variable {Content : Type*}

/-- A legal change of a cell: versions never go back, and a content seen under an even
version is not changed under that version.
-/
def Evolves (before after : Versioned Content) : Prop :=
  before.version ≤ after.version
  ∧ (after.version = before.version → before.version % 2 = 0
      → after.content = before.content)

/-- A cell that stays as it is evolves. -/
theorem Evolves.refl (cell : Versioned Content) : cell.Evolves cell :=
  ⟨Nat.le_refl _, fun _ _ => rfl⟩

/-- A change that raises the version is legal whatever it does to the content. -/
theorem Evolves.of_lt {before after : Versioned Content}
    (raised : before.version < after.version)
    : before.Evolves after :=
  ⟨Nat.le_of_lt raised, fun same => absurd same (Nat.ne_of_gt raised)⟩

/-- A change under an odd version is legal. -/
theorem Evolves.of_odd {before after : Versioned Content}
    (same : after.version = before.version) (odd : before.version % 2 = 1)
    : before.Evolves after :=
  ⟨Nat.le_of_eq same.symm, fun _ even => absurd (odd.symm.trans even) (by decide)⟩

/-- What a reader knows after seeing `version`: `claim` holds of the content if the version
is still the same.
-/
structure Observed (cell : Versioned Content) (version : Nat) (claim : Content → Prop)
    : Prop where
  even : version % 2 = 0
  reached : version ≤ cell.version
  holds : cell.version = version → claim cell.content

/-- A first look at an even version starts an observation. -/
theorem Observed.start {cell : Versioned Content} {claim : Content → Prop}
    (even : cell.version % 2 = 0) (known : claim cell.content)
    : cell.Observed cell.version claim :=
  ⟨even, Nat.le_refl _, fun _ => known⟩

/-- Observations survive every legal change of the cell. -/
theorem Observed.evolve {before after : Versioned Content} {version : Nat}
    {claim : Content → Prop}
    (observed : before.Observed version claim) (step : before.Evolves after)
    : after.Observed version claim := by
  refine ⟨observed.even, Nat.le_trans observed.reached step.1, fun same => ?_⟩
  have still : before.version = version :=
    Nat.le_antisymm (same ▸ step.1) observed.reached
  rw [step.2 (same.trans still.symm) (still ▸ observed.even)]
  exact observed.holds still

/-- A further load of the current content extends the observation. -/
theorem Observed.extend {cell : Versioned Content} {version : Nat}
    {claim next : Content → Prop}
    (observed : cell.Observed version claim)
    (learn : claim cell.content → next cell.content)
    : cell.Observed version next :=
  ⟨observed.even, observed.reached, fun same => learn (observed.holds same)⟩

/-- The second look: an unchanged version confirms the claim of the current content. -/
theorem Observed.confirm {cell : Versioned Content} {version : Nat}
    {claim : Content → Prop}
    (observed : cell.Observed version claim) (same : cell.version = version)
    : claim cell.content ∧ cell.version % 2 = 0 :=
  ⟨observed.holds same, same ▸ observed.even⟩

/-- The second look fails only if the version was raised in between. -/
theorem Observed.lapped {cell : Versioned Content} {version : Nat}
    {claim : Content → Prop}
    (observed : cell.Observed version claim) (changed : cell.version ≠ version)
    : version < cell.version :=
  Nat.lt_of_le_of_ne observed.reached (Ne.symm changed)

end Versioned
end ShmFrame.Foundation
