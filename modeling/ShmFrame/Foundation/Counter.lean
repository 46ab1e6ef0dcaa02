import Mathlib.Data.Nat.ModEq

/-! Free-running 64-bit counters. A counter starts anywhere and wraps; its distance to
another one and its position in a power-of-two window are still exact.
-/

namespace ShmFrame.Foundation

/-- A counter that started at `start` and was incremented `count` times. -/
def counter (start : UInt64) (count : Nat) : UInt64 := start + UInt64.ofNat count

/-- A counter starts where it starts. -/
@[simp] theorem counter_zero (start : UInt64) : counter start 0 = start :=
  UInt64.add_zero start

/-- One more increment adds one. -/
theorem counter_succ (start : UInt64) (count : Nat)
    : counter start count + 1 = counter start (count + 1) := by
  simp only [counter, UInt64.ofNat_add, UInt64.add_assoc]
  rfl

/-- The value of a counter is its unbounded value modulo `2 ^ 64`. -/
theorem counter_toNat (start : UInt64) (count : Nat)
    : (counter start count).toNat = (start.toNat + count) % 2 ^ 64 := by
  simp only [counter, UInt64.toNat_add, UInt64.toNat_ofNat', Nat.add_mod_mod]

/-- The distance of two counters with one start is exact while it fits the word. -/
theorem counter_distance (start : UInt64) {less more : Nat} (le : less ≤ more)
    (near : more - less < 2 ^ 64)
    : (counter start more - counter start less).toNat = more - less := by
  obtain ⟨gap, rfl⟩ := Nat.le.dest le
  have split : counter start (less + gap) = UInt64.ofNat gap + counter start less := by
    rw [counter, UInt64.ofNat_add, counter]
    grind
  rw [split, UInt64.add_sub_cancel, UInt64.toNat_ofNat', Nat.add_sub_cancel_left,
    Nat.mod_eq_of_lt (by omega)]

/-- Counters with one start are equal only at equal counts, within one wrap. -/
theorem counter_eq_iff (start : UInt64) {less more : Nat} (le : less ≤ more)
    (near : more - less < 2 ^ 64)
    : counter start less = counter start more ↔ less = more := by
  refine ⟨fun same => ?_, fun same => by rw [same]⟩
  have distance := counter_distance start le near
  rw [same, UInt64.sub_self, UInt64.toNat_zero] at distance
  omega

/-- Masking a counter reduces its unbounded value modulo the window. -/
theorem counter_mask (start mask : UInt64) (count : Nat) {bits : Nat} (few : bits ≤ 64)
    (mask_eq : mask.toNat = 2 ^ bits - 1)
    : (counter start count &&& mask).toNat = (start.toNat + count) % 2 ^ bits := by
  rw [UInt64.toNat_and, mask_eq, Nat.and_two_pow_sub_one_eq_mod, counter_toNat,
    Nat.mod_mod_of_dvd _ (Nat.pow_dvd_pow 2 few)]

/-- Positions closer than one window differ. -/
theorem window_apart {window base near far : Nat} (before : near < far)
    (within : far < near + window)
    : (base + near) % window ≠ (base + far) % window := by
  intro same
  have divides : window ∣ base + far - (base + near) :=
    (Nat.modEq_iff_dvd' (by omega)).mp same
  have := Nat.le_of_dvd (by omega) divides
  omega

end ShmFrame.Foundation
