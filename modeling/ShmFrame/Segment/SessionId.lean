import Mathlib.Tactic.TypeStar

/-! The number that tells one session of a name from another. -/

namespace ShmFrame

/-- The last step of the mixing. -/
def foldHigh (h : UInt64) : UInt64 := h ^^^ (h >>> 31)

/-- `make_session_id`, from the readings of the system clock and of the steady clock. -/
def makeSessionId (wall now : UInt64) : UInt64 :=
  let h := wall * 0x9E3779B97F4A7C15
  let h := h ^^^ (now + 0x632BE59BD9B4E019)
  let h := foldHigh h
  if h ≠ 0 then h else 1

/-- The fold loses nothing: what two words differ in would have to survive being shifted out. -/
theorem foldHigh_injective {first second : UInt64} (same : foldHigh first = foldHigh second)
    : first = second := by
  have shifted : (first ^^^ second) >>> 31 = first ^^^ second :=
    calc
      (first ^^^ second) >>> 31 = (first >>> 31) ^^^ (second >>> 31) := UInt64.shiftRight_xor
      _ = (first ^^^ foldHigh first) ^^^ (second ^^^ foldHigh second) := by
        rw [foldHigh, foldHigh, ← UInt64.xor_assoc first, ← UInt64.xor_assoc second second,
          UInt64.xor_self, UInt64.xor_self, UInt64.zero_xor, UInt64.zero_xor]
      _ = first ^^^ second := by
        rw [same, UInt64.xor_assoc, UInt64.xor_comm second, ← UInt64.xor_assoc (foldHigh second),
          UInt64.xor_self, UInt64.zero_xor]
  have number := congrArg UInt64.toNat shifted
  rw [UInt64.toNat_shiftRight, Nat.shiftRight_eq_div_pow] at number
  simp only [UInt64.reduceToNat, Nat.reduceMod] at number
  have zero : first ^^^ second = 0 := UInt64.toNat_inj.mp (by rw [UInt64.toNat_zero]; omega)
  exact UInt64.xor_eq_zero_iff.mp zero

/-- The mixing loses nothing of the system clock, whose factor is odd. -/
theorem scaled_injective {first second : UInt64}
    (same : first * 0x9E3779B97F4A7C15 = second * 0x9E3779B97F4A7C15)
    : first = second := by
  have undo (v : UInt64) : v * 0x9E3779B97F4A7C15 * 0xF1DE83E19937733D = v := by
    rw [UInt64.mul_assoc, show (0x9E3779B97F4A7C15 : UInt64) * 0xF1DE83E19937733D = 1 from rfl,
      UInt64.mul_one]
  rw [← undo first, same, undo]

/-- What is done once the mixing is over only affects zero. -/
theorem makeSessionId_cases (wall now : UInt64)
    : makeSessionId wall now = 1
      ∨ makeSessionId wall now
        = foldHigh ((wall * 0x9E3779B97F4A7C15) ^^^ (now + 0x632BE59BD9B4E019)) := by
  dsimp only [makeSessionId]
  split
  · exact .inr rfl
  · exact .inl rfl

/-- No session has the number zero, which stands for none, and two sessions that were created at
the same time by one of the clocks have different numbers if the other one differs, apart from
the number one.
-/
theorem makeSessionId_apart (wall now : UInt64)
    : makeSessionId wall now ≠ 0
      ∧ (∀ other, makeSessionId other now = makeSessionId wall now
          → other = wall ∨ makeSessionId wall now = 1)
      ∧ ∀ later, makeSessionId wall later = makeSessionId wall now
          → later = now ∨ makeSessionId wall now = 1 := by
  refine ⟨?_, fun other same => ?_, fun later same => ?_⟩
  · dsimp only [makeSessionId]
    split
    · assumption
    · decide
  · rcases makeSessionId_cases wall now with one | mixed
    · exact .inr one
    rcases makeSessionId_cases other now with one | mixed'
    · exact .inr (same ▸ one)
    have equal := foldHigh_injective (mixed'.symm.trans (same.trans mixed))
    exact .inl (scaled_injective ((UInt64.xor_left_inj _).mp equal))
  · rcases makeSessionId_cases wall now with one | mixed
    · exact .inr one
    rcases makeSessionId_cases wall later with one | mixed'
    · exact .inr (same ▸ one)
    have equal := foldHigh_injective (mixed'.symm.trans (same.trans mixed))
    exact .inl ((UInt64.add_left_inj _).mp ((UInt64.xor_right_inj _).mp equal))

end ShmFrame
