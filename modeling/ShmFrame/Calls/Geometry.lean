import ShmFrame.Calls.PublisherInvariant

/-! The geometry arithmetic of `begin_write` and `publish`. The width and the height are
any 32-bit values; only the wrapped 64-bit product of both with the pixel size is compared.
-/

namespace ShmFrame.Calls

open ShmFrame.Commands

-----------------------------------------------------------------------------------------
-- Publishing from a buffer
-----------------------------------------------------------------------------------------

/-- One `memcpy` of `publish`, relative to the source and to the payload of the slot. -/
structure RowCopy where
  source : UInt64
  offset : UInt64
  length : UInt64

/-- The row size `publish` computes on its own, in 32 bits. -/
def dstStride (cfg : LLConfig) (width : UInt32) : UInt32 := width * cfg.bytesPerPixel

/-- The copies `publish` makes: a single one if the strides agree, else one for each row. -/
def rowCopies (cfg : LLConfig) (width height srcStride : UInt32) : List RowCopy :=
  let dst := dstStride cfg width
  let src := if srcStride = 0 then dst else srcStride
  if src = dst then
    [{ source := 0, offset := 0, length := dst.toUInt64 * height.toUInt64 }]
  else
    (List.range height.toNat).map fun row =>
      let y := UInt64.ofNat row
      {
        source := y * src.toUInt64
        offset := y * dst.toUInt64
        length := dst.toUInt64
      }

namespace Publisher

/-- Performs one copy into the slot that was selected last. -/
def copyRow (src : Nat → UInt8) (p : Publisher) (copy : RowCopy) : Publisher :=
  let payload other :=
    if copy.offset.toNat ≤ other ∧ other < copy.offset.toNat + copy.length.toNat then
      src (copy.source.toNat + (other - copy.offset.toNat))
    else p.slot.payload other
  p.setSlot p.impl.writeSlot.toNat { p.slot with payload }

end Publisher

-----------------------------------------------------------------------------------------
-- What is compared
-----------------------------------------------------------------------------------------

/-- The rate gate of `begin_write` refuses. -/
def Throttles (m : LLPublisher.Impl) (now : UInt64) : Prop :=
  m.minIntervalNs ≠ 0 ∧ m.lastPublishNs ≠ 0 ∧ now - m.lastPublishNs < m.minIntervalNs

instance (m : LLPublisher.Impl) (now : UInt64) : Decidable (Throttles m now) :=
  inferInstanceAs (Decidable (_ ∧ _ ∧ _))

/-- The product `begin_write` compares is the exact one modulo `2 ^ 64`. -/
theorem frameBytes_toNat (cfg : LLConfig) (width height : UInt32)
    : (LLPublisher.frameBytes cfg width height).toNat
      = cfg.exactBytes width height % 2 ^ 64 := by
  simp only [LLPublisher.frameBytes, LLConfig.exactBytes, UInt64.toNat_mul,
    UInt32.toNat_toUInt64, Nat.mod_mul_mod]

/-- `begin_write` returns a pointer if nothing is pending, the size is positive, the rate
gate lets it pass and the wrapped product fits.
-/
theorem Publisher.beginWrite_returns {p : Publisher} {width height : UInt32} {now : UInt64}
    : (p.beginWrite width height now).2 = true
      ↔ p.impl.pending = none ∧ width ≠ 0 ∧ height ≠ 0 ∧ ¬ Throttles p.impl now
        ∧ p.impl.cfg.exactBytes width height % 2 ^ 64 ≤ p.impl.cfg.maxPayload.toNat := by
  have admits
      : (p.beginWrite width height now).2 = (p.impl.admitWrite width height now).2 := by
    unfold Publisher.beginWrite
    dsimp only
    split
    · rename_i admitted
      exact admitted.symm
    · rename_i refused
      simpa using refused
  rw [admits, ← frameBytes_toNat]
  unfold LLPublisher.Impl.admitWrite Throttles
  split
  · rename_i pending
    simp [Option.isSome_iff_ne_none.mp pending]
  rename_i free
  split
  · rename_i empty
    simp only [Bool.or_eq_true, decide_eq_true_eq] at empty
    tauto
  rename_i positive
  split
  · rename_i early
    simp only [Bool.and_eq_true, decide_eq_true_eq] at early
    tauto
  rename_i late
  simp only [Bool.and_eq_true, decide_eq_true_eq, Bool.or_eq_true] at positive late
  split
  · rename_i large
    rw [gt_iff_lt, UInt64.lt_iff_toNat_lt] at large
    constructor
    · intro never
      cases never
    · rintro ⟨-, -, -, -, fits⟩
      omega
  · rename_i fits
    rw [gt_iff_lt, UInt64.not_lt, UInt64.le_iff_toNat_le] at fits
    simp only [Option.not_isSome_iff_eq_none] at free
    tauto

/-- A `begin_write` that returns a pointer has stored the geometry into the slot. -/
theorem Publisher.beginWrite_info {p begun : Publisher} {width height : UInt32} {now : UInt64}
    (returns : p.beginWrite width height now = (begun, true))
    : begun.slot.header.info
      = {
          LLPublisher.geometry p.impl.cfg width height with
          frameId := begun.slot.header.info.frameId
          timestampNs := begun.slot.header.info.timestampNs
        } := by
  unfold Publisher.beginWrite at returns
  dsimp only at returns
  split at returns
  · cases returns
    simp [Publisher.slot]
  · cases returns

-----------------------------------------------------------------------------------------
-- Exactness
-----------------------------------------------------------------------------------------

/-- What the source promises of a `begin_write` that has returned a pointer, and of the copy
`publish` then makes: no product has wrapped, and nothing is written outside the payload.
-/
structure ExactGeometry (cfg : LLConfig) (width height : UInt32) (begun : Publisher)
    : Prop where
  positive : 0 < cfg.exactBytes width height
  fits : cfg.exactBytes width height ≤ cfg.maxPayload.toNat
  stride : begun.slot.header.info.stride.toNat = width.toNat * cfg.bytesPerPixel.toNat
  payloadBytes : begun.slot.header.info.payloadBytes.toNat = cfg.exactBytes width height
  inside
    : ∀ srcStride, ∀ copy ∈ rowCopies cfg width height srcStride,
        copy.offset.toNat + copy.length.toNat ≤ cfg.maxPayload.toNat

section InRange

variable {cfg : LLConfig} {width height : UInt32}

/-- In range a row has its exact size. -/
theorem dstStride_exact (small : cfg.exactBytes width height < 2 ^ 32) (rows : height ≠ 0)
    : (dstStride cfg width).toNat = width.toNat * cfg.bytesPerPixel.toNat := by
  have some_ : 1 ≤ height.toNat := Nat.pos_of_ne_zero fun zero => rows (UInt32.toNat_inj.mp zero)
  have row : width.toNat * cfg.bytesPerPixel.toNat ≤ cfg.exactBytes width height := by
    rw [LLConfig.exactBytes, Nat.mul_right_comm]
    exact Nat.le_mul_of_pos_right _ some_
  rw [dstStride, UInt32.toNat_mul, Nat.mod_eq_of_lt (by omega)]

/-- Every copy of a frame in range stays inside the frame. -/
theorem rowCopies_inside (small : cfg.exactBytes width height < 2 ^ 32) (rows : height ≠ 0)
    (srcStride : UInt32)
    : ∀ copy ∈ rowCopies cfg width height srcStride,
        copy.offset.toNat + copy.length.toNat ≤ cfg.exactBytes width height := by
  have stride := dstStride_exact small rows
  have whole : cfg.exactBytes width height = height.toNat * (dstStride cfg width).toNat := by
    rw [stride, LLConfig.exactBytes]
    ring
  have range := height.toNat_lt
  intro copy member
  unfold rowCopies at member
  dsimp only at member
  generalize (if srcStride = 0 then dstStride cfg width else srcStride) = src at member
  split at member
  · obtain rfl := List.mem_singleton.mp member
    simp only [UInt64.toNat_mul, UInt32.toNat_toUInt64, UInt64.toNat_zero, Nat.zero_add]
    rw [whole, Nat.mul_comm]
    exact Nat.mod_le _ _
  · obtain ⟨row, below, rfl⟩ := List.mem_map.mp member
    have below := List.mem_range.mp below
    have rowEnd
        : row * (dstStride cfg width).toNat + (dstStride cfg width).toNat
          ≤ cfg.exactBytes width height := by
      rw [whole, ← Nat.succ_mul]
      exact Nat.mul_le_mul_right _ below
    simp only [UInt64.toNat_mul, UInt64.toNat_ofNat', UInt32.toNat_toUInt64]
    rw [Nat.mod_eq_of_lt (a := row) (by omega), Nat.mod_eq_of_lt (by omega)]
    exact rowEnd

/-- A write whose exact size is in range is exact in every respect. -/
theorem ExactGeometry.of_fits {p begun : Publisher} {now : UInt64}
    (accepted : p.impl.cfg.accepted = true)
    (fits : p.impl.cfg.exactBytes width height ≤ p.impl.cfg.maxPayload.toNat)
    (returns : p.beginWrite width height now = (begun, true))
    : ExactGeometry p.impl.cfg width height begun := by
  have bounds := p.impl.cfg.accepted_frameBounds accepted
  have small := bounds.small
  obtain ⟨-, columns, rows, -⟩ := Publisher.beginWrite_returns.mp (congrArg Prod.snd returns)
  have positive : 0 < p.impl.cfg.exactBytes width height := by
    have wide : width.toNat ≠ 0 := fun zero => columns (UInt32.toNat_inj.mp zero)
    have high : height.toNat ≠ 0 := fun zero => rows (UInt32.toNat_inj.mp zero)
    have depth := bounds.depth
    exact Nat.mul_pos (Nat.mul_pos (by omega) (by omega)) depth
  have info := Publisher.beginWrite_info returns
  refine ⟨positive, fits, ?_, ?_, fun srcStride copy member => ?_⟩
  · rw [info]
    exact dstStride_exact (by omega) rows
  · rw [info]
    change (LLPublisher.frameBytes p.impl.cfg width height).toUInt32.toNat = _
    rw [UInt64.toNat_toUInt32, frameBytes_toNat]
    omega
  · exact (rowCopies_inside (by omega) rows srcStride copy member).trans fits

end InRange

/-- For every publisher of an accepted configuration and all 32-bit sizes: the geometry of a
`begin_write` that returns a pointer is exact if and only if some other check refuses, or
the exact product fits, or not even its residue modulo `2 ^ 64` does.
-/
theorem beginWrite_exact_iff {p : Publisher} (accepted : p.impl.cfg.accepted = true)
    (width height : UInt32) (now : UInt64)
    : (∀ begun,
          p.beginWrite width height now = (begun, true)
          → ExactGeometry p.impl.cfg width height begun)
      ↔ p.impl.pending ≠ none ∨ width = 0 ∨ height = 0 ∨ Throttles p.impl now
        ∨ p.impl.cfg.exactBytes width height ≤ p.impl.cfg.maxPayload.toNat
        ∨ p.impl.cfg.maxPayload.toNat < p.impl.cfg.exactBytes width height % 2 ^ 64 := by
  constructor
  · intro exact_
    by_contra reached
    simp only [not_or, not_not, Nat.not_lt] at reached
    obtain ⟨free, columns, rows, early, large, wraps⟩ := reached
    have returns : (p.beginWrite width height now).2 = true :=
      Publisher.beginWrite_returns.mpr ⟨free, columns, rows, early, wraps⟩
    exact large (exact_ _ (Prod.ext rfl returns)).fits
  · intro allowed begun returns
    obtain ⟨free, columns, rows, early, wraps⟩ :=
      Publisher.beginWrite_returns.mp (congrArg Prod.snd returns)
    rcases allowed with pending | zero | zero | late | fits | large
    · exact absurd free pending
    · exact absurd zero columns
    · exact absurd zero rows
    · exact absurd late early
    · exact .of_fits accepted fits returns
    · omega

/-- A frame of the configured size is begun, and its geometry is exact. -/
theorem beginWrite_exact_full
    : ((Publisher.create {} 1 0).beginWrite 1920 1080 0).2 = true
      ∧ ExactGeometry {} 1920 1080 ((Publisher.create {} 1 0).beginWrite 1920 1080 0).1 := by
  have returns : ((Publisher.create {} 1 0).beginWrite 1920 1080 0).2 = true := by
    decide +kernel
  have exact_ :=
    (beginWrite_exact_iff (p := Publisher.create {} 1 0) (by decide +kernel) 1920 1080 0).mpr
      (by decide +kernel)
  exact ⟨returns, exact_ _ (Prod.ext rfl returns)⟩

/-- With the default configuration, a width and a height whose exact size is `2 ^ 64` and
7926196 bytes are admitted; `publish` then makes a single copy of 281 terabytes.
-/
theorem beginWrite_wraps
    : ∃ begun,
        (Publisher.create {} 1 0).beginWrite 1073758193 4294901821 0 = (begun, true)
        ∧ begun.slot.header.info.payloadBytes = 7926196
        ∧ (rowCopies {} 1073758193 4294901821 0).map (·.length) = [281212991631796]
        ∧ ¬ ExactGeometry {} 1073758193 4294901821 begun := by
  have returns
      : ((Publisher.create {} 1 0).beginWrite 1073758193 4294901821 0).2 = true := by
    decide +kernel
  refine ⟨_, Prod.ext rfl returns, by decide +kernel, by decide +kernel, fun exact_ => ?_⟩
  exact absurd exact_.fits (by decide +kernel)

end ShmFrame.Calls
