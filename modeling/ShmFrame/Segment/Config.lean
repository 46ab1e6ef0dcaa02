import Mathlib.Tactic.Ring
import Mathlib.Tactic.Linarith

/-! Geometry of a segment: the configuration record, its validation and the layout computed
from it. Both endpoints derive every offset from these definitions.
-/

namespace ShmFrame

def kMagic : UInt32 := 0x534D4634
def kVersion : UInt32 := 5
def kLine : UInt64 := 64
def kMaxSlots : UInt32 := 4
def kMinSlots : UInt32 := 3
def kMaxSegment : UInt64 := 2 * 1024 * 1024 * 1024
def kCommandOwnerStaleNs : UInt64 := 8000000000
def kMaxDimension : UInt32 := 32768

/-- A segment name: the bytes of a `std::string`. -/
abbrev Name := List UInt8

structure LLConfig where
  name : Name := "shmframe".toUTF8.toList
  maxWidth : UInt32 := 1920
  maxHeight : UInt32 := 1080
  bytesPerPixel : UInt32 := 4
  slotCount : UInt32 := 3
  commandSlots : UInt32 := 64
  maxCommandBytes : UInt32 := 512
  staleProducerMs : UInt32 := 2000

/-- The size of a full frame, in the 64-bit arithmetic of the source. -/
def LLConfig.maxPayload (c : LLConfig) : UInt64 :=
  c.maxWidth.toUInt64 * c.maxHeight.toUInt64 * c.bytesPerPixel.toUInt64

def alignUp (v a : UInt64) : UInt64 := (v + a - 1) / a * a

structure LLLayout where
  headerSize : UInt64 := 0
  slotsOffset : UInt64 := 0
  slotStride : UInt64 := 0
  slotPayloadOff : UInt64 := 0
  downstreamOffset : UInt64 := 0
  upstreamOffset : UInt64 := 0
  ringStride : UInt64 := 0
  ringPayloadOff : UInt64 := 0
  cmdStride : UInt64 := 0
  totalSize : UInt64 := 0

def configValid (c : LLConfig) : Bool :=
  if c.name.isEmpty || c.name.length > 200 then false
  else if c.maxWidth == 0 || c.maxHeight == 0 then false
  else if c.maxWidth > kMaxDimension || c.maxHeight > kMaxDimension then false
  else if c.bytesPerPixel == 0 || c.bytesPerPixel > 16 then false
  else if c.slotCount < kMinSlots || c.slotCount > kMaxSlots then false
  else if c.commandSlots == 0 then false
  else if (c.commandSlots &&& (c.commandSlots - 1)) != 0 then false
  else if c.maxCommandBytes == 0 || c.maxCommandBytes > (1 : UInt32) <<< 20 then false
  else true

/-- `sizeof` of the wire structs, with the `alignas(kLine)` padding of the source. -/
def sizeofLLHeader : UInt64 := 448
def sizeofLLSlotHeader : UInt64 := 40
def sizeofLLRingHeader : UInt64 := 128
def sizeofLLCmdHeader : UInt64 := 32

def computeLayout (c : LLConfig) : LLLayout :=
  let headerSize := alignUp sizeofLLHeader kLine
  let slotPayloadOff := alignUp sizeofLLSlotHeader kLine
  let slotStride := alignUp (slotPayloadOff + c.maxPayload) kLine
  let slotsOffset := headerSize
  let ringPayloadOff := alignUp sizeofLLRingHeader kLine
  let cmdStride := alignUp (sizeofLLCmdHeader + c.maxCommandBytes.toUInt64) kLine
  let ringStride := alignUp (ringPayloadOff + c.commandSlots.toUInt64 * cmdStride) kLine
  let downstreamOffset := slotsOffset + c.slotCount.toUInt64 * slotStride
  let upstreamOffset := downstreamOffset + ringStride
  let totalSize := upstreamOffset + ringStride
  {
    headerSize, slotsOffset, slotStride, slotPayloadOff, downstreamOffset,
    upstreamOffset, ringStride, ringPayloadOff, cmdStride, totalSize
  }

/-- The checks `LLPublisher::create` makes before it touches the name. -/
def LLConfig.accepted (c : LLConfig) : Bool :=
  configValid c
  && !((computeLayout c).totalSize == 0 || (computeLayout c).totalSize > kMaxSegment)

/-- The bounds a valid configuration respects, read off `configValid`. -/
structure LLConfig.Bounded (c : LLConfig) : Prop where
  width : 1 ≤ c.maxWidth.toNat ∧ c.maxWidth.toNat ≤ 32768
  height : 1 ≤ c.maxHeight.toNat ∧ c.maxHeight.toNat ≤ 32768
  depth : 1 ≤ c.bytesPerPixel.toNat ∧ c.bytesPerPixel.toNat ≤ 16
  slots : 3 ≤ c.slotCount.toNat ∧ c.slotCount.toNat ≤ 4
  commands : 1 ≤ c.commandSlots.toNat ∧ c.commandSlots &&& (c.commandSlots - 1) = 0
  commandBytes : 1 ≤ c.maxCommandBytes.toNat ∧ c.maxCommandBytes.toNat ≤ 1048576

/-- Validation grants every bound, by going through its rejections in order. -/
theorem configValid_bounded {c : LLConfig} (valid : configValid c = true) : c.Bounded := by
  simp only [configValid, Bool.if_false_left, Bool.and_eq_true, Bool.not_eq_true',
    decide_eq_false_iff_not, Bool.or_eq_true, not_or, beq_iff_eq, decide_eq_true_eq,
    bne_iff_ne, not_not, kMaxDimension, kMinSlots, kMaxSlots, gt_iff_lt,
    UInt32.lt_iff_toNat_lt, not_lt, ne_eq, ← UInt32.toNat_inj (b := 0)] at valid
  obtain ⟨-, ⟨w, h⟩, ⟨w', h'⟩, ⟨d, d'⟩, ⟨n, n'⟩, k, k', ⟨b, b'⟩, -⟩ := valid
  simp at w h w' h' d d' n n' k k' b b'
  exact {
    width := ⟨by omega, w'⟩
    height := ⟨by omega, h'⟩
    depth := ⟨by omega, d'⟩
    slots := ⟨n, n'⟩
    commands := ⟨by omega, UInt32.toNat_inj.mp (by simpa using k')⟩
    commandBytes := ⟨by omega, b'⟩
  }

/-- The exact size of a frame, in unbounded arithmetic. -/
def LLConfig.exactBytes (c : LLConfig) (width height : UInt32) : Nat :=
  width.toNat * height.toNat * c.bytesPerPixel.toNat

/-- Bounded dimensions keep the maximal payload below `2 ^ 35`. -/
theorem LLConfig.Bounded.exactBytes_max {c : LLConfig} (bounded : c.Bounded)
    : c.exactBytes c.maxWidth c.maxHeight ≤ 2 ^ 34 := by
  have area : c.maxWidth.toNat * c.maxHeight.toNat ≤ 32768 * 32768 :=
    Nat.mul_le_mul bounded.width.2 bounded.height.2
  exact (Nat.mul_le_mul area bounded.depth.2).trans (by norm_num)

/-- The source's product for the maximal payload never wraps on bounded dimensions. -/
theorem LLConfig.Bounded.maxPayload_exact {c : LLConfig} (bounded : c.Bounded)
    : c.maxPayload.toNat = c.exactBytes c.maxWidth c.maxHeight := by
  have small := bounded.exactBytes_max
  have area : c.maxWidth.toNat * c.maxHeight.toNat ≤ 32768 * 32768 :=
    Nat.mul_le_mul bounded.width.2 bounded.height.2
  simp only [LLConfig.exactBytes] at small ⊢
  simp only [LLConfig.maxPayload, UInt64.toNat_mul, UInt32.toNat_toUInt64]
  rw [Nat.mod_eq_of_lt (a := c.maxWidth.toNat * c.maxHeight.toNat) (by omega),
    Nat.mod_eq_of_lt (by omega)]

/-- Rounding up to a cache line is exact while the sum stays in 64 bits. -/
theorem alignUp_exact {v : UInt64} (small : v.toNat < 2 ^ 63)
    : (alignUp v kLine).toNat = (v.toNat + 63) / 64 * 64 := by
  have sum : (v + kLine - 1).toNat = v.toNat + 63 := by
    simp only [kLine, UInt64.toNat_sub, UInt64.toNat_add]
    simp
    omega
  simp only [alignUp, UInt64.toNat_mul, UInt64.toNat_div, sum]
  simp only [kLine, UInt64.reduceToNat]
  omega

/-- The layout of a bounded configuration in unbounded arithmetic: no field wraps. -/
structure LayoutExact (c : LLConfig) (l : LLLayout) : Prop where
  headerSize : l.headerSize.toNat = 448
  slotsOffset : l.slotsOffset.toNat = 448
  slotPayloadOff : l.slotPayloadOff.toNat = 64
  slotStride : l.slotStride.toNat = (64 + c.maxPayload.toNat + 63) / 64 * 64
  ringPayloadOff : l.ringPayloadOff.toNat = 128
  cmdStride : l.cmdStride.toNat = (32 + c.maxCommandBytes.toNat + 63) / 64 * 64
  ringStride
    : l.ringStride.toNat = (128 + c.commandSlots.toNat * l.cmdStride.toNat + 63) / 64 * 64
  downstreamOffset
    : l.downstreamOffset.toNat = 448 + c.slotCount.toNat * l.slotStride.toNat
  upstreamOffset : l.upstreamOffset.toNat = l.downstreamOffset.toNat + l.ringStride.toNat
  totalSize : l.totalSize.toNat = l.upstreamOffset.toNat + l.ringStride.toNat

/-- Every field of a bounded configuration's layout is its exact integer expression, by
bounding the two products and discarding each 64-bit reduction in turn.
-/
theorem computeLayout_exact {c : LLConfig} (bounded : c.Bounded)
    : LayoutExact c (computeLayout c) := by
  have payload : c.maxPayload.toNat ≤ 2 ^ 34 :=
    bounded.maxPayload_exact ▸ bounded.exactBytes_max
  have bytes := bounded.commandBytes.2
  have slotCount := bounded.slots.2
  have commandSlots := c.commandSlots.toNat_lt
  have slotBase : ((64 : UInt64) + c.maxPayload).toNat = 64 + c.maxPayload.toNat := by
    simp only [UInt64.toNat_add, UInt64.reduceToNat]
    omega
  have cmdBase
      : (sizeofLLCmdHeader + c.maxCommandBytes.toUInt64).toNat
        = 32 + c.maxCommandBytes.toNat := by
    simp only [sizeofLLCmdHeader, UInt64.toNat_add, UInt64.reduceToNat,
      UInt32.toNat_toUInt64]
    omega
  have slotStride := alignUp_exact (v := 64 + c.maxPayload) (by omega)
  have cmdStride :=
    alignUp_exact (v := sizeofLLCmdHeader + c.maxCommandBytes.toUInt64) (by omega)
  rw [slotBase] at slotStride
  rw [cmdBase] at cmdStride
  -- The two products are bounded before the sums that contain them are evaluated.
  have cells
      : c.commandSlots.toNat
          * (alignUp (sizeofLLCmdHeader + c.maxCommandBytes.toUInt64) kLine).toNat
        ≤ 2 ^ 32 * 2 ^ 21 :=
    Nat.mul_le_mul (by omega) (by omega)
  have slots
      : c.slotCount.toNat * (alignUp (64 + c.maxPayload) kLine).toNat ≤ 4 * 2 ^ 35 :=
    Nat.mul_le_mul slotCount (by omega)
  have ringBase
      : ((128 : UInt64)
          + c.commandSlots.toUInt64
            * alignUp (sizeofLLCmdHeader + c.maxCommandBytes.toUInt64) kLine).toNat
        = 128
          + c.commandSlots.toNat
            * (alignUp (sizeofLLCmdHeader + c.maxCommandBytes.toUInt64) kLine).toNat := by
    simp only [UInt64.toNat_add, UInt64.toNat_mul, UInt64.reduceToNat,
      UInt32.toNat_toUInt64]
    omega
  have ringStride := alignUp_exact (v := 128 + c.commandSlots.toUInt64
    * alignUp (sizeofLLCmdHeader + c.maxCommandBytes.toUInt64) kLine) (by omega)
  rw [ringBase] at ringStride
  have downstream
      : ((448 : UInt64) + c.slotCount.toUInt64 * alignUp (64 + c.maxPayload) kLine).toNat
        = 448 + c.slotCount.toNat * (alignUp (64 + c.maxPayload) kLine).toNat := by
    simp only [UInt64.toNat_add, UInt64.toNat_mul, UInt64.reduceToNat,
      UInt32.toNat_toUInt64]
    omega
  have header : alignUp sizeofLLHeader kLine = 448 := rfl
  have slotPayload : alignUp sizeofLLSlotHeader kLine = 64 := rfl
  have ringPayload : alignUp sizeofLLRingHeader kLine = 128 := rfl
  simp only [computeLayout, header, slotPayload, ringPayload]
  refine ⟨rfl, rfl, rfl, slotStride, rfl, cmdStride, ringStride, downstream, ?_, ?_⟩
  · dsimp only
    rw [UInt64.toNat_add]
    omega
  · dsimp only
    rw [UInt64.toNat_add, UInt64.toNat_add (448 + _)]
    omega

/-- The header of a segment lies in the segment. -/
theorem LLConfig.Bounded.header_fits {c : LLConfig} (bounded : c.Bounded)
    : sizeofLLHeader ≤ (computeLayout c).totalSize := by
  have layout := computeLayout_exact bounded
  have header : sizeofLLHeader.toNat = 448 := rfl
  have total := layout.totalSize
  have upstream := layout.upstreamOffset
  have downstream := layout.downstreamOffset
  rw [UInt64.le_iff_toNat_le]
  omega

/-- Acceptance includes validation. -/
theorem LLConfig.accepted_valid {c : LLConfig} (accepted : c.accepted = true)
    : configValid c = true :=
  (Bool.and_eq_true_iff.mp accepted).1

/-- So an accepted configuration is bounded. -/
theorem LLConfig.accepted_bounded {c : LLConfig} (accepted : c.accepted = true) : c.Bounded :=
  configValid_bounded (accepted_valid accepted)

/-- What an accepted configuration guarantees about slots and payloads. -/
structure LLConfig.FrameBounds (c : LLConfig) : Prop where
  slots : c.slotCount.toNat = 3 ∨ c.slotCount.toNat = 4
  payload : c.maxPayload.toNat = c.exactBytes c.maxWidth c.maxHeight
  depth : 1 ≤ c.bytesPerPixel.toNat
  positive : 1 ≤ c.maxPayload.toNat
  small : c.maxPayload.toNat < 2 ^ 31

/-- Acceptance bounds every payload by the two-gigabyte cap on the whole segment, since
each of its slots holds a full payload.
-/
theorem LLConfig.accepted_frameBounds {c : LLConfig} (accepted : c.accepted = true)
    : c.FrameBounds := by
  simp only [LLConfig.accepted, Bool.and_eq_true, Bool.not_eq_true',
    Bool.or_eq_false_iff, decide_eq_false_iff_not, gt_iff_lt, UInt64.lt_iff_toNat_lt,
    not_lt] at accepted
  obtain ⟨valid, -, capped⟩ := accepted
  have bounded := configValid_bounded valid
  have layout := computeLayout_exact bounded
  have cap : kMaxSegment.toNat = 2 ^ 31 := rfl
  have slots := bounded.slots
  have stride
      : 3 * (computeLayout c).slotStride.toNat
        ≤ c.slotCount.toNat * (computeLayout c).slotStride.toNat :=
    Nat.mul_le_mul_right _ slots.1
  have exact_stride := layout.slotStride
  have total := layout.totalSize
  have upstream := layout.upstreamOffset
  have downstream := layout.downstreamOffset
  exact {
    slots := by omega
    payload := bounded.maxPayload_exact
    depth := bounded.depth.1
    positive := by
      rw [bounded.maxPayload_exact]
      exact Nat.mul_pos (Nat.mul_pos bounded.width.1 bounded.height.1) bounded.depth.1
    small := by omega
  }

end ShmFrame
