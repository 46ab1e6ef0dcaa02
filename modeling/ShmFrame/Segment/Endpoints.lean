import Mathlib.Logic.Function.Basic
import Mathlib.Data.Finset.Range
import ShmFrame.Segment.Config

/-! The shared words of the frame path and the private state of both endpoints.
Private computations of a call (gates, size checks, counters) are functions of their own,
so the interleaved and the sequential models share them.
-/

namespace ShmFrame

inductive LLReadResult
  | ok
  | noNewFrame
  | contended
  | throttled
  | bufferTooSmall
  | disconnected
deriving DecidableEq

structure LLFrameInfo where
  frameId : UInt64 := 0
  timestampNs : UInt64 := 0
  width : UInt32 := 0
  height : UInt32 := 0
  stride : UInt32 := 0
  payloadBytes : UInt32 := 0
deriving DecidableEq

/-- A slot header: the sequence word (even = stable, odd = being written) and the six
metadata fields, which are those of `LLFrameInfo` in the same order.
-/
structure LLSlotHeader where
  seq : UInt64 := 0
  info : LLFrameInfo := {}

/-- A slot: its header and the payload area that follows it, byte by byte. -/
structure Slot where
  header : LLSlotHeader := {}
  payload : Nat → UInt8 := fun _ => 0

/-- The shared words of the frame path: `latest` is `(frame_id << 2) | slot_index`. -/
structure FrameMemory where
  latest : UInt64 := 0
  shutdown : UInt32 := 0
  lastHeartbeatNs : UInt64 := 0
  slots : Nat → Slot := fun _ => {}

def FrameMemory.setSlot (memory : FrameMemory) (index : Nat) (slot : Slot)
    : FrameMemory :=
  { memory with slots := fun other => if other = index then slot else memory.slots other }

def packLatest (frameId : UInt64) (slot : UInt32) : UInt64 := frameId <<< 2 ||| slot.toUInt64
def latestFrame (packed : UInt64) : UInt64 := packed >>> 2
def latestSlot (packed : UInt64) : UInt32 := (packed &&& 3).toUInt32

/-- Packing is exact while the frame id has two bits to spare. -/
theorem packLatest_toNat {frameId : UInt64} {slot : UInt32}
    (small : frameId.toNat < 2 ^ 62) (inside : slot.toNat < 4)
    : (packLatest frameId slot).toNat = 4 * frameId.toNat + slot.toNat := by
  have shifted : (frameId <<< 2).toNat = frameId.toNat <<< 2 := by
    rw [UInt64.toNat_shiftLeft]
    simp only [UInt64.reduceToNat, Nat.reduceMod, Nat.shiftLeft_eq]
    omega
  rw [packLatest, UInt64.toNat_or, shifted, UInt32.toNat_toUInt64,
    ← Nat.shiftLeft_add_eq_or_of_lt (by simpa using inside), Nat.shiftLeft_eq]
  omega

/-- The frame id is the packed word without its two low bits. -/
theorem latestFrame_toNat (packed : UInt64)
    : (latestFrame packed).toNat = packed.toNat / 4 := by
  rw [latestFrame, UInt64.toNat_shiftRight, Nat.shiftRight_eq_div_pow]
  rfl

/-- The slot index is the two low bits of the packed word. -/
theorem latestSlot_toNat (packed : UInt64)
    : (latestSlot packed).toNat = packed.toNat % 4 := by
  have low : packed.toNat &&& 3 = packed.toNat % 4 :=
    Nat.and_two_pow_sub_one_eq_mod packed.toNat 2
  rw [latestSlot, UInt64.toNat_toUInt32, UInt64.toNat_and,
    show (3 : UInt64).toNat = 3 from rfl, low]
  omega

/-- The slot index survives packing whatever becomes of the frame id. -/
theorem latestSlot_packLatest (frameId : UInt64) {slot : UInt32} (inside : slot.toNat < 4)
    : latestSlot (packLatest frameId slot) = slot := by
  have shifted : (frameId <<< 2).toNat % 2 ^ 2 = 0 := by
    rw [UInt64.toNat_shiftLeft]
    simp only [UInt64.reduceToNat, Nat.reduceMod, Nat.shiftLeft_eq]
    omega
  rw [← UInt32.toNat_inj, latestSlot_toNat, packLatest, UInt64.toNat_or,
    UInt32.toNat_toUInt64, show (4 : Nat) = 2 ^ 2 from rfl, Nat.or_mod_two_pow, shifted,
    Nat.zero_or]
  exact Nat.mod_eq_of_lt inside

/-- A step of the sequence word changes its parity, also across the wrap. -/
theorem seq_succ_parity (seq : UInt64) : (seq + 1).toNat % 2 = 1 - seq.toNat % 2 := by
  rw [UInt64.toNat_add]
  simp only [UInt64.reduceToNat]
  omega

/-- The parity test of the source reads the low bit of the sequence word. -/
theorem seq_and_one_toNat (seq : UInt64) : (seq &&& 1).toNat = seq.toNat % 2 := by
  rw [UInt64.toNat_and]
  exact Nat.and_one_is_mod seq.toNat

-----------------------------------------------------------------------------------------
-- Field-wise access to the metadata
-----------------------------------------------------------------------------------------

/-- The six metadata fields, each a shared-memory access of its own. -/
inductive InfoField
  | frameId
  | timestampNs
  | width
  | height
  | stride
  | payloadBytes
deriving DecidableEq

/-- Copies one field of `source` over the same field of `target`. -/
def InfoField.copy (field : InfoField) (source target : LLFrameInfo) : LLFrameInfo :=
  match field with
  | .frameId => { target with frameId := source.frameId }
  | .timestampNs => { target with timestampNs := source.timestampNs }
  | .width => { target with width := source.width }
  | .height => { target with height := source.height }
  | .stride => { target with stride := source.stride }
  | .payloadBytes => { target with payloadBytes := source.payloadBytes }

/-- Two records hold the same value in one field. -/
def InfoField.Agree (field : InfoField) (left right : LLFrameInfo) : Prop :=
  match field with
  | .frameId => left.frameId = right.frameId
  | .timestampNs => left.timestampNs = right.timestampNs
  | .width => left.width = right.width
  | .height => left.height = right.height
  | .stride => left.stride = right.stride
  | .payloadBytes => left.payloadBytes = right.payloadBytes

/-- The order in which `begin_write` stores its fields. -/
def InfoField.beginOrder : List InfoField := [.width, .height, .stride, .payloadBytes]

/-- The order in which `commit` stores its fields. -/
def InfoField.commitOrder : List InfoField := [.frameId, .timestampNs]

/-- The order in which `read_latest` loads the fields. -/
def InfoField.readOrder : List InfoField :=
  [.frameId, .timestampNs, .width, .height, .stride, .payloadBytes]

/-- A copied field agrees with its source. -/
theorem InfoField.agree_copy_self (field : InfoField) (source target : LLFrameInfo)
    : field.Agree source (field.copy source target) := by
  cases field <;> rfl

/-- Copying one field leaves the others alone, by cases on both fields. -/
theorem InfoField.agree_copy_other {field other : InfoField} (distinct : other ≠ field)
    (source target reference : LLFrameInfo)
    : other.Agree reference (field.copy source target) ↔ other.Agree reference target := by
  cases field <;> cases other <;> first | exact absurd rfl distinct | exact Iff.rfl

/-- Records that agree in all six fields are equal. -/
theorem LLFrameInfo.eq_of_agree {left right : LLFrameInfo}
    (agree : ∀ field : InfoField, field.Agree left right)
    : left = right := by
  cases left
  cases right
  have := agree .frameId
  have := agree .timestampNs
  have := agree .width
  have := agree .height
  have := agree .stride
  have := agree .payloadBytes
  simp_all [InfoField.Agree]

-----------------------------------------------------------------------------------------
-- The publisher's private state
-----------------------------------------------------------------------------------------

/-- A ring handle: the mapped segment it points into (none when default-constructed), its
offset there and the limits copied from the configuration.
-/
structure LLRing where
  base : Option Nat := none
  offset : UInt64 := 0
  slots : UInt32 := 0
  maxBytes : UInt32 := 0
deriving DecidableEq

/-- A handle points into a mapping. -/
def LLRing.valid (ring : LLRing) : Bool := ring.base.isSome

/-- The ring that carries commands from subscribers to the publisher. -/
def LLConfig.upstreamRing (c : LLConfig) : LLRing where
  base := some 0
  offset := (computeLayout c).upstreamOffset
  slots := c.commandSlots
  maxBytes := c.maxCommandBytes

/-- The ring that carries commands from the publisher to subscribers. -/
def LLConfig.downstreamRing (c : LLConfig) : LLRing where
  base := some 0
  offset := (computeLayout c).downstreamOffset
  slots := c.commandSlots
  maxBytes := c.maxCommandBytes

/-- The cell that belongs to a counter value: `counter & (slots - 1)`. -/
def LLRing.cellOf (ring : LLRing) (counter : UInt64) : Nat :=
  (counter &&& (ring.slots - 1).toUInt64).toNat

namespace LLPublisher

/-- The private state of a publisher. `pending` holds the index of the slot the source
points at.
-/
structure Impl where
  cfg : LLConfig
  pending : Option UInt32 := none
  writeSlot : UInt32 := 0
  frameId : UInt64 := 0
  nextCmd : UInt64 := 1
  sent : UInt64 := 0
  recvd : UInt64 := 0
  dropped : UInt64 := 0
  minIntervalNs : UInt64 := 0
  lastPublishNs : UInt64 := 0
  throttled : UInt64 := 0

/-- The 64-bit product `begin_write` compares with the maximal payload. -/
def frameBytes (cfg : LLConfig) (width height : UInt32) : UInt64 :=
  width.toUInt64 * height.toUInt64 * cfg.bytesPerPixel.toUInt64

/-- `begin_write` up to its first access to the slot: the refusals in source order and, on
success, the advance of `write_slot`.
-/
def Impl.admitWrite (m : Impl) (width height : UInt32) (now : UInt64) : Impl × Bool :=
  if m.pending.isSome then (m, false)
  else if width = 0 || height = 0 then (m, false)
  else if m.minIntervalNs ≠ 0 && m.lastPublishNs ≠ 0
      && now - m.lastPublishNs < m.minIntervalNs then
    ({ m with throttled := m.throttled + 1 }, false)
  else if frameBytes m.cfg width height > m.cfg.maxPayload then (m, false)
  else ({ m with writeSlot := (m.writeSlot + 1) % m.cfg.slotCount }, true)

/-- The geometry fields `begin_write` stores into the slot header. -/
def geometry (cfg : LLConfig) (width height : UInt32) : LLFrameInfo where
  width := width
  height := height
  stride := width * cfg.bytesPerPixel
  payloadBytes := (frameBytes cfg width height).toUInt32

/-- What `begin_write` can do before it touches the slot: refuse, refuse and count, or
advance to the next slot with nothing pending and a size within the maximal payload.
-/
theorem Impl.admitWrite_cases (m : Impl) (width height : UInt32) (now : UInt64)
    : m.admitWrite width height now = (m, false)
      ∨ m.admitWrite width height now = ({ m with throttled := m.throttled + 1 }, false)
      ∨ (m.pending = none ∧ width ≠ 0 ∧ height ≠ 0
          ∧ (frameBytes m.cfg width height).toNat ≤ m.cfg.maxPayload.toNat)
        ∧ m.admitWrite width height now
          = ({ m with writeSlot := (m.writeSlot + 1) % m.cfg.slotCount }, true) := by
  unfold Impl.admitWrite
  split
  · exact Or.inl rfl
  rename_i free
  split
  · exact Or.inl rfl
  rename_i positive
  split
  · exact Or.inr (Or.inl rfl)
  split
  · exact Or.inl rfl
  rename_i fits
  refine Or.inr (Or.inr ⟨⟨by simpa using free, ?_⟩, rfl⟩)
  simp only [Bool.or_eq_true, decide_eq_true_eq, not_or] at positive
  exact ⟨positive.1, positive.2, UInt64.le_iff_toNat_le.mp (UInt64.not_lt.mp fits)⟩

end LLPublisher

-----------------------------------------------------------------------------------------
-- The subscriber's private state
-----------------------------------------------------------------------------------------

namespace LLSubscriber

/-- The private state of a subscriber. `hdr` names the mapped segment. -/
structure Impl where
  name : Name := []
  remote : LLConfig := {}
  layout : LLLayout := {}
  hdr : Option Nat := none
  tx : LLRing := {}
  rx : LLRing := {}
  session : UInt64 := 0
  sessions : UInt64 := 0
  lastFrame : UInt64 := 0
  received : UInt64 := 0
  dropped : UInt64 := 0
  nextCmd : UInt64 := 1
  sent : UInt64 := 0
  recvd : UInt64 := 0
  cmdDropped : UInt64 := 0
  peerShutdown : Bool := false
  ownsCommands : Bool := false
  ownerGen : UInt64 := 0
  staleNs : UInt64 := 500 * 1000 * 1000
  retryNs : UInt64 := 250 * 1000 * 1000
  lastProgress : UInt64 := 0
  lastAttempt : UInt64 := 0
  minReadNs : UInt64 := 0
  lastReadNs : UInt64 := 0
  throttled : UInt64 := 0

/-- The part of `try_connect` that adopts a validated mapping, up to the claim loop. -/
def Impl.adopt (m : Impl) (segment : Nat) (remote : LLConfig) (layout : LLLayout)
    (session : UInt64)
    : Impl :=
  {
    m with
    hdr := some segment
    remote := { remote with name := m.name }
    layout := layout
    session := session
    sessions := m.sessions + 1
    lastFrame := 0
    nextCmd := 1
    peerShutdown := false
    ownsCommands := false
  }

/-- The rate gate of the raw `read_latest`; `false` means `Throttled`. -/
def Impl.readGate (m : Impl) (now : UInt64) : Impl × Bool :=
  if m.minReadNs ≠ 0 then
    if m.lastReadNs ≠ 0 && now - m.lastReadNs < m.minReadNs then
      ({ m with throttled := m.throttled + 1 }, false)
    else ({ m with lastReadNs := now }, true)
  else (m, true)

/-- The test that ends `read_latest` with nothing new to read. -/
def Impl.nothingNew (m : Impl) (packed : UInt64) : Bool :=
  packed = 0 || latestFrame packed = m.lastFrame

/-- The counters an accepted copy updates before `read_latest` returns `Ok`. -/
def Impl.deliver (m : Impl) (info : LLFrameInfo) (now : UInt64) : Impl :=
  {
    m with
    dropped :=
      if m.lastFrame ≠ 0 && info.frameId > m.lastFrame then
        m.dropped + (info.frameId - m.lastFrame - 1)
      else m.dropped
    lastFrame := info.frameId
    lastProgress := now
    received := m.received + 1
  }

end LLSubscriber
end ShmFrame
