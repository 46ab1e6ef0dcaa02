import ShmFrame.Accesses.FramePath
import ShmFrame.Calls.Attach

/-! The rest of the publisher's calls as programs of single accesses: the stores of `create`,
the heartbeat, commands and the destructor.
-/

namespace ShmFrame.Accesses

open LLPublisher

-----------------------------------------------------------------------------------------
-- create
-----------------------------------------------------------------------------------------

/-- Stores some words of the header, one after the other. -/
def storeHeaders (g : Nat) : List (HeaderWord × UInt64) → Access Unit
  | [] => return ()
  | (word, value) :: rest => do
      storeHeader g word value
      storeHeaders g rest

/-- `new LLHeader()`. -/
def clearedHeader : List (HeaderWord × UInt64) :=
  [(.magic, 0), (.version, 0), (.sessionId, 0), (.totalSize, 0), (.maxWidth, 0), (.maxHeight, 0),
    (.bytesPerPixel, 0), (.slotCount, 0), (.commandSlots, 0), (.maxCommandBytes, 0),
    (.slotsOffset, 0), (.slotStride, 0), (.downstreamOffset, 0), (.upstreamOffset, 0),
    (.ringStride, 0), (.cmdStride, 0), (.latest, 0), (.shutdown, 0), (.lastHeartbeatNs, 0),
    (.commandOwnerGen, 0), (.commandOwnerHeartbeatNs, 0)]

/-- `new LLSlotHeader()`. -/
def clearSlot (g : Nat) (l : LLLayout) (index : UInt32) : Access Unit := do
  storeSlot g l index .seq 0
  storeSlot g l index .frameId 0
  storeSlot g l index .timestampNs 0
  storeSlot g l index .width 0
  storeSlot g l index .height 0
  storeSlot g l index .stride 0
  storeSlot g l index .payloadBytes 0

/-- All slots up to some number. -/
def clearSlots (g : Nat) (l : LLLayout) : Nat → Access Unit
  | 0 => return ()
  | count + 1 => do
      clearSlots g l count
      clearSlot g l (UInt32.ofNat count)

/-- `new LLRingHeader()`. -/
def clearRing (g : Nat) (direction : Direction) (offset : UInt64) : Access Unit := do
  access (.store g (.ringHeader direction) (at_ (ringAt offset) RingWord.head.place) 0)
  access (.store g (.ringHeader direction) (at_ (ringAt offset) RingWord.tail.place) 0)

/-- The fields that `create` stores before it reads the clock, in its order. -/
def describedHeader (cfg : LLConfig) (session : UInt64) : List (HeaderWord × UInt64) :=
  let l := computeLayout cfg
  [(.version, kVersion.toUInt64), (.sessionId, session), (.totalSize, l.totalSize),
    (.maxWidth, cfg.maxWidth.toUInt64), (.maxHeight, cfg.maxHeight.toUInt64),
    (.bytesPerPixel, cfg.bytesPerPixel.toUInt64), (.slotCount, cfg.slotCount.toUInt64),
    (.commandSlots, cfg.commandSlots.toUInt64), (.maxCommandBytes, cfg.maxCommandBytes.toUInt64),
    (.slotsOffset, l.slotsOffset), (.slotStride, l.slotStride),
    (.downstreamOffset, l.downstreamOffset), (.upstreamOffset, l.upstreamOffset),
    (.ringStride, l.ringStride), (.cmdStride, l.cmdStride)]

/-- What `create` does to the segment it has mapped; the magic is stored last. -/
def initialise (g : Nat) (cfg : LLConfig) (session : UInt64) : Access Impl := do
  let l := computeLayout cfg
  storeHeaders g clearedHeader
  clearSlots g l cfg.slotCount.toNat
  clearRing g .downstream l.downstreamOffset
  clearRing g .upstream l.upstreamOffset
  storeHeaders g (describedHeader cfg session)
  storeHeader g .lastHeartbeatNs (← nowNs)
  storeHeader g .magic kMagic.toUInt64
  return { cfg }

-----------------------------------------------------------------------------------------
-- Calls
-----------------------------------------------------------------------------------------

/-- The publisher's ring handles. -/
def downHandle (g : Nat) (m : Impl) : RingHandle where
  direction := .downstream
  ring := Calls.publisherTx m.cfg g
  layout := computeLayout m.cfg

def upHandle (g : Nat) (m : Impl) : RingHandle where
  direction := .upstream
  ring := Calls.publisherRx m.cfg g
  layout := computeLayout m.cfg

/-- `heartbeat`. -/
def heartbeat (g : Nat) : Access Unit := do
  storeHeader g .lastHeartbeatNs (← nowNs)

/-- `LLPublisher::send`: the identifier of the command, if it was accepted. -/
def publisherSend (g : Nat) (m : Impl) (call : Commands.PushCall)
    : Access (Impl × Option UInt64) := do
  let id := m.nextCmd
  let pushed ← (downHandle g m).push { call with id, timestampNs := ← nowNs }
  if !pushed then return ({ m with dropped := m.dropped + 1 }, none)
  return ({ m with nextCmd := m.nextCmd + 1, sent := m.sent + 1 }, some id)

/-- `LLPublisher::receive`. -/
def publisherReceive (g : Nat) (m : Impl) : Access (Impl × Option Commands.LLShmCommand) := do
  let some command ← (upHandle g m).pop | return (m, none)
  return ({ m with recvd := m.recvd + 1 }, some command)

/-- What the destructor of a publisher does to the segment. -/
def publisherClose (g : Nat) : Access Unit := storeHeader g .shutdown 1

-----------------------------------------------------------------------------------------
-- Sizes that wrap
-----------------------------------------------------------------------------------------

/-- The size of a frame is not one that fits only because a product has wrapped. -/
def Unwrapped (c : LLConfig) (width height : UInt32) : Prop :=
  c.exactBytes width height % 2 ^ 64 ≤ c.maxPayload.toNat
  → c.exactBytes width height ≤ c.maxPayload.toNat

/-- No size that is published does. -/
def PublisherCall.Unwrapped (c : LLConfig) : PublisherCall → Prop
  | .publish _ width height _ => Accesses.Unwrapped c width height
  | .beginWrite .. | .cancelWrite | .commit _ | .setMaxPublish _ => True

end ShmFrame.Accesses
