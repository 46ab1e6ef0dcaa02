import ShmFrame.Accesses.Signature

/-! The subscriber's calls as programs of single accesses: attaching, polling, reading frames,
commands and the destructor. They thread the private state through.
-/

namespace ShmFrame.Accesses

open LLSubscriber

-----------------------------------------------------------------------------------------
-- Attaching
-----------------------------------------------------------------------------------------

/-- The configuration that a header echoes, under a placeholder name. -/
def loadConfig (g : Nat) : Access LLConfig := do
  return {
    name := "x".toUTF8.toList
    maxWidth := (← loadHeader g .maxWidth).toUInt32
    maxHeight := (← loadHeader g .maxHeight).toUInt32
    bytesPerPixel := (← loadHeader g .bytesPerPixel).toUInt32
    slotCount := (← loadHeader g .slotCount).toUInt32
    commandSlots := (← loadHeader g .commandSlots).toUInt32
    maxCommandBytes := (← loadHeader g .maxCommandBytes).toUInt32
  }

/-- The stored offsets that `validate_header` compares with the derived ones, in its order. -/
def comparisons (cl : LLLayout) : List (HeaderWord × UInt64) :=
  [(.slotsOffset, cl.slotsOffset), (.slotStride, cl.slotStride),
    (.downstreamOffset, cl.downstreamOffset), (.upstreamOffset, cl.upstreamOffset),
    (.ringStride, cl.ringStride), (.cmdStride, cl.cmdStride), (.totalSize, cl.totalSize)]

/-- Compares words of the header up to the first difference. -/
def agrees (g : Nat) : List (HeaderWord × UInt64) → Access Bool
  | [] => return true
  | (word, value) :: rest => do
      if value ≠ (← loadHeader g word) then return false
      agrees g rest

/-- `validate_header`. -/
def validateHeader (g : Nat) : Access (Option LLLayout) := do
  let size ← sizeOf g
  if size < sizeofLLHeader then return none
  if (← loadHeader g .magic).toUInt32 ≠ kMagic then return none
  if (← loadHeader g .version).toUInt32 ≠ kVersion then return none
  let c ← loadConfig g
  if !configValid c then return none
  let cl := computeLayout c
  if !(← agrees g (comparisons cl)) then return none
  if size < cl.totalSize then return none
  return some cl

/-- `now_ns()` minus a heartbeat word, in one order or the other. -/
def ageOf (g : Nat) (word : HeaderWord) : Access UInt64 := do
  if ← clockFirst then
    let now ← nowNs
    let beat ← loadHeader g word
    return now - beat
  else
    let beat ← loadHeader g word
    let now ← nowNs
    return now - beat

/-- The channel is claimed, and the claim's heartbeat is not stale. -/
def genuinelyHeld (g : Nat) (existing : UInt64) : Access Bool := do
  if existing = 0 then return false
  return (← ageOf g .commandOwnerHeartbeatNs) < kCommandOwnerStaleNs

/-- The claim that is in the header, and whether the exchange has put `claim` in its place;
`compare_exchange_weak` may fail spuriously.
-/
def exchangeWeak (g : Nat) (existing claim : UInt64) : Access (UInt64 × Bool) := do
  if ← spurious then
    return (← loadHeader g .commandOwnerGen, false)
  let found ← exchangeHeader g .commandOwnerGen existing claim
  return (found, found = existing)

/-- The loop that claims the command channel; after the rounds there is time for it goes on
no further.
-/
def claimLoop (g : Nat) (m : Impl) (existing : UInt64) : Nat → Access Impl
  | 0 => do nomatch ← access .stall
  | patience + 1 => do
      if ← genuinelyHeld g existing then return m
      let now ← nowNs
      let claim := if now = 0 then 1 else now
      let outcome ← exchangeWeak g existing claim
      if outcome.2 then
        storeHeader g .commandOwnerHeartbeatNs (← nowNs)
        return { m with ownsCommands := true, ownerGen := claim }
      claimLoop g m outcome.1 patience

/-- The adoption of a validated mapping: the header's fields are loaded once more, the channel
is claimed, the ring handles are set.
-/
def adopt (m : Impl) (g : Nat) (cl : LLLayout) : Access Impl := do
  let c ← loadConfig g
  let session ← loadHeader g .sessionId
  let adopted := m.adopt g c cl session
  let existing ← loadHeader g .commandOwnerGen
  let claimed ← claimLoop g adopted existing (← patience)
  return {
    claimed with
    tx := {
      base := some g
      offset := cl.upstreamOffset
      slots := c.commandSlots
      maxBytes := c.maxCommandBytes
    }
    rx := {
      base := some g
      offset := cl.downstreamOffset
      slots := c.commandSlots
      maxBytes := c.maxCommandBytes
    }
  }

/-- The session of a candidate is the one the subscriber is already reading. -/
def sameSession (m : Impl) (g : Nat) : Access Bool := do
  if m.hdr.isNone then return false
  return (← loadHeader g .sessionId) = m.session

/-- `try_connect`, whose result nobody looks at. -/
def tryConnect (m : Impl) : Access Impl := do
  let some g ← opens | return m
  let some cl ← validateHeader g | return m
  if ← sameSession m g then return m
  adopt m g cl

/-- `LLSubscriber::open`. -/
def openSubscriber (name : Name) : Access Impl := do
  tryConnect { name, lastProgress := ← nowNs }

-----------------------------------------------------------------------------------------
-- Polling
-----------------------------------------------------------------------------------------

/-- `still_owns_commands`: the claim is ours if `ownsCommands` is set afterwards. -/
def stillOwnsCommands (m : Impl) (g : Nat) : Access Impl := do
  if !m.ownsCommands then return m
  if (← loadHeader g .commandOwnerGen) ≠ m.ownerGen then
    return { m with ownsCommands := false }
  storeHeader g .commandOwnerHeartbeatNs (← nowNs)
  return m

/-- `producer_responsive`. -/
def producerResponsive (m : Impl) : Access Bool := do
  let some g := m.hdr | return false
  return (← ageOf g .lastHeartbeatNs) < m.staleNs

/-- The first thing `poll` does when attached. -/
def refreshClaim (m : Impl) : Access Impl := do
  let some g := m.hdr | return m
  stillOwnsCommands m g

/-- `poll`. -/
def poll (m : Impl) : Access (Impl × Bool) := do
  let now ← nowNs
  let m ← refreshClaim m
  if m.hdr.isSome && now - m.lastProgress < m.staleNs then return (m, true)
  if ← producerResponsive m then return (m, true)
  if now - m.lastAttempt < m.retryNs then return (m, false)
  let connected ← tryConnect { m with lastAttempt := now }
  let m := { connected with lastProgress := now }
  return (m, ← producerResponsive m)

-----------------------------------------------------------------------------------------
-- Reading frames
-----------------------------------------------------------------------------------------

/-- What `read_latest` hands back; `dst` are the bytes of its last copy. -/
structure ReadReturn where
  result : LLReadResult
  info : LLFrameInfo
  dst : List UInt8 := []

/-- The metadata of a slot, field by field. -/
def loadInfo (g : Nat) (l : LLLayout) (slot : UInt32) : Access LLFrameInfo := do
  return {
    frameId := ← loadSlot g l slot .frameId
    timestampNs := ← loadSlot g l slot .timestampNs
    width := (← loadSlot g l slot .width).toUInt32
    height := (← loadSlot g l slot .height).toUInt32
    stride := (← loadSlot g l slot .stride).toUInt32
    payloadBytes := (← loadSlot g l slot .payloadBytes).toUInt32
  }

/-- Nothing new: shut down, or just not yet. -/
def concludeNothing (m : Impl) (g : Nat) (info : LLFrameInfo) : Access (Impl × ReadReturn) := do
  if (← loadHeader g .shutdown).toUInt32 ≠ 0 then
    return ({ m with peerShutdown := true }, { result := .disconnected, info })
  return (m, { result := .noNewFrame, info })

/-- How one attempt on a slot goes on after its metadata has been loaded: none for another
attempt.
-/
def readSlot (m : Impl) (g : Nat) (capacity : UInt64) (info : LLFrameInfo) (slot : UInt32)
    (before : UInt64)
    : Access (Option (Impl × ReadReturn)) := do
  let fi ← loadInfo g m.layout slot
  let bytes := fi.payloadBytes.toUInt64
  if bytes = 0 || bytes > m.remote.maxPayload then
    if (← loadSlot g m.layout slot .seq) ≠ before then return none
    return some (m, { result := .contended, info })
  if bytes > capacity then
    if (← loadSlot g m.layout slot .seq) ≠ before then return none
    return some (m, { result := .bufferTooSmall, info := fi })
  let dst ← copyOut g (.slotPayload slot) (slotPayload m.layout slot) bytes.toNat
  if (← loadSlot g m.layout slot .seq) ≠ before then return none
  return some (m.deliver fi (← nowNs), { result := .ok, info := fi, dst })

/-- The attempts of `read_latest` that are left. -/
def readAttempts (m : Impl) (g : Nat) (capacity : UInt64) (info : LLFrameInfo)
    : Nat → Access (Impl × ReadReturn)
  | 0 => return (m, { result := .contended, info })
  | attempts + 1 => do
      let packed ← loadHeader g .latest
      if m.nothingNew packed then
        concludeNothing m g info
      else
        let slot := latestSlot packed
        if slot ≥ m.remote.slotCount then return (m, { result := .contended, info })
        let before ← loadSlot g m.layout slot .seq
        if before &&& 1 ≠ 0 then readAttempts m g capacity info attempts
        else
          match ← readSlot m g capacity info slot before with
          | some outcome => return outcome
          | none => readAttempts m g capacity info attempts

/-- The rate gate of the raw overload; the clock is only read when there is a limit. -/
def rateGate (m : Impl) : Access (Impl × Bool) := do
  if m.minReadNs = 0 then return (m, true)
  return m.readGate (← nowNs)

/-- `read_latest(dst, capacity, info)`. -/
def readLatest (m : Impl) (capacity : UInt64) (info : LLFrameInfo)
    : Access (Impl × ReadReturn) := do
  let polled ← poll m
  if !polled.2 then return (polled.1, { result := .disconnected, info })
  let gated ← rateGate polled.1
  if !gated.2 then return (gated.1, { result := .throttled, info })
  let some g := gated.1.hdr | return (gated.1, { result := .disconnected, info })
  readAttempts gated.1 g capacity info 4

/-- The cheap gate of the vector overload, which notes no time. -/
def cheapGate (m : Impl) : Access (Impl × Bool) := do
  if m.minReadNs = 0 || m.lastReadNs = 0 then return (m, true)
  if (← nowNs) - m.lastReadNs < m.minReadNs then
    return ({ m with throttled := m.throttled + 1 }, false)
  return (m, true)

/-- `read_latest(dst, info)` on a vector of some size, which grows to the maximal payload. -/
def readLatestVector (m : Impl) (size : UInt64) (info : LLFrameInfo)
    : Access (Impl × ReadReturn) := do
  let polled ← poll m
  if !polled.2 then return (polled.1, { result := .disconnected, info })
  let gated ← cheapGate polled.1
  if !gated.2 then return (gated.1, { result := .throttled, info })
  let need := gated.1.remote.maxPayload
  readLatest gated.1 (if size < need then need else size) info

-----------------------------------------------------------------------------------------
-- Commands
-----------------------------------------------------------------------------------------

/-- The subscriber's ring handles. -/
def txHandle (m : Impl) : RingHandle := { direction := .upstream, ring := m.tx, layout := m.layout }

def rxHandle (m : Impl) : RingHandle :=
  { direction := .downstream, ring := m.rx, layout := m.layout }

/-- `send`: the identifier of the command, if it was accepted. -/
def send (m : Impl) (call : Commands.PushCall) : Access (Impl × Option UInt64) := do
  let some g := m.hdr | return (m, none)
  let m ← stillOwnsCommands m g
  if !m.ownsCommands then return (m, none)
  let id := m.nextCmd
  let pushed ← (txHandle m).push { call with id, timestampNs := ← nowNs }
  if !pushed then return ({ m with cmdDropped := m.cmdDropped + 1 }, none)
  return ({ m with nextCmd := m.nextCmd + 1, sent := m.sent + 1 }, some id)

/-- `receive`. -/
def receive (m : Impl) : Access (Impl × Option Commands.LLShmCommand) := do
  let some g := m.hdr | return (m, none)
  let m ← stillOwnsCommands m g
  if !m.ownsCommands then return (m, none)
  let some command ← (rxHandle m).pop | return (m, none)
  return ({ m with recvd := m.recvd + 1, lastProgress := ← nowNs }, some command)

/-- The destructor. -/
def close (m : Impl) : Access Unit := do
  let some g := m.hdr | return ()
  if m.ownsCommands then
    let _ ← exchangeHeader g .commandOwnerGen m.ownerGen 0

end ShmFrame.Accesses
