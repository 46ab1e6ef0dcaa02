import ShmFrame.Commands.Ring
import ShmFrame.Segment.Header

/-! The subscriber's calls, each performed without interruption: `try_connect`, `poll` and
both overloads of `read_latest`, as programs over the words of the segments there are, the
binding of the name, the readings of the clock and the private state.
-/

namespace ShmFrame.Calls

open ShmFrame.Commands

/-- A mapped segment. -/
structure Segment where
  size : UInt64 := 0
  header : LLHeader := {}
  slots : Nat → Slot := fun _ => {}
  down : RingData := {}
  up : RingData := {}

/-- What the name is bound to, and all segments anybody may have mapped. -/
structure World where
  segments : Nat → Segment
  bound : Option Nat

def World.setSegment (w : World) (g : Nat) (segment : Segment) : World :=
  { w with segments := fun other => if other = g then segment else w.segments other }

/-- A segment that was replaced is what is then found there. -/
@[simp] theorem World.setSegment_same (w : World) (g : Nat) (segment : Segment)
    : (w.setSegment g segment).segments g = segment :=
  if_pos rfl

/-- A subscriber with the shared words it works on and the clock readings to come. -/
structure Subscriber where
  impl : LLSubscriber.Impl := {}
  world : World
  clock : Nat → UInt64

/-- A call of a subscriber. -/
abbrev Call := StateM Subscriber

-----------------------------------------------------------------------------------------
-- Loads, stores and readings
-----------------------------------------------------------------------------------------

namespace Call

/-- The next reading of the clock. -/
def nowNs : Call UInt64 :=
  modifyGet fun s => (s.clock 0, { s with clock := fun index => s.clock (index + 1) })

def impl : Call LLSubscriber.Impl := modifyGet fun s => (s.impl, s)

def setImpl (m : LLSubscriber.Impl) : Call Unit := modify fun s => { s with impl := m }

def bound : Call (Option Nat) := modifyGet fun s => (s.world.bound, s)

def sizeOf (g : Nat) : Call UInt64 := modifyGet fun s => ((s.world.segments g).size, s)

def header (g : Nat) : Call LLHeader := modifyGet fun s => ((s.world.segments g).header, s)

def slot (g index : Nat) : Call Slot :=
  modifyGet fun s => ((s.world.segments g).slots index, s)

/-- Stores the two owner words; nothing else of a header is ever stored by a subscriber. -/
def setHeader (g : Nat) (gen beat : LLHeader → UInt64) : Call Unit :=
  modify fun s =>
    let segment := s.world.segments g
    let h := segment.header
    let header := { h with commandOwnerGen := gen h, commandOwnerHeartbeatNs := beat h }
    { s with world := s.world.setSegment g { segment with header } }

def storeOwnerGen (g : Nat) (gen : UInt64) : Call Unit :=
  setHeader g (fun _ => gen) (·.commandOwnerHeartbeatNs)

def storeOwnerHeartbeat (g : Nat) (now : UInt64) : Call Unit :=
  setHeader g (·.commandOwnerGen) fun _ => now

variable {Value Result : Type} (s : Subscriber)

/-- Calls run one after the other. -/
theorem run_bind (first : Call Value) (second : Value → Call Result)
    : (first >>= second).run s = (second (first.run s).1).run (first.run s).2 :=
  rfl

theorem run_pure (value : Value) : (pure value : Call Value).run s = (value, s) := rfl

theorem run_ite {condition : Prop} [Decidable condition] (yes no : Call Value)
    : (if condition then yes else no).run s = if condition then yes.run s else no.run s := by
  split <;> rfl

@[simp] theorem run_nowNs
    : nowNs.run s = (s.clock 0, { s with clock := fun index => s.clock (index + 1) }) :=
  rfl

@[simp] theorem run_impl : impl.run s = (s.impl, s) := rfl

@[simp] theorem run_setImpl (m : LLSubscriber.Impl)
    : (setImpl m).run s = ((), { s with impl := m }) :=
  rfl

@[simp] theorem run_bound : bound.run s = (s.world.bound, s) := rfl

@[simp] theorem run_sizeOf (g : Nat) : (sizeOf g).run s = ((s.world.segments g).size, s) := rfl

@[simp] theorem run_header (g : Nat)
    : (header g).run s = ((s.world.segments g).header, s) :=
  rfl

@[simp] theorem run_slot (g index : Nat)
    : (slot g index).run s = ((s.world.segments g).slots index, s) :=
  rfl

end Call

open Call

-----------------------------------------------------------------------------------------
-- Attaching and polling
-----------------------------------------------------------------------------------------

/-- What the system contributes to an attempt to connect: whether the object behind the
name can be mapped, and how often `compare_exchange_weak` fails spuriously.
-/
structure Circumstances where
  maps : Bool := true
  spurious : Nat := 0

/-- True while the claim is still ours; refreshes its heartbeat. -/
def stillOwnsCommands (g : Nat) : Call Bool := do
  let m ← impl
  if !m.ownsCommands then return false
  let h ← header g
  if h.commandOwnerGen ≠ m.ownerGen then
    setImpl { m with ownsCommands := false }
    return false
  storeOwnerHeartbeat g (← nowNs)
  return true

/-- The channel is claimed, and the claim's heartbeat is not stale. -/
def genuinelyHeld (g : Nat) : Call Bool := do
  let h ← header g
  if h.commandOwnerGen = 0 then return false
  return (← nowNs) - h.commandOwnerHeartbeatNs < kCommandOwnerStaleNs

/-- The loop that claims the command channel. Nobody interferes, so the exchange fails only
spuriously.
-/
def claimLoop (g : Nat) (spurious : Nat) : Call Unit := do
  if ← genuinelyHeld g then return
  let now ← nowNs
  let claim := if now = 0 then 1 else now
  match spurious with
  | spurious + 1 => claimLoop g spurious
  | 0 =>
      storeOwnerGen g claim
      setImpl { (← impl) with ownsCommands := true, ownerGen := claim }
      storeOwnerHeartbeat g (← nowNs)

/-- `LLSegment::open`: the segment the name is bound to, if it can be mapped. -/
def openSegment (system : Circumstances) : Call (Option Nat) := do
  let some g ← bound | return none
  if !system.maps || (← sizeOf g) = 0 then return none
  return some g

/-- Validates a candidate mapping and adopts it if it is a new session. -/
def tryConnect (system : Circumstances) : Call Bool := do
  let some g ← openSegment system | return false
  let h ← header g
  let some cl := validateHeader (← sizeOf g) h | return false
  let m ← impl
  if m.hdr.isSome && h.sessionId = m.session then return true
  setImpl (m.adopt g h.config cl h.sessionId)
  claimLoop g system.spurious
  let m ← impl
  let tx := { m.remote.upstreamRing with base := some g }
  let rx := { m.remote.downstreamRing with base := some g }
  setImpl { m with tx, rx }
  return true

/-- The producer's heartbeat is fresh. -/
def producerResponsive : Call Bool := do
  let m ← impl
  let some g := m.hdr | return false
  let h ← header g
  return (← nowNs) - h.lastHeartbeatNs < m.staleNs

/-- The first thing `poll` does when attached. -/
def refreshClaim : Call Bool := do
  let m ← impl
  let some g := m.hdr | return false
  stillOwnsCommands g

def poll (system : Circumstances) : Call Bool := do
  let now ← nowNs
  let _ ← refreshClaim
  let m ← impl
  if m.hdr.isSome && now - m.lastProgress < m.staleNs then return true
  if ← producerResponsive then return true
  if now - m.lastAttempt < m.retryNs then return false
  setImpl { m with lastAttempt := now }
  let _ ← tryConnect system
  setImpl { (← impl) with lastProgress := now }
  producerResponsive

/-- `LLSubscriber::open`. -/
def openSubscriber (name : Name) (system : Circumstances) : Call Unit := do
  setImpl { name, lastProgress := ← nowNs }
  let _ ← tryConnect system

-----------------------------------------------------------------------------------------
-- Reading frames
-----------------------------------------------------------------------------------------

/-- The caller's buffer. -/
structure Buffer where
  bytes : Nat → UInt8 := fun _ => 0
  size : UInt64 := 0

/-- Everything `read_latest` hands back: the result, and the arguments it may have set. -/
structure ReadReturn where
  result : LLReadResult
  info : LLFrameInfo
  dst : Buffer

/-- The attempts of `read_latest` that are left. Nobody interferes, so the second load of
the sequence word agrees with the first one.
-/
def readAttempts (g : Nat) (dst : Buffer) (info : LLFrameInfo) : Nat → Call ReadReturn
  | 0 => return { result := .contended, info, dst }
  | attempts + 1 => do
      let m ← impl
      let h ← header g
      let packed := h.latest
      if m.nothingNew packed then
        if h.shutdown ≠ 0 then
          setImpl { m with peerShutdown := true }
          return { result := .disconnected, info, dst }
        return { result := .noNewFrame, info, dst }
      if latestSlot packed ≥ m.remote.slotCount then
        return { result := .contended, info, dst }
      let s ← slot g (latestSlot packed).toNat
      if s.header.seq &&& 1 ≠ 0 then readAttempts g dst info attempts
      else
        let fi := s.header.info
        let bytes := fi.payloadBytes.toUInt64
        if bytes = 0 || bytes > m.remote.maxPayload then
          return { result := .contended, info, dst }
        if bytes > dst.size then return { result := .bufferTooSmall, info := fi, dst }
        let copied (index : Nat) : UInt8 :=
          if index < bytes.toNat then s.payload index else dst.bytes index
        setImpl (m.deliver fi (← nowNs))
        return { result := .ok, info := fi, dst := { dst with bytes := copied } }

/-- The rate gate of the raw overload; the clock is only read when there is a limit. -/
def rateGate : Call Bool := do
  let m ← impl
  if m.minReadNs = 0 then return true
  let gate := m.readGate (← nowNs)
  setImpl gate.1
  return gate.2

/-- `read_latest(dst, capacity, info)`. -/
def readLatest (system : Circumstances) (dst : Buffer) (info : LLFrameInfo)
    : Call ReadReturn := do
  if !(← poll system) then return { result := .disconnected, info, dst }
  if !(← rateGate) then return { result := .throttled, info, dst }
  let m ← impl
  let some g := m.hdr | return { result := .disconnected, info, dst }
  readAttempts g dst info 4

/-- Grows the buffer to a size, with zero bytes. -/
def Buffer.resize (dst : Buffer) (size : UInt64) : Buffer :=
  if dst.size < size then
    {
      bytes := fun index => if index < dst.size.toNat then dst.bytes index else 0
      size := size
    }
  else dst

/-- The cheap gate of the vector overload, which notes no time. -/
def cheapGate : Call Bool := do
  let m ← impl
  if m.minReadNs = 0 || m.lastReadNs = 0 then return true
  if (← nowNs) - m.lastReadNs < m.minReadNs then
    setImpl { m with throttled := m.throttled + 1 }
    return false
  return true

/-- `read_latest(dst, info)`: the cheap gate first, then the other overload. -/
def readLatestVector (first second : Circumstances) (dst : Buffer) (info : LLFrameInfo)
    : Call ReadReturn := do
  if !(← poll first) then return { result := .disconnected, info, dst }
  if !(← cheapGate) then return { result := .throttled, info, dst }
  let m ← impl
  readLatest second (dst.resize m.remote.maxPayload) info

end ShmFrame.Calls
