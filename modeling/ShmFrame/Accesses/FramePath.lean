import ShmFrame.Accesses.SegmentContent
import ShmFrame.Calls.Geometry
import ShmFrame.Foundation.Hidden
import ShmFrame.Foundation.Party

/-! One publisher and any number of subscribers on the same bytes, one access at a time: the
publisher's frame calls as programs, and the machine in which all calls are interleaved.
-/

namespace ShmFrame.Accesses

open ShmFrame.Foundation

-----------------------------------------------------------------------------------------
-- The publisher's frame calls
-----------------------------------------------------------------------------------------

section Publisher

open LLPublisher

/-- Makes the sequence word of a slot odd or even. -/
def stepSeq (g : Nat) (l : LLLayout) (index : UInt32) : Access Unit := do
  let s0 ← loadSlot g l index .seq
  storeSlot g l index .seq (s0 + 1)

/-- The reading of the clock for the rate gate, which is only made when there is a limit. -/
def gateClock (m : Impl) : Access UInt64 := if m.minIntervalNs = 0 then return 0 else nowNs

/-- The time stamp of a frame, read from the clock if none is given. -/
def stampOf (timestampNs : UInt64) : Access UInt64 :=
  if timestampNs = 0 then nowNs else return timestampNs

/-- `begin_write`: the offset of the payload it hands out, none for a null pointer. -/
def beginWrite (g : Nat) (m : Impl) (width height : UInt32) : Access (Impl × Option UInt64) := do
  if m.pending.isSome || width = 0 || height = 0 then return (m, none)
  let admitted := m.admitWrite width height (← gateClock m)
  if !admitted.2 then return (admitted.1, none)
  let m := admitted.1
  let l := computeLayout m.cfg
  let info := geometry m.cfg width height
  stepSeq g l m.writeSlot
  storeSlot g l m.writeSlot .width info.width.toUInt64
  storeSlot g l m.writeSlot .height info.height.toUInt64
  storeSlot g l m.writeSlot .stride info.stride.toUInt64
  storeSlot g l m.writeSlot .payloadBytes info.payloadBytes.toUInt64
  return ({ m with pending := some m.writeSlot }, some (slotPayload l m.writeSlot))

/-- `cancel_write`. -/
def cancelWrite (g : Nat) (m : Impl) : Access Impl := do
  let some index := m.pending | return m
  stepSeq g (computeLayout m.cfg) index
  return { m with pending := none }

/-- `commit`. -/
def commit (g : Nat) (m : Impl) (timestampNs : UInt64) : Access Impl := do
  let some index := m.pending | return m
  let l := computeLayout m.cfg
  let frameId := m.frameId + 1
  storeSlot g l index .frameId frameId
  storeSlot g l index .timestampNs (← stampOf timestampNs)
  stepSeq g l index
  storeHeader g .latest (packLatest frameId m.writeSlot)
  let published ← nowNs
  storeHeader g .lastHeartbeatNs published
  return { m with frameId, pending := none, lastPublishNs := published }

/-- The copies of `publish` into a slot, one after the other. -/
def copyRows (g : Nat) (index : UInt32) (payload : UInt64) (src : Nat → UInt8)
    : List Calls.RowCopy → Access Unit
  | [] => return ()
  | copy :: rest => do
      copyIn g (.slotPayload index) (payload.toNat + copy.offset.toNat)
        (fun byte => src (copy.source.toNat + byte)) copy.length.toNat
      copyRows g index payload src rest

/-- `publish`; `src` is none for a null pointer. -/
def publish (g : Nat) (m : Impl) (src : Option (Nat → UInt8)) (width height srcStride : UInt32)
    : Access (Impl × Bool) := do
  let some src := src | return (m, false)
  let begun ← beginWrite g m width height
  let some payload := begun.2 | return (begun.1, false)
  copyRows g begun.1.writeSlot payload src (Calls.rowCopies m.cfg width height srcStride)
  return (← commit g begun.1 0, true)

end Publisher

/-- A call on the frame path. -/
inductive PublisherCall
  | beginWrite (width height : UInt32)
  | cancelWrite
  | commit (timestampNs : UInt64)
  | publish (src : Option (Nat → UInt8)) (width height srcStride : UInt32)
  | setMaxPublish (intervalNs : UInt64)

/-- What such a call returns. -/
inductive PublisherReturn
  | pointer (offset : Option UInt64)
  | published (accepted : Bool)
  | nothing
deriving DecidableEq

/-- The program of a call; the publisher's segment is the one with number zero. -/
def PublisherCall.program (m : LLPublisher.Impl)
    : PublisherCall → Access (LLPublisher.Impl × PublisherReturn)
  | .beginWrite width height => do
      let begun ← Accesses.beginWrite 0 m width height
      return (begun.1, .pointer begun.2)
  | .cancelWrite => do return (← Accesses.cancelWrite 0 m, .nothing)
  | .commit timestampNs => do return (← Accesses.commit 0 m timestampNs, .nothing)
  | .publish src width height srcStride => do
      let outcome ← Accesses.publish 0 m src width height srcStride
      return (outcome.1, .published outcome.2)
  | .setMaxPublish intervalNs => return ({ m with minIntervalNs := intervalNs }, .nothing)

-----------------------------------------------------------------------------------------
-- The machine
-----------------------------------------------------------------------------------------

/-- A call of a subscriber, and private settings. -/
inductive SubscriberCall
  | open_ (name : Name)
  | poll
  | readLatest (capacity : UInt64) (info : LLFrameInfo)
  | readLatestVector (size : UInt64) (info : LLFrameInfo)
  | send (call : Commands.PushCall)
  | receive
  | close
  | configure (staleNs retryNs minReadNs : UInt64)

/-- The program of a call, for what it does to the private state. -/
def SubscriberCall.program (m : LLSubscriber.Impl) : SubscriberCall → Access LLSubscriber.Impl
  | .open_ name => openSubscriber name
  | .poll => do return (← Accesses.poll m).1
  | .readLatest capacity info => do return (← Accesses.readLatest m capacity info).1
  | .readLatestVector size info => do return (← Accesses.readLatestVector m size info).1
  | .send call => do return (← Accesses.send m call).1
  | .receive => do return (← Accesses.receive m).1
  | .close => do
      Accesses.close m
      return {}
  | .configure staleNs retryNs minReadNs => return { m with staleNs, retryNs, minReadNs }

/-- The publisher: its private state, what is left of a running call, and all that its calls
have returned so far.
-/
structure PublisherSide where
  impl : LLPublisher.Impl
  running : Option (Access (LLPublisher.Impl × PublisherReturn)) := none
  returns : List PublisherReturn := []

/-- A subscriber, with what is left of a running call. -/
structure SubscriberSide where
  impl : LLSubscriber.Impl := {}
  running : Option (Access LLSubscriber.Impl) := none

/-- The bytes of all segments, the publisher and all subscribers. -/
structure Shared where
  bytes : Nat → Bytes
  publisher : PublisherSide
  subscribers : Nat → SubscriberSide := fun _ => {}

/-- What the publisher's side does next: a call begins, performs its next access or question,
or returns; the caller stores a byte through the pointer it was handed.
-/
inductive PublisherMove
  | call (call : PublisherCall)
  | access (nowNs : UInt64)
  | finish
  | storeByte (index : Nat) (byte : UInt8)

/-- What a subscriber does next. It may crash at any point. -/
inductive SubscriberMove
  | call (call : SubscriberCall)
  | access (reply : Reply)
  | finish
  | crash

/-- One step of the publisher, of some subscriber, or of anybody in another segment. -/
inductive SharedAction
  | publisher (move : PublisherMove)
  | subscriber (who : Nat) (move : SubscriberMove)
  | elsewhere (g offset : Nat) (byte : UInt8)

/-- What an effect does to the bytes. -/
def Effect.apply (bytes : Nat → Bytes) : Effect → Nat → Bytes
  | .store g _ span value => assign bytes g (storeAt (bytes g) span value)
  | .exchange g _ span expected desired =>
      if wordAt (bytes g) span = expected then assign bytes g (storeAt (bytes g) span desired)
      else bytes
  | .load .. | .copyOut .. | .ask _ | .stall => bytes

/-- Performs the next effect of a program. -/
def advance {Value : Type} (size : Nat → UInt64) (bytes : Nat → Bytes) (reply : Reply)
    : Access Value → Option (Access Value × (Nat → Bytes))
  | .done _ => none
  | .perform effect next =>
      (effect.answer size bytes reply).map fun answer => (next answer, effect.apply bytes)

namespace Shared

/-- A publisher that has just been created on some bytes. -/
def create (cfg : LLConfig) (bytes : Nat → Bytes) : Shared where
  bytes := bytes
  publisher := { impl := { cfg } }

variable (size : Nat → UInt64) (s : Shared)

def publisherStep : PublisherMove → Option Shared
  | .call call =>
      match s.publisher.running with
      | some _ => none
      | none =>
          let running := some (call.program s.publisher.impl)
          some { s with publisher := { s.publisher with running } }
  | .access nowNs =>
      match s.publisher.running with
      | none => none
      | some program =>
          (advance size s.bytes { nowNs } program).map fun next =>
            { s with
              bytes := next.2
              publisher := { s.publisher with running := some next.1 } }
  | .finish =>
      match s.publisher.running with
      | some (.done (impl, value)) =>
          let returns := value :: s.publisher.returns
          some { s with publisher := { impl, running := none, returns } }
      | _ => none
  | .storeByte index byte =>
      match s.publisher.running, s.publisher.impl.pending with
      | none, some slot =>
          let cfg := s.publisher.impl.cfg
          if index < cfg.maxPayload.toNat then
            let span : Span := ⟨(slotPayload (computeLayout cfg) slot).toNat + index, 1⟩
            some { s with bytes := assign s.bytes 0 (storeAt (s.bytes 0) span byte.toUInt64) }
          else none
      | _, _ => none

def setSubscriber (who : Nat) (p : SubscriberSide) : Shared :=
  { s with subscribers := assign s.subscribers who p }

def subscriberStep (who : Nat) : SubscriberMove → Option Shared
  | .call call =>
      let p := s.subscribers who
      match p.running with
      | some _ => none
      | none => some (s.setSubscriber who { p with running := some (call.program p.impl) })
  | .access reply =>
      let p := s.subscribers who
      match p.running with
      | none => none
      | some program =>
          (advance size s.bytes reply program).map fun next =>
            { s.setSubscriber who { p with running := some next.1 } with bytes := next.2 }
  | .finish =>
      match (s.subscribers who).running with
      | some (.done impl) => some (s.setSubscriber who { impl })
      | _ => none
  | .crash => some (s.setSubscriber who {})

/-- One step; the size of every mapping is fixed. -/
def step : SharedAction → Option Shared
  | .publisher move => s.publisherStep size move
  | .subscriber who move => s.subscriberStep size who move
  | .elsewhere g offset byte =>
      if g = 0 then none
      else some { s with bytes := assign s.bytes g (storeAt (s.bytes g) ⟨offset, 1⟩ byte.toUInt64) }

end Shared

/-- Everybody on the same bytes, interleaved in any order. -/
def sharedMachine (size : Nat → UInt64) : Machine Shared SharedAction where
  step := Shared.step size

/-- An action of the publisher's side. -/
def SharedAction.ofPublisher : SharedAction → Bool
  | .publisher _ => true
  | .subscriber .. | .elsewhere .. => false

end ShmFrame.Accesses
