import ShmFrame.Calls.Subscriber
import ShmFrame.Foundation.Run

/-! The publisher's calls on the frame path, each performed without interruption, and the
states they lead to.
-/

namespace ShmFrame.Calls

open ShmFrame.Commands ShmFrame.Foundation

/-- A publisher with its segment. -/
structure Publisher where
  impl : LLPublisher.Impl
  segment : Segment

namespace Publisher

/-- A publisher as `create` returns it. -/
def create (cfg : LLConfig) (session now : UInt64) : Publisher where
  impl := { cfg }
  segment := {
    size := (computeLayout cfg).totalSize
    header := { LLHeader.initialise cfg session now with magic := kMagic }
  }

def setSlot (p : Publisher) (index : Nat) (slot : Slot) : Publisher :=
  let slots other := if other = index then slot else p.segment.slots other
  { p with segment := { p.segment with slots } }

/-- The slot the publisher has selected last. -/
def slot (p : Publisher) : Slot := p.segment.slots p.impl.writeSlot.toNat

/-- `begin_write`; false where the source returns a null pointer. -/
def beginWrite (p : Publisher) (width height : UInt32) (now : UInt64) : Publisher × Bool :=
  let (impl, admitted) := p.impl.admitWrite width height now
  if admitted then
    let selected := { p with impl }
    let header := selected.slot.header
    let geometry := LLPublisher.geometry p.impl.cfg width height
    let stored := {
      selected.slot with
      header := {
        seq := header.seq + 1
        info := { geometry with
          frameId := header.info.frameId
          timestampNs := header.info.timestampNs }
      }
    }
    let marked := selected.setSlot impl.writeSlot.toNat stored
    ({ marked with impl := { impl with pending := some impl.writeSlot } }, true)
  else ({ p with impl }, false)

/-- The caller stores a byte through the pointer it was handed. -/
def storeByte (p : Publisher) (offset : Nat) (byte : UInt8) : Option Publisher :=
  match p.impl.pending with
  | some index =>
      if offset < p.impl.cfg.maxPayload.toNat then
        let s := p.segment.slots index.toNat
        let payload other := if other = offset then byte else s.payload other
        some (p.setSlot index.toNat { s with payload })
      else none
  | none => none

/-- Makes the sequence word of a slot even again, or odd. -/
def stepSeq (p : Publisher) (index : UInt32) : Publisher :=
  let s := p.segment.slots index.toNat
  p.setSlot index.toNat { s with header := { s.header with seq := s.header.seq + 1 } }

/-- `cancel_write`. -/
def cancelWrite (p : Publisher) : Publisher :=
  match p.impl.pending with
  | none => p
  | some index =>
      let settled := p.stepSeq index
      { settled with impl := { p.impl with pending := none } }

/-- `commit`; the clock is read for a missing time stamp and for the heartbeat. -/
def commit (p : Publisher) (timestamp now published : UInt64) : Publisher :=
  match p.impl.pending with
  | none => p
  | some index =>
      let frameId := p.impl.frameId + 1
      let s := p.segment.slots index.toNat
      let timestampNs := if timestamp ≠ 0 then timestamp else now
      let info := { s.header.info with frameId, timestampNs }
      let numbered := p.setSlot index.toNat { s with header := { s.header with info } }
      let settled := numbered.stepSeq index
      let header := {
        settled.segment.header with
        latest := packLatest frameId p.impl.writeSlot
        lastHeartbeatNs := published
      }
      {
        impl := { p.impl with frameId, pending := none, lastPublishNs := published }
        segment := { settled.segment with header }
      }

/-- `heartbeat`. -/
def heartbeat (p : Publisher) (now : UInt64) : Publisher :=
  let header := { p.segment.header with lastHeartbeatNs := now }
  { p with segment := { p.segment with header } }

end Publisher

/-- What can happen to a publisher and its segment: its own calls, the caller's stores into
the slot it was handed, and whatever subscribers store into the words that are theirs.
-/
inductive PublisherAction
  | beginWrite (width height : UInt32) (now : UInt64)
  | storeByte (offset : Nat) (byte : UInt8)
  | cancelWrite
  | commit (timestamp now published : UInt64)
  | heartbeat (now : UInt64)
  | setMaxPublish (intervalNs : UInt64)
  | subscribers (gen beat : UInt64) (down up : RingData)

/-- One action; all are possible at any time but a store without a pointer. -/
def Publisher.step (p : Publisher) (action : PublisherAction) : Option Publisher :=
  match action with
  | .beginWrite width height now => some (p.beginWrite width height now).1
  | .storeByte offset byte => p.storeByte offset byte
  | .cancelWrite => some p.cancelWrite
  | .commit timestamp now published => some (p.commit timestamp now published)
  | .heartbeat now => some (p.heartbeat now)
  | .setMaxPublish intervalNs =>
      some { p with impl := { p.impl with minIntervalNs := intervalNs } }
  | .subscribers gen beat down up =>
      let h := p.segment.header
      let header := { h with commandOwnerGen := gen, commandOwnerHeartbeatNs := beat }
      some { p with segment := { p.segment with header, down, up } }

/-- A publisher's calls in any order. -/
def publisherMachine : Machine Publisher PublisherAction where
  step := Publisher.step

end ShmFrame.Calls
