import ShmFrame.Foundation.Run
import ShmFrame.Segment.Endpoints

/-! The publisher's side of the frame path, one shared-memory access at a time.
A call is entered by its own action, which runs the private code up to the first access;
each further `access` performs the next load or store of the call in source order.
-/

namespace ShmFrame.Frames

open ShmFrame.Foundation

/-- A published frame: its metadata as committed and its payload as it was at the commit. -/
structure Frame where
  info : LLFrameInfo
  payload : Nat → UInt8

/-- Where the publisher stands inside `begin_write`, `cancel_write` or `commit`. Values
already loaded, and fields still to be stored, are carried along.
-/
inductive WritePhase
  | ready
  | beginLoadSeq
  | beginStoreSeq (seq : UInt64)
  | beginStoreInfo (rest : List InfoField)
  | cancelLoadSeq
  | cancelStoreSeq (seq : UInt64)
  | commitStoreInfo (rest : List InfoField)
  | commitLoadSeq
  | commitStoreSeq (seq : UInt64)
  | commitStoreLatest
  | commitStoreHeartbeat
  | closed

/-- The publisher with the memory it writes. `target` holds the metadata of the frame being
written, from the arguments of `begin_write` and `commit`. The last two fields are history
variables, newest first: the frames whose commit made their slot stable, and the values
stored to `latest`. No step reads them.
-/
structure WriterData where
  memory : FrameMemory
  impl : LLPublisher.Impl
  target : LLFrameInfo := {}
  committed : List Frame := []
  latestLog : List UInt64 := []

/-- A publisher at a cut of its calls. -/
structure Writer extends WriterData where
  phase : WritePhase := .ready

/-- Publisher actions: entering a call, the caller's own stores into the returned slot, a
change of the rate cap, and the next access of the call in progress. `now` is the reading
of the clock where the step takes one.
-/
inductive WriteAction
  | beginWrite (width height : UInt32) (now : UInt64)
  | storePayload (offset : Nat) (byte : UInt8)
  | commit (timestamp now : UInt64)
  | cancelWrite
  | setMaxPublish (intervalNs : UInt64)
  | close
  | access (now : UInt64)

namespace WriterData

/-- The index of the slot the publisher writes: the pending one once `begin_write` has
returned, the one just selected before that.
-/
def current (d : WriterData) : Nat := (d.impl.pending.getD d.impl.writeSlot).toNat

/-- The slot the publisher writes. -/
def slot (d : WriterData) : Slot := d.memory.slots d.current

/-- Replaces the slot being written. -/
def storeSlot (d : WriterData) (slot : Slot) : WriterData :=
  { d with memory := d.memory.setSlot d.current slot }

/-- Stores one metadata field of `target` into the slot being written. -/
def storeField (d : WriterData) (field : InfoField) : WriterData :=
  let header := d.slot.header
  d.storeSlot
    { d.slot with header := { header with info := field.copy d.target header.info } }

/-- Stores the sequence word of the slot being written. -/
def storeSeq (d : WriterData) (seq : UInt64) : WriterData :=
  d.storeSlot { d.slot with header := { d.slot.header with seq } }

/-- Stores one byte into the payload area of the slot being written. -/
def storeByte (d : WriterData) (offset : Nat) (byte : UInt8) : WriterData :=
  d.storeSlot { d.slot with payload := Function.update d.slot.payload offset byte }

/-- `begin_write` returns the payload pointer and leaves the write pending. -/
def returnPointer (d : WriterData) : WriterData :=
  { d with impl := { d.impl with pending := some d.impl.writeSlot } }

/-- The sequence word has been made even again: the frame is recorded as committed. -/
def recordCommit (d : WriterData) : WriterData :=
  { d with committed := { info := d.target, payload := d.slot.payload } :: d.committed }

/-- `commit` stores `latest`, drops the pending write and notes the time. -/
def storeLatest (d : WriterData) (now : UInt64) : WriterData :=
  let packed := packLatest d.impl.frameId d.impl.writeSlot
  {
    d with
    memory := { d.memory with latest := packed }
    impl := { d.impl with pending := none, lastPublishNs := now }
    latestLog := packed :: d.latestLog
  }

/-- `commit` refreshes the producer's heartbeat last. -/
def storeHeartbeat (d : WriterData) : WriterData :=
  { d with memory := { d.memory with lastHeartbeatNs := d.impl.lastPublishNs } }

end WriterData

namespace Writer

/-- A publisher right after `create` stored the magic. -/
def create (cfg : LLConfig) (now : UInt64) : Writer where
  memory := { lastHeartbeatNs := now }
  impl := { cfg }

/-- The next shared-memory access of the call in progress. -/
def access (w : Writer) (now : UInt64) : Option Writer :=
  match w.phase with
  | .ready => none
  | .beginLoadSeq => some ⟨w.toWriterData, .beginStoreSeq w.slot.header.seq⟩
  | .beginStoreSeq seq =>
      some ⟨w.storeSeq (seq + 1), .beginStoreInfo InfoField.beginOrder⟩
  | .beginStoreInfo [] => none
  | .beginStoreInfo [field] => some ⟨(w.storeField field).returnPointer, .ready⟩
  | .beginStoreInfo (field :: rest) => some ⟨w.storeField field, .beginStoreInfo rest⟩
  | .cancelLoadSeq => some ⟨w.toWriterData, .cancelStoreSeq w.slot.header.seq⟩
  | .cancelStoreSeq seq =>
      let d := w.storeSeq (seq + 1)
      some ⟨{ d with impl := { d.impl with pending := none } }, .ready⟩
  | .commitStoreInfo [] => none
  | .commitStoreInfo [field] => some ⟨w.storeField field, .commitLoadSeq⟩
  | .commitStoreInfo (field :: rest) => some ⟨w.storeField field, .commitStoreInfo rest⟩
  | .commitLoadSeq => some ⟨w.toWriterData, .commitStoreSeq w.slot.header.seq⟩
  | .commitStoreSeq seq => some ⟨(w.storeSeq (seq + 1)).recordCommit, .commitStoreLatest⟩
  | .commitStoreLatest => some ⟨w.storeLatest now, .commitStoreHeartbeat⟩
  | .commitStoreHeartbeat => some ⟨w.storeHeartbeat, .ready⟩
  | .closed => none

/-- Entering `begin_write`: a refusal returns at once, an admission goes on to the slot. -/
def enterBegin (w : Writer) (width height : UInt32) (now : UInt64) : Writer :=
  let (impl, admitted) := w.impl.admitWrite width height now
  if admitted then
    {
      w with
      impl := impl
      target := LLPublisher.geometry w.impl.cfg width height
      phase := .beginLoadSeq
    }
  else { w with impl := impl }

/-- Entering `commit`, which returns at once with nothing pending. -/
def enterCommit (w : Writer) (timestamp now : UInt64) : Writer :=
  if w.impl.pending.isSome then
    {
      w with
      impl := { w.impl with frameId := w.impl.frameId + 1 }
      target := {
        w.target with
        frameId := w.impl.frameId + 1
        timestampNs := if timestamp ≠ 0 then timestamp else now
      }
      phase := .commitStoreInfo InfoField.commitOrder
    }
  else w

/-- One step of the publisher. A call can only be entered between calls, and the caller
stores only into the payload area of a slot it was handed.
-/
def step (w : Writer) (action : WriteAction) : Option Writer :=
  match w.phase, action with
  | .ready, .beginWrite width height now => some (w.enterBegin width height now)
  | .ready, .storePayload offset byte =>
      if w.impl.pending.isSome && decide (offset < w.impl.cfg.maxPayload.toNat) then
        some ⟨w.storeByte offset byte, .ready⟩
      else none
  | .ready, .commit timestamp now => some (w.enterCommit timestamp now)
  | .ready, .cancelWrite =>
      some (if w.impl.pending.isSome then { w with phase := .cancelLoadSeq } else w)
  | .ready, .setMaxPublish intervalNs =>
      some { w with impl := { w.impl with minIntervalNs := intervalNs } }
  | .ready, .close =>
      some { w with memory := { w.memory with shutdown := 1 }, phase := .closed }
  | _, .access now => w.access now
  | _, _ => none

end Writer

/-- The action is not a cancellation. -/
def WriteAction.NoCancel : WriteAction → Prop
  | .cancelWrite => False
  | _ => True

/-- A `begin_write` of the action asks for a geometry of exact size `1 .. max_payload`. -/
def WriteAction.InRange (cfg : LLConfig) : WriteAction → Prop
  | .beginWrite width height _ =>
      1 ≤ cfg.exactBytes width height ∧ cfg.exactBytes width height ≤ cfg.maxPayload.toNat
  | _ => True

instance : DecidablePred WriteAction.NoCancel
  | .cancelWrite => isFalse id
  | .beginWrite .. | .storePayload .. | .commit .. | .setMaxPublish .. | .close
  | .access .. => isTrue trivial

instance (cfg : LLConfig) : DecidablePred (WriteAction.InRange cfg)
  | .beginWrite .. => inferInstanceAs (Decidable (_ ∧ _))
  | .cancelWrite | .storePayload .. | .commit .. | .setMaxPublish .. | .close
  | .access .. => isTrue trivial

end ShmFrame.Frames
