import ShmFrame.Frames.Publisher

/-! The subscriber's side of the frame path: `read_latest`, one access at a time. -/

namespace ShmFrame.Frames

open ShmFrame.Foundation

/-- Why `read_latest` reloads the sequence word: the three ways an attempt can end. -/
inductive Verdict
  | badSize
  | tooSmall
  | copied
deriving DecidableEq

/-- Where a reader stands inside `read_latest`. `attempt` counts the loop from 0, `before`
is the first sequence word, `info` the fields loaded so far, and `copied` the payload bytes
already copied (`memcpy` promises no order).
-/
inductive ReadPhase
  | ready
  | loadLatest (attempt : Nat)
  | loadShutdown
  | loadSeq (attempt : Nat) (packed : UInt64)
  | loadInfo (attempt : Nat) (packed before : UInt64) (rest : List InfoField)
      (info : LLFrameInfo)
  | copy (attempt : Nat) (packed before : UInt64) (info : LLFrameInfo)
      (copied : Finset Nat)
  | recheck (attempt : Nat) (packed before : UInt64) (info : LLFrameInfo)
      (verdict : Verdict)

/-- A subscriber with the buffers of its caller. History variables: the values stored to
`latest` when the call started, when the current attempt loaded it and when the call
returned, how many were stored during each attempt that ended in `continue`, the frame ids
of the session's `Ok` results (newest first) and the drop counter after the first of them.
-/
structure Reader where
  impl : LLSubscriber.Impl := {}
  phase : ReadPhase := .ready
  capacity : UInt64 := 0
  dst : Nat → UInt8 := fun _ => 0
  info : LLFrameInfo := {}
  result : Option LLReadResult := none
  callLog : List UInt64 := []
  attemptLog : List UInt64 := []
  returnLog : List UInt64 := []
  laps : List Nat := []
  delivered : List UInt64 := []
  droppedAtFirst : UInt64 := 0

namespace Reader

/-- Returns from `read_latest`; `log` is the history of `latest` at that time. -/
def finish (r : Reader) (result : LLReadResult) (log : List UInt64) : Reader :=
  { r with phase := .ready, result := some result, returnLog := log }

/-- `continue`: the next of the four attempts, or `Contended` after the last. -/
def retry (r : Reader) (attempt : Nat) (log : List UInt64) : Reader :=
  let lapped := { r with laps := (log.length - r.attemptLog.length) :: r.laps }
  if attempt + 1 < 4 then { lapped with phase := .loadLatest (attempt + 1) }
  else lapped.finish .contended log

/-- The size checks between the metadata and the payload. -/
def checkSize (r : Reader) (attempt : Nat) (packed before : UInt64) (info : LLFrameInfo)
    : Reader :=
  let bytes := info.payloadBytes.toUInt64
  if bytes = 0 || bytes > r.impl.remote.maxPayload then
    { r with phase := .recheck attempt packed before info .badSize }
  else if bytes > r.capacity then
    { r with phase := .recheck attempt packed before info .tooSmall }
  else { r with phase := .copy attempt packed before info ∅ }

/-- The copy was confirmed: counters, `info` and the result `Ok`. -/
def accept (r : Reader) (info : LLFrameInfo) (now : UInt64) (log : List UInt64)
    : Reader :=
  let impl := r.impl.deliver info now
  let accepted := {
    r with
    impl := impl
    info := info
    delivered := info.frameId :: r.delivered
    droppedAtFirst := if r.delivered.isEmpty then impl.dropped else r.droppedAtFirst
  }
  accepted.finish .ok log

/-- The attempt's sequence words agree: what is returned depends on the verdict. -/
def conclude (r : Reader) (info : LLFrameInfo) (verdict : Verdict) (now : UInt64)
    (log : List UInt64)
    : Reader :=
  match verdict with
  | .badSize => r.finish .contended log
  | .tooSmall => { r with info := info }.finish .bufferTooSmall log
  | .copied => r.accept info now log

/-- The next access of the call, against the current memory. -/
def access (r : Reader) (memory : FrameMemory) (log : List UInt64) (now : UInt64)
    : Option Reader :=
  match r.phase with
  | .ready => none
  | .loadLatest attempt =>
      let packed := memory.latest
      if r.impl.nothingNew packed then some { r with phase := .loadShutdown }
      else if latestSlot packed ≥ r.impl.remote.slotCount then
        some (r.finish .contended log)
      else some { r with phase := .loadSeq attempt packed, attemptLog := log }
  | .loadShutdown =>
      if memory.shutdown ≠ 0 then
        some ({ r with impl := { r.impl with peerShutdown := true } }.finish
          .disconnected log)
      else some (r.finish .noNewFrame log)
  | .loadSeq attempt packed =>
      let before := (memory.slots (latestSlot packed).toNat).header.seq
      if before &&& 1 ≠ 0 then some (r.retry attempt log)
      else some { r with phase := .loadInfo attempt packed before InfoField.readOrder {} }
  | .loadInfo _ _ _ [] _ => none
  | .loadInfo attempt packed before [field] info =>
      let slot := memory.slots (latestSlot packed).toNat
      some (r.checkSize attempt packed before (field.copy slot.header.info info))
  | .loadInfo attempt packed before (field :: rest) info =>
      let slot := memory.slots (latestSlot packed).toNat
      some {
        r with
        phase := .loadInfo attempt packed before rest (field.copy slot.header.info info)
      }
  | .copy .. => none
  | .recheck attempt packed before info verdict =>
      if (memory.slots (latestSlot packed).toNat).header.seq ≠ before then
        some (r.retry attempt log)
      else some (r.conclude info verdict now log)

/-- Copies one payload byte that is still missing; after the last the sequence word is
checked again.
-/
def copyByte (r : Reader) (memory : FrameMemory) (index : Nat) : Option Reader :=
  match r.phase with
  | .copy attempt packed before info copied =>
      if index < info.payloadBytes.toNat ∧ index ∉ copied then
        let slot := memory.slots (latestSlot packed).toNat
        let dst := Function.update r.dst index (slot.payload index)
        let done := insert index copied
        if Finset.range info.payloadBytes.toNat ⊆ done then
          some { r with dst := dst, phase := .recheck attempt packed before info .copied }
        else some { r with dst := dst, phase := .copy attempt packed before info done }
      else none
  | _ => none

/-- Entering `read_latest(dst, capacity, info)`. `polled` is the result of `poll()`, which
touches no word of the frame path; it cannot be true before the first attachment.
-/
def enterRead (r : Reader) (capacity : UInt64) (polled : Bool) (log : List UInt64)
    (now : UInt64)
    : Option Reader :=
  match r.phase with
  | .ready =>
      let called := { r with capacity := capacity, callLog := log, laps := [] }
      if polled then
        if r.impl.hdr.isSome then
          let (impl, passed) := r.impl.readGate now
          let gated := { called with impl := impl }
          if passed then some { gated with phase := .loadLatest 0, result := none }
          else some (gated.finish .throttled log)
        else none
      else some (called.finish .disconnected log)
  | _ => none

/-- The first attachment to the session; a fixed session is never left again. -/
def attach (r : Reader) (cfg : LLConfig) (session : UInt64) : Option Reader :=
  match r.phase, r.impl.hdr with
  | .ready, none =>
      some {
        r with
        impl := r.impl.adopt 0 cfg (computeLayout cfg) session
        delivered := []
      }
  | _, _ => none

/-- `set_max_read_hz`, as the interval it computes. -/
def setMaxRead (r : Reader) (intervalNs : UInt64) : Option Reader :=
  match r.phase with
  | .ready => some { r with impl := { r.impl with minReadNs := intervalNs } }
  | _ => none

end Reader

/-- Everything one access of a reader can do, with the test that led to it. -/
inductive ReadMove (memory : FrameMemory) (log : List UInt64) (now : UInt64) (r : Reader)
    : Reader → Prop
  | nothingNew {attempt} (phase : r.phase = .loadLatest attempt)
    (stale : r.impl.nothingNew memory.latest = true)
    : ReadMove memory log now r { r with phase := .loadShutdown }
  | badSlot {attempt} (phase : r.phase = .loadLatest attempt)
    (fresh : r.impl.nothingNew memory.latest = false)
    (outside : latestSlot memory.latest ≥ r.impl.remote.slotCount)
    : ReadMove memory log now r (r.finish .contended log)
  | loadLatest {attempt} (phase : r.phase = .loadLatest attempt)
    (fresh : r.impl.nothingNew memory.latest = false)
    : ReadMove memory log now r
        { r with phase := .loadSeq attempt memory.latest, attemptLog := log }
  | disconnected (phase : r.phase = .loadShutdown) (shut : memory.shutdown ≠ 0)
    : ReadMove memory log now r
        ({ r with impl := { r.impl with peerShutdown := true } }.finish .disconnected log)
  | noNewFrame (phase : r.phase = .loadShutdown)
    : ReadMove memory log now r (r.finish .noNewFrame log)
  | busy {attempt packed} (phase : r.phase = .loadSeq attempt packed)
    (odd : (memory.slots (latestSlot packed).toNat).header.seq &&& 1 ≠ 0)
    : ReadMove memory log now r (r.retry attempt log)
  | loadSeq {attempt packed} (phase : r.phase = .loadSeq attempt packed)
    (even : (memory.slots (latestSlot packed).toNat).header.seq &&& 1 = 0)
    : ReadMove memory log now r
        {
          r with
          phase := .loadInfo attempt packed
            (memory.slots (latestSlot packed).toNat).header.seq InfoField.readOrder {}
        }
  | loadField {attempt packed before field second rest info}
    (phase : r.phase = .loadInfo attempt packed before (field :: second :: rest) info)
    : ReadMove memory log now r
        {
          r with
          phase := .loadInfo attempt packed before (second :: rest)
            (field.copy (memory.slots (latestSlot packed).toNat).header.info info)
        }
  | loadLastField {attempt packed before field info}
    (phase : r.phase = .loadInfo attempt packed before [field] info)
    : ReadMove memory log now r
        (r.checkSize attempt packed before
          (field.copy (memory.slots (latestSlot packed).toNat).header.info info))
  | lapped {attempt packed before info verdict}
    (phase : r.phase = .recheck attempt packed before info verdict)
    (changed : (memory.slots (latestSlot packed).toNat).header.seq ≠ before)
    : ReadMove memory log now r (r.retry attempt log)
  | conclude {attempt packed before info verdict}
    (phase : r.phase = .recheck attempt packed before info verdict)
    (same : (memory.slots (latestSlot packed).toNat).header.seq = before)
    : ReadMove memory log now r (r.conclude info verdict now log)

/-- An access is one of the listed moves, by cases on the phase and its test. -/
theorem Reader.access_move {memory : FrameMemory} {log : List UInt64} {now : UInt64}
    {r next : Reader} (stepped : r.access memory log now = some next)
    : ReadMove memory log now r next := by
  unfold Reader.access at stepped
  split at stepped
  · cases stepped
  · rename_i attempt phase
    simp only at stepped
    split at stepped
    · rename_i stale
      cases stepped
      exact .nothingNew phase stale
    rename_i fresh
    split at stepped
    · rename_i outside
      cases stepped
      exact .badSlot phase (by simpa using fresh) outside
    · cases stepped
      exact .loadLatest phase (by simpa using fresh)
  · rename_i phase
    split at stepped
    · rename_i shut
      cases stepped
      exact .disconnected phase shut
    · cases stepped
      exact .noNewFrame phase
  · rename_i attempt packed phase
    simp only at stepped
    split at stepped
    · rename_i odd
      cases stepped
      exact .busy phase odd
    · rename_i even
      cases stepped
      exact .loadSeq phase (by simpa using even)
  · cases stepped
  · rename_i attempt packed before field info phase
    cases stepped
    exact .loadLastField phase
  · rename_i attempt packed before field rest info notLast phase
    cases rest with
    | nil => exact absurd rfl (notLast)
    | cons second rest =>
        cases stepped
        exact .loadField phase
  · cases stepped
  · rename_i attempt packed before info verdict phase
    split at stepped
    · rename_i changed
      cases stepped
      exact .lapped phase changed
    · rename_i same
      cases stepped
      exact .conclude phase (by simpa using same)

/-- The publisher and any number of subscribers on one segment. -/
structure State where
  writer : Writer
  readers : Nat → Reader

/-- Who moves next. -/
inductive Action
  | write (action : WriteAction)
  | attach (reader : Nat) (session : UInt64)
  | setMaxRead (reader : Nat) (intervalNs : UInt64)
  | readLatest (reader : Nat) (capacity : UInt64) (polled : Bool) (now : UInt64)
  | access (reader : Nat) (now : UInt64)
  | copyByte (reader : Nat) (index : Nat)

namespace State

/-- A fresh segment; the subscribers bring any private state but no mapping. -/
def create (cfg : LLConfig) (now : UInt64) (impls : Nat → LLSubscriber.Impl) : State where
  writer := Writer.create cfg now
  readers reader := { impl := { impls reader with hdr := none } }

/-- Replaces one reader by the outcome of its step. -/
def withReader (s : State) (reader : Nat) (next : Option Reader) : Option State :=
  next.map fun r => { s with readers := Function.update s.readers reader r }

def step (s : State) (action : Action) : Option State :=
  let log := s.writer.latestLog
  match action with
  | .write action => (s.writer.step action).map fun writer => { s with writer }
  | .attach reader session =>
      s.withReader reader ((s.readers reader).attach s.writer.impl.cfg session)
  | .setMaxRead reader intervalNs =>
      s.withReader reader ((s.readers reader).setMaxRead intervalNs)
  | .readLatest reader capacity polled now =>
      s.withReader reader ((s.readers reader).enterRead capacity polled log now)
  | .access reader now =>
      s.withReader reader ((s.readers reader).access s.writer.memory log now)
  | .copyByte reader index =>
      s.withReader reader ((s.readers reader).copyByte s.writer.memory index)

end State

/-- Publisher and subscribers, interleaved in any order. -/
def frameMachine : Machine State Action where
  step := State.step

/-- A condition on publisher actions, lifted to the interleaved machine. -/
def Action.Writes (allowed : WriteAction → Prop) : Action → Prop
  | .write action => allowed action
  | _ => True

instance (allowed : WriteAction → Prop) [DecidablePred allowed]
    : DecidablePred (Action.Writes allowed)
  | .write action => inferInstanceAs (Decidable (allowed action))
  | .attach .. | .setMaxRead .. | .readLatest .. | .access .. | .copyByte .. =>
      isTrue trivial

end ShmFrame.Frames
