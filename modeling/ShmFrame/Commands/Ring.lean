import ShmFrame.Foundation.Counter
import ShmFrame.Foundation.Fifo
import ShmFrame.Foundation.Run
import ShmFrame.Segment.Endpoints

/-! The command rings, one shared-memory access at a time. The producer only ever writes
`head` and the cells, the consumer only ever writes `tail`.
-/

namespace ShmFrame.Commands

open ShmFrame.Foundation

/-- The header of one command cell. -/
structure LLCmdHeader where
  id : UInt64 := 0
  replyTo : UInt64 := 0
  timestampNs : UInt64 := 0
  type : UInt32 := 0
  size : UInt32 := 0
deriving DecidableEq

/-- A command as the endpoints see it. -/
structure LLShmCommand where
  id : UInt64 := 0
  replyTo : UInt64 := 0
  timestampNs : UInt64 := 0
  type : UInt32 := 0
  data : List UInt8 := []
deriving DecidableEq

/-- The five fields of a cell header, each an access of its own. -/
inductive CmdField
  | id
  | replyTo
  | timestampNs
  | type
  | size
deriving DecidableEq

/-- Copies one field of `source` over the same field of `target`. -/
def CmdField.copy (field : CmdField) (source target : LLCmdHeader) : LLCmdHeader :=
  match field with
  | .id => { target with id := source.id }
  | .replyTo => { target with replyTo := source.replyTo }
  | .timestampNs => { target with timestampNs := source.timestampNs }
  | .type => { target with type := source.type }
  | .size => { target with size := source.size }

/-- Two headers hold the same value in one field. -/
def CmdField.Agree (field : CmdField) (left right : LLCmdHeader) : Prop :=
  match field with
  | .id => left.id = right.id
  | .replyTo => left.replyTo = right.replyTo
  | .timestampNs => left.timestampNs = right.timestampNs
  | .type => left.type = right.type
  | .size => left.size = right.size

/-- The order in which `push` stores the fields. -/
def CmdField.pushOrder : List CmdField := [.id, .replyTo, .timestampNs, .type, .size]

/-- The order in which `pop` loads the fields before it looks at the size. -/
def CmdField.popOrder : List CmdField := [.id, .replyTo, .timestampNs, .type]

/-- A copied field agrees with its source. -/
theorem CmdField.agree_copy_self (field : CmdField) (source target : LLCmdHeader)
    : field.Agree source (field.copy source target) := by
  cases field <;> rfl

/-- Copying one field leaves the others alone, by cases on both fields. -/
theorem CmdField.agree_copy_other {field other : CmdField} (distinct : other ≠ field)
    (source target reference : LLCmdHeader)
    : other.Agree reference (field.copy source target) ↔ other.Agree reference target := by
  cases field <;> cases other <;> first | exact absurd rfl distinct | exact Iff.rfl

/-- A command cell: its header and the payload area that follows it. -/
structure Cell where
  header : LLCmdHeader := {}
  payload : Nat → UInt8 := fun _ => 0

/-- The words of one ring in the segment. `queue` is a history variable: the commands whose
push returned true and the commands that pops returned. No step reads it.
-/
structure RingData where
  head : UInt64 := 0
  tail : UInt64 := 0
  cells : Nat → Cell := fun _ => {}
  queue : Fifo LLShmCommand := {}

def RingData.setCell (d : RingData) (index : Nat) (cell : Cell) : RingData :=
  { d with cells := fun other => if other = index then cell else d.cells other }

/-- A stored cell is what is then found there. -/
theorem RingData.setCell_same (d : RingData) (index : Nat) (cell : Cell)
    : (d.setCell index cell).cells index = cell :=
  if_pos rfl

-----------------------------------------------------------------------------------------
-- The producer
-----------------------------------------------------------------------------------------

/-- The arguments of `push`; `data` is none for a null pointer. -/
structure PushCall where
  type : UInt32 := 0
  data : Option (Nat → UInt8) := none
  size : UInt32 := 0
  id : UInt64 := 0
  replyTo : UInt64 := 0
  timestampNs : UInt64 := 0

/-- The header fields `push` stores. -/
def PushCall.header (call : PushCall) : LLCmdHeader where
  id := call.id
  replyTo := call.replyTo
  timestampNs := call.timestampNs
  type := call.type
  size := call.size

/-- The command that is pushed: its fields and the `size` bytes behind `data` or, for a null
pointer, those that already lie in the payload area.
-/
def PushCall.command (call : PushCall) (area : Nat → UInt8) : LLShmCommand where
  id := call.id
  replyTo := call.replyTo
  timestampNs := call.timestampNs
  type := call.type
  data := (List.range call.size.toNat).map (call.data.getD area)

/-- Where the producer stands inside `push` or `pending`; values already loaded are carried
along. `pending` may load its two words in either order.
-/
inductive PushPhase
  | idle
  | loadHead
  | loadTail (head : UInt64)
  | storeField (head : UInt64) (rest : List CmdField)
  | copy (head : UInt64) (copied : Finset Nat)
  | storeHead (head : UInt64)
  | pendingHead (tail : Option UInt64)
  | pendingTail (head : Option UInt64)

/-- The producer: the call it is in and its last results. History variables: the numbers of
unread commands when the last `push` and the last `pending` loaded `tail`.
-/
structure Pusher where
  call : PushCall := {}
  phase : PushPhase := .idle
  result : Option Bool := none
  counted : Option UInt32 := none
  held : Nat := 0
  unread : Nat := 0

namespace Pusher

/-- Entering `push`: an invalid ring or an oversized command is refused at once. -/
def enterPush (ring : LLRing) (p : Pusher) (call : PushCall) : Pusher :=
  let called := { p with call := call, result := none }
  if !ring.valid || call.size > ring.maxBytes then { called with result := some false }
  else { called with phase := .loadHead }

/-- Entering `pending`; the two loads are unordered in the source. -/
def enterPending (ring : LLRing) (p : Pusher) (tailFirst : Bool) : Pusher :=
  let called := { p with counted := none }
  if !ring.valid then { called with counted := some 0 }
  else if tailFirst then { called with phase := .pendingTail none }
  else { called with phase := .pendingHead none }

/-- The header is complete: bytes are copied only if there are any and a source. -/
def afterHeader (p : Pusher) (head : UInt64) : Pusher :=
  if p.call.size ≠ 0 && p.call.data.isSome then { p with phase := .copy head ∅ }
  else { p with phase := .storeHead head }

/-- `pending` returns the difference of the two words, cut to 32 bits. -/
def count (p : Pusher) (head tail : UInt64) : Pusher :=
  { p with phase := .idle, counted := some (head - tail).toUInt32 }

/-- The next access of the call. -/
def access (ring : LLRing) (d : RingData) (p : Pusher) : Option (RingData × Pusher) :=
  match p.phase with
  | .idle => none
  | .loadHead => some (d, { p with phase := .loadTail d.head })
  | .loadTail head =>
      let seen := { p with held := d.queue.unread }
      if head - d.tail ≥ ring.slots.toUInt64 then
        some (d, { seen with phase := .idle, result := some false })
      else some (d, { seen with phase := .storeField head CmdField.pushOrder })
  | .storeField _ [] => none
  | .storeField head (field :: rest) =>
      let cell := d.cells (ring.cellOf head)
      let stored := { cell with header := field.copy p.call.header cell.header }
      some (d.setCell (ring.cellOf head) stored,
        if rest.isEmpty then p.afterHeader head
        else { p with phase := .storeField head rest })
  | .copy .. => none
  | .storeHead head =>
      let command := p.call.command (d.cells (ring.cellOf head)).payload
      some ({ d with head := head + 1, queue := d.queue.push command },
        { p with phase := .idle, result := some true })
  | .pendingHead (some tail) => some (d, p.count d.head tail)
  | .pendingHead none => some (d, { p with phase := .pendingTail (some d.head) })
  | .pendingTail (some head) =>
      some (d, { p with unread := d.queue.unread }.count head d.tail)
  | .pendingTail none =>
      some (d, { p with phase := .pendingHead (some d.tail), unread := d.queue.unread })

/-- Copies one payload byte that is still missing; after the last only `head` remains. -/
def copyByte (ring : LLRing) (d : RingData) (p : Pusher) (index : Nat)
    : Option (RingData × Pusher) :=
  match p.phase, p.call.data with
  | .copy head copied, some source =>
      if index < p.call.size.toNat ∧ index ∉ copied then
        let cell := d.cells (ring.cellOf head)
        let stored := {
          cell with
          payload := fun other => if other = index then source index else cell.payload other
        }
        let done := insert index copied
        some (d.setCell (ring.cellOf head) stored,
          if Finset.range p.call.size.toNat ⊆ done then { p with phase := .storeHead head }
          else { p with phase := .copy head done })
      else none
  | _, _ => none

end Pusher

-----------------------------------------------------------------------------------------
-- The consumer
-----------------------------------------------------------------------------------------

/-- Where the consumer stands inside `pop`. The source reads the size twice, once to compare
it with the maximum and once to use it.
-/
inductive PopPhase
  | idle
  | loadTail
  | loadHead (tail : UInt64)
  | loadField (tail : UInt64) (rest : List CmdField) (info : LLCmdHeader)
  | compareSize (tail : UInt64) (info : LLCmdHeader)
  | loadSize (tail : UInt64) (info : LLCmdHeader)
  | copy (tail : UInt64) (info : LLCmdHeader) (size : UInt32) (bytes : Nat → UInt8)
      (copied : Finset Nat)
  | storeTail (tail : UInt64) (out : LLShmCommand)

/-- The consumer. `unread` is a history variable, the number of unread commands when the
last call loaded `head`.
-/
structure Popper where
  phase : PopPhase := .idle
  out : LLShmCommand := {}
  result : Option Bool := none
  unread : Nat := 0

namespace Popper

/-- Entering `pop`, which an invalid ring refuses at once. -/
def enterPop (ring : LLRing) (p : Popper) : Popper :=
  if ring.valid then { p with phase := .loadTail, result := none }
  else { p with result := some false }

/-- The popped command, once its bytes are there. -/
def assemble (info : LLCmdHeader) (size : UInt32) (bytes : Nat → UInt8) : LLShmCommand where
  id := info.id
  replyTo := info.replyTo
  timestampNs := info.timestampNs
  type := info.type
  data := (List.range size.toNat).map bytes

/-- The number of bytes is known: they are copied if there are any. -/
def sized (p : Popper) (tail : UInt64) (info : LLCmdHeader) (size : UInt32) : Popper :=
  if size = 0 then { p with phase := .storeTail tail (assemble info size fun _ => 0) }
  else { p with phase := .copy tail info size (fun _ => 0) ∅ }

/-- The next access of the call. -/
def access (ring : LLRing) (d : RingData) (p : Popper) : Option (RingData × Popper) :=
  match p.phase with
  | .idle => none
  | .loadTail => some (d, { p with phase := .loadHead d.tail })
  | .loadHead tail =>
      let seen := { p with unread := d.queue.unread }
      if tail = d.head then some (d, { seen with phase := .idle, result := some false })
      else some (d, { seen with phase := .loadField tail CmdField.popOrder {} })
  | .loadField _ [] _ => none
  | .loadField tail (field :: rest) info =>
      let loaded := field.copy (d.cells (ring.cellOf tail)).header info
      some (d,
        if rest.isEmpty then { p with phase := .compareSize tail loaded }
        else { p with phase := .loadField tail rest loaded })
  | .compareSize tail info =>
      if (d.cells (ring.cellOf tail)).header.size > ring.maxBytes then
        some (d, p.sized tail info ring.maxBytes)
      else some (d, { p with phase := .loadSize tail info })
  | .loadSize tail info => some (d, p.sized tail info (d.cells (ring.cellOf tail)).header.size)
  | .copy .. => none
  | .storeTail tail out =>
      some ({ d with tail := tail + 1, queue := d.queue.pop out },
        { p with phase := .idle, out := out, result := some true })

/-- Copies one payload byte that is still missing; after the last only `tail` remains. -/
def copyByte (ring : LLRing) (d : RingData) (p : Popper) (index : Nat) : Option Popper :=
  match p.phase with
  | .copy tail info size bytes copied =>
      if index < size.toNat ∧ index ∉ copied then
        let cell := d.cells (ring.cellOf tail)
        let got := fun other => if other = index then cell.payload index else bytes other
        let done := insert index copied
        if Finset.range size.toNat ⊆ done then
          some { p with phase := .storeTail tail (assemble info size got) }
        else some { p with phase := .copy tail info size got done }
      else none
  | _ => none

end Popper

-----------------------------------------------------------------------------------------
-- One producer and one consumer
-----------------------------------------------------------------------------------------

/-- A ring with its one producer and its one consumer. -/
structure RingState where
  ring : LLRing
  data : RingData
  pusher : Pusher := {}
  popper : Popper := {}

/-- Who moves next. -/
inductive RingAction
  | push (call : PushCall)
  | pending (tailFirst : Bool)
  | pushAccess
  | pushByte (index : Nat)
  | pop
  | popAccess
  | popByte (index : Nat)

namespace RingState

/-- An empty ring whose counters start anywhere and whose cells hold anything. -/
def create (ring : LLRing) (start : UInt64) (cells : Nat → Cell) : RingState where
  ring := ring
  data := { head := start, tail := start, cells }

/-- The outcome of a step of the producer. -/
def pushed (s : RingState) (outcome : Option (RingData × Pusher)) : Option RingState :=
  outcome.map fun (data, pusher) => { s with data, pusher }

/-- The outcome of a step of the consumer. -/
def popped (s : RingState) (outcome : Option (RingData × Popper)) : Option RingState :=
  outcome.map fun (data, popper) => { s with data, popper }

/-- A call can only be entered between calls. -/
def step (s : RingState) (action : RingAction) : Option RingState :=
  match action with
  | .push call =>
      match s.pusher.phase with
      | .idle => some { s with pusher := s.pusher.enterPush s.ring call }
      | _ => none
  | .pending tailFirst =>
      match s.pusher.phase with
      | .idle => some { s with pusher := s.pusher.enterPending s.ring tailFirst }
      | _ => none
  | .pushAccess => s.pushed (s.pusher.access s.ring s.data)
  | .pushByte index => s.pushed (s.pusher.copyByte s.ring s.data index)
  | .pop =>
      match s.popper.phase with
      | .idle => some { s with popper := s.popper.enterPop s.ring }
      | _ => none
  | .popAccess => s.popped (s.popper.access s.ring s.data)
  | .popByte index =>
      (s.popper.copyByte s.ring s.data index).map fun popper => { s with popper }

end RingState

/-- Producer and consumer, interleaved in any order. -/
def ringMachine : Machine RingState RingAction where
  step := RingState.step

end ShmFrame.Commands
