import ShmFrame.Commands.Ring
import ShmFrame.Foundation.Effects
import ShmFrame.Segment.Header
import ShmFrame.Segment.Layout

/-! Shared memory byte by byte, and what the endpoints do to it: one load, store or exchange
at a time, each at a range of offsets of a mapped segment and meant for one of its areas.
-/

namespace ShmFrame.Accesses

open ShmFrame.Foundation

-----------------------------------------------------------------------------------------
-- Where the words are
-----------------------------------------------------------------------------------------

/-- The words of `LLHeader`. -/
inductive HeaderWord
  | magic
  | version
  | sessionId
  | totalSize
  | maxWidth
  | maxHeight
  | bytesPerPixel
  | slotCount
  | commandSlots
  | maxCommandBytes
  | slotsOffset
  | slotStride
  | downstreamOffset
  | upstreamOffset
  | ringStride
  | cmdStride
  | latest
  | shutdown
  | lastHeartbeatNs
  | commandOwnerGen
  | commandOwnerHeartbeatNs
deriving DecidableEq

/-- The offsets of the header's words; those that change are on cache lines of their own. -/
def HeaderWord.place : HeaderWord → Span
  | .magic => ⟨0, 4⟩
  | .version => ⟨4, 4⟩
  | .sessionId => ⟨8, 8⟩
  | .totalSize => ⟨16, 8⟩
  | .maxWidth => ⟨24, 4⟩
  | .maxHeight => ⟨28, 4⟩
  | .bytesPerPixel => ⟨32, 4⟩
  | .slotCount => ⟨36, 4⟩
  | .commandSlots => ⟨40, 4⟩
  | .maxCommandBytes => ⟨44, 4⟩
  | .slotsOffset => ⟨48, 8⟩
  | .slotStride => ⟨56, 8⟩
  | .downstreamOffset => ⟨64, 8⟩
  | .upstreamOffset => ⟨72, 8⟩
  | .ringStride => ⟨80, 8⟩
  | .cmdStride => ⟨88, 8⟩
  | .latest => ⟨128, 8⟩
  | .shutdown => ⟨192, 4⟩
  | .lastHeartbeatNs => ⟨256, 8⟩
  | .commandOwnerGen => ⟨320, 8⟩
  | .commandOwnerHeartbeatNs => ⟨384, 8⟩

/-- The words of `LLSlotHeader`. -/
inductive SlotWord
  | seq
  | frameId
  | timestampNs
  | width
  | height
  | stride
  | payloadBytes
deriving DecidableEq

/-- Their offsets from the start of the slot header. -/
def SlotWord.place : SlotWord → Span
  | .seq => ⟨0, 8⟩
  | .frameId => ⟨8, 8⟩
  | .timestampNs => ⟨16, 8⟩
  | .width => ⟨24, 4⟩
  | .height => ⟨28, 4⟩
  | .stride => ⟨32, 4⟩
  | .payloadBytes => ⟨36, 4⟩

/-- The words of `LLRingHeader`. -/
inductive RingWord
  | head
  | tail
deriving DecidableEq

/-- Their offsets from the start of the ring header. -/
def RingWord.place : RingWord → Span
  | .head => ⟨0, 8⟩
  | .tail => ⟨64, 8⟩

/-- The words of `LLCmdHeader`. -/
inductive CmdWord
  | id
  | replyTo
  | timestampNs
  | type
  | size
deriving DecidableEq

/-- Their offsets from the start of the command cell. -/
def CmdWord.place : CmdWord → Span
  | .id => ⟨0, 8⟩
  | .replyTo => ⟨8, 8⟩
  | .timestampNs => ⟨16, 8⟩
  | .type => ⟨24, 4⟩
  | .size => ⟨28, 4⟩

/-- Every word of a structure lies in the structure. -/
theorem HeaderWord.place_inside (word : HeaderWord)
    : word.place.last ≤ sizeofLLHeader.toNat := by
  cases word <;> decide

theorem SlotWord.place_inside (word : SlotWord)
    : word.place.last ≤ sizeofLLSlotHeader.toNat := by
  cases word <;> decide

theorem RingWord.place_inside (word : RingWord)
    : word.place.last ≤ sizeofLLRingHeader.toNat := by
  cases word <;> decide

theorem CmdWord.place_inside (word : CmdWord)
    : word.place.last ≤ sizeofLLCmdHeader.toNat := by
  cases word <;> decide

/-- Two words of the header have no byte in common. -/
theorem HeaderWord.place_apart {left right : HeaderWord} (distinct : left ≠ right)
    : left.place.Apart right.place := by
  cases left <;> cases right <;> first | exact absurd rfl distinct | decide

/-- The span at some distance from a base. -/
def at_ (base : UInt64) (place : Span) : Span where
  first := base.toNat + place.first
  size := place.size

-----------------------------------------------------------------------------------------
-- Memory
-----------------------------------------------------------------------------------------

/-- The bytes of a segment. -/
abbrev Bytes := Nat → UInt8

/-- The number that some bytes say, the least significant one first. -/
def littleEndian : List UInt8 → Nat
  | [] => 0
  | byte :: rest => byte.toNat + 256 * littleEndian rest

/-- The word found at a span of up to eight bytes. -/
def wordAt (bytes : Bytes) (span : Span) : UInt64 :=
  UInt64.ofNat (littleEndian ((List.range span.size).map fun index => bytes (span.first + index)))

/-- Stores the low bytes of a word. -/
def storeAt (bytes : Bytes) (span : Span) (value : UInt64) : Bytes :=
  fun offset =>
    if span.Holds offset then (value >>> (8 * UInt64.ofNat (offset - span.first))).toUInt8
    else bytes offset

/-- A word only depends on the bytes of its span. -/
theorem wordAt_congr {left right : Bytes} {span : Span}
    (same : ∀ offset, span.Holds offset → left offset = right offset)
    : wordAt left span = wordAt right span := by
  have bytes
      : (List.range span.size).map (fun index => left (span.first + index))
        = (List.range span.size).map fun index => right (span.first + index) := by
    refine List.map_congr_left fun index member => same _ ⟨Nat.le_add_right _ _, ?_⟩
    have below := List.mem_range.mp member
    exact Nat.add_lt_add_left below span.first
  rw [wordAt, wordAt, bytes]

/-- A store leaves every byte outside its span alone. -/
theorem storeAt_outside {bytes : Bytes} {span : Span} {value : UInt64} {offset : Nat}
    (outside : ¬ span.Holds offset)
    : storeAt bytes span value offset = bytes offset :=
  if_neg outside

/-- The same store on bytes that agree at some offset. -/
theorem storeAt_congr {left right : Bytes} {span : Span} {value : UInt64} {offset : Nat}
    (same : left offset = right offset)
    : storeAt left span value offset = storeAt right span value offset := by
  unfold storeAt
  split
  · rfl
  · exact same

-----------------------------------------------------------------------------------------
-- Effects
-----------------------------------------------------------------------------------------

/-- What an endpoint learns from outside the segments: a reading of the clock, the segment
that the name leads to, the size of a mapping, whether `compare_exchange_weak` fails
spuriously, which operand of an age is evaluated first, and how many rounds of the claim loop
there are time for.
-/
inductive Question
  | nowNs
  | opens
  | sizeOf (segment : Nat)
  | spurious
  | clockFirst
  | patience
deriving DecidableEq

def Question.Answer : Question → Type
  | .nowNs => UInt64
  | .opens => Option Nat
  | .sizeOf _ => UInt64
  | .spurious | .clockFirst => Bool
  | .patience => Nat

/-- One access to a segment, at a span that is meant for an area: a load or store of a word,
a compare-exchange, a byte that is copied to some index of a private buffer. Or a question,
or no further step at all.
-/
inductive Effect
  | load (segment : Nat) (area : Area) (span : Span)
  | store (segment : Nat) (area : Area) (span : Span) (value : UInt64)
  | exchange (segment : Nat) (area : Area) (span : Span) (expected desired : UInt64)
  | copyOut (segment : Nat) (area : Area) (offset index : Nat)
  | ask (question : Question)
  | stall
deriving DecidableEq

/-- What comes back: the word that was loaded, or found by an exchange. -/
def Effect.Answer : Effect → Type
  | .load .. | .exchange .. => UInt64
  | .store .. => Unit
  | .copyOut .. => UInt8
  | .ask question => question.Answer
  | .stall => Empty

/-- A call of an endpoint. -/
abbrev Access := Program Effect Effect.Answer

def access (effect : Effect) : Access effect.Answer := Program.single effect

def nowNs : Access UInt64 := access (.ask .nowNs)

def opens : Access (Option Nat) := access (.ask .opens)

def clockFirst : Access Bool := access (.ask .clockFirst)

def spurious : Access Bool := access (.ask .spurious)

def patience : Access Nat := access (.ask .patience)

def sizeOf (g : Nat) : Access UInt64 := access (.ask (.sizeOf g))

def loadHeader (g : Nat) (word : HeaderWord) : Access UInt64 :=
  access (.load g .header word.place)

def storeHeader (g : Nat) (word : HeaderWord) (value : UInt64) : Access Unit :=
  access (.store g .header word.place value)

def exchangeHeader (g : Nat) (word : HeaderWord) (expected desired : UInt64) : Access UInt64 :=
  access (.exchange g .header word.place expected desired)

def loadSlot (g : Nat) (l : LLLayout) (index : UInt32) (word : SlotWord) : Access UInt64 :=
  access (.load g (.slotHeader index) (at_ (slotAt l index) word.place))

def storeSlot (g : Nat) (l : LLLayout) (index : UInt32) (word : SlotWord) (value : UInt64)
    : Access Unit :=
  access (.store g (.slotHeader index) (at_ (slotAt l index) word.place) value)

def copyByte (g : Nat) (area : Area) (offset index : Nat) : Access UInt8 :=
  access (.copyOut g area offset index)

/-- Copies bytes of an area to the front of a private buffer, one after the other. -/
def copyOut (g : Nat) (area : Area) (first : UInt64) : Nat → Access (List UInt8)
  | 0 => return []
  | count + 1 => do
      let front ← copyOut g area first count
      let byte ← copyByte g area (first.toNat + count) count
      return front ++ [byte]

/-- Copies private bytes to an area, one after the other. -/
def copyIn (g : Nat) (area : Area) (first : Nat) (source : Nat → UInt8) : Nat → Access Unit
  | 0 => return ()
  | count + 1 => do
      copyIn g area first source count
      access (.store g area ⟨first + count, 1⟩ (source count).toUInt64)

-----------------------------------------------------------------------------------------
-- LLRing
-----------------------------------------------------------------------------------------

/-- A handle of the ring in one direction; `layout` is where its pointer `L` leads. -/
structure RingHandle where
  direction : Direction
  ring : LLRing
  layout : LLLayout

namespace RingHandle

def load (h : RingHandle) (g : Nat) (word : RingWord) : Access UInt64 :=
  access (.load g (.ringHeader h.direction) (at_ (ringAt h.ring.offset) word.place))

def store (h : RingHandle) (g : Nat) (word : RingWord) (value : UInt64) : Access Unit :=
  access (.store g (.ringHeader h.direction) (at_ (ringAt h.ring.offset) word.place) value)

/-- The index of the cell for a counter: `counter & (slots - 1)`. -/
def index (h : RingHandle) (counter : UInt64) : UInt64 :=
  counter &&& (h.ring.slots - 1).toUInt64

/-- `cmd_at` for a counter. -/
def cell (h : RingHandle) (counter : UInt64) : UInt64 :=
  cmdAt h.ring.offset h.layout (h.index counter)

def area (h : RingHandle) (counter : UInt64) : Area := .cell h.direction (h.index counter)

def loadCmd (h : RingHandle) (g : Nat) (counter : UInt64) (word : CmdWord) : Access UInt64 :=
  access (.load g (h.area counter) (at_ (h.cell counter) word.place))

def storeCmd (h : RingHandle) (g : Nat) (counter : UInt64) (word : CmdWord) (value : UInt64)
    : Access Unit :=
  access (.store g (h.area counter) (at_ (h.cell counter) word.place) value)

/-- `LLRing::push`. -/
def push (h : RingHandle) (call : Commands.PushCall) : Access Bool := do
  let some g := h.ring.base | return false
  if call.size > h.ring.maxBytes then return false
  let head ← h.load g .head
  let tail ← h.load g .tail
  if head - tail ≥ h.ring.slots.toUInt64 then return false
  h.storeCmd g head .id call.id
  h.storeCmd g head .replyTo call.replyTo
  h.storeCmd g head .timestampNs call.timestampNs
  h.storeCmd g head .type call.type.toUInt64
  h.storeCmd g head .size call.size.toUInt64
  if let some data := call.data then
    copyIn g (h.area head) (cmdPayload (h.cell head)).toNat data call.size.toNat
  h.store g .head (head + 1)
  return true

/-- The size `pop` goes by: the one in the cell, unless it is too large. It looks twice. -/
def clampedSize (h : RingHandle) (g : Nat) (tail : UInt64) : Access UInt32 := do
  if (← h.loadCmd g tail .size).toUInt32 > h.ring.maxBytes then return h.ring.maxBytes
  return (← h.loadCmd g tail .size).toUInt32

/-- `LLRing::pop`. -/
def pop (h : RingHandle) : Access (Option Commands.LLShmCommand) := do
  let some g := h.ring.base | return none
  let tail ← h.load g .tail
  let head ← h.load g .head
  if tail = head then return none
  let id ← h.loadCmd g tail .id
  let replyTo ← h.loadCmd g tail .replyTo
  let timestampNs ← h.loadCmd g tail .timestampNs
  let type ← h.loadCmd g tail .type
  let n ← h.clampedSize g tail
  let data ← copyOut g (h.area tail) (cmdPayload (h.cell tail)) n.toNat
  h.store g .tail (tail + 1)
  return some { id, replyTo, timestampNs, type := type.toUInt32, data }

end RingHandle
end ShmFrame.Accesses
