import ShmFrame.Commands.Ring
import ShmFrame.Foundation.Guarded
import ShmFrame.Multiview.Canvas
import ShmFrame.Multiview.Protocol
import ShmFrame.Segment.Config

/-! The multiview producer: one control channel, and a view channel for each slot that has been
requested. The program as it uses the library, the clock and `std::rand`.
-/

namespace ShmFrame.Multiview

open ShmFrame.Foundation ShmFrame.Commands

-----------------------------------------------------------------------------------------
-- What the program does
-----------------------------------------------------------------------------------------

/-- A publisher of this process: that of the control channel, or of the slot with some index. -/
inductive Channel
  | control
  | view (index : Nat)
deriving DecidableEq

/-- A call of the library, of the clock or of `std::rand`. `patience` is how often a loop goes
round that nobody else bounds, after which it goes on no further; an index out of range is
undefined.
-/
inductive Effect
  | now
  | rand
  | running
  | sleep
  | create (channel : Channel) (cfg : LLConfig)
  | destroy (channel : Channel)
  | hasSubscriber (index : Nat)
  | commandOwnerStale (index : Nat)
  | receive (channel : Channel)
  | send (channel : Channel) (type : UInt32) (data : List UInt8) (replyTo : UInt64)
  | publish (index : Nat) (canvas : List UInt8) (width height : UInt32)
  | patience
  | undefined
  | stall

/-- What comes back; a clock reading is in nanoseconds. -/
def Effect.Answer : Effect → Type
  | .now => Int
  | .rand | .patience => Nat
  | .running | .create .. | .hasSubscriber _ | .commandOwnerStale _ | .send .. | .publish .. => Bool
  | .receive _ => Option LLShmCommand
  | .sleep | .destroy _ => Unit
  | .undefined | .stall => Empty

/-- A part of the producer. -/
abbrev Producing := Program Effect Effect.Answer

def perform (effect : Effect) : Producing effect.Answer := Program.single effect

def clock : Producing Int := perform .now

def rand : Producing Nat := perform .rand

def patience : Producing Nat := perform .patience

def running : Producing Bool := perform .running

def create (channel : Channel) (cfg : LLConfig) : Producing Bool := perform (.create channel cfg)

def hasSubscriber (index : Nat) : Producing Bool := perform (.hasSubscriber index)

def receive (channel : Channel) : Producing (Option LLShmCommand) := perform (.receive channel)

-----------------------------------------------------------------------------------------
-- Slots
-----------------------------------------------------------------------------------------

def kRegenPeriod : Int := 2000000000
def kPublishPeriod : Int := 33000000
def kIdleGracePeriod : Int := 5000000000

/-- A slot; `pub` is whether there is a publisher. -/
structure Slot where
  pub : Bool := false
  canvas : List UInt8 := []
  width : UInt32 := kDefaultWidth
  height : UInt32 := kDefaultHeight
  color : Color := .green
  nextRegen : Int := 0
  dirty : Bool := true
  hadSubscriber : Bool := false
  lastActive : Int := 0

/-- `canvas.assign(std::size_t(w) * h * 4, 0)`. -/
def blankCanvas (w h : UInt32) : List UInt8 :=
  List.replicate (w.toUInt64 * h.toUInt64 * 4).toNat 0

/-- `kChannelPrefix + std::to_string(index)`. -/
def channelName (index : Nat) : Name := (kChannelPrefix ++ toString index).toUTF8.toList

/-- The template for views. -/
def viewCfg : LLConfig := { maxWidth := kMaxWidth, maxHeight := kMaxHeight }

def controlCfg : LLConfig :=
  { name := kControlChannelName.toUTF8.toList, maxWidth := 1, maxHeight := 1 }

/-- `allocate_slot`, which leaves the slot alone when it fails. -/
def allocateSlot (s : Slot) (index : Nat) (cfg : LLConfig) (now : Int)
    : Producing (Slot × Bool) := do
  let cfg := { cfg with name := channelName index }
  if !(← create (.view index) cfg) then return (s, false)
  return ({
    s with
    pub := true
    canvas := blankCanvas kDefaultWidth kDefaultHeight
    width := kDefaultWidth
    height := kDefaultHeight
    color := .green
    nextRegen := now
    dirty := true
    hadSubscriber := false
    lastActive := now
  }, true)

/-- `free_slot`. -/
def freeSlot (index : Nat) : Producing Slot := do
  perform (.destroy (.view index))
  return {}

/-- What becomes of a canvas. -/
def onCanvas (result : Option (List UInt8)) : Producing (List UInt8) :=
  match result with
  | some canvas => return canvas
  | none => do nomatch ← perform .undefined

-----------------------------------------------------------------------------------------
-- The main loop
-----------------------------------------------------------------------------------------

/-- A request for a slot: the first one that is free, if it can be created. -/
def serveRequest (now : Int) (slots : List Slot) (id : UInt64) : Producing (List Slot) := do
  match slots.findIdx? fun s => !s.pub with
  | none =>
      let _ ← perform (.send .control Opcode.kSlotUnavailable.code [] id)
      return slots
  | some freeIndex =>
      let outcome ← allocateSlot (slots.getD freeIndex {}) freeIndex viewCfg now
      let slots := slots.set freeIndex outcome.1
      if !outcome.2 then
        let _ ← perform (.send .control Opcode.kSlotUnavailable.code [] id)
        return slots
      let payload := packU32 (UInt32.ofNat freeIndex)
      let _ ← perform (.send .control Opcode.kSlotAssigned.code payload id)
      return slots

/-- All commands on the control channel. -/
def serveRequests (now : Int) : Nat → List Slot → Producing (List Slot)
  | 0, _ => do nomatch ← perform .stall
  | rounds + 1, slots => do
      let some cmd ← receive .control | return slots
      if cmd.type ≠ Opcode.kRequestSlot.code then serveRequests now rounds slots
      else serveRequests now rounds (← serveRequest now slots cmd.id)

/-- A command on the channel of a view. -/
def onCommand (s : Slot) (cmd : LLShmCommand) : Producing Slot := do
  if cmd.type = Opcode.kSetUrl.code then
    return { s with color := colorFromText cmd.data, dirty := true }
  else if cmd.type = Opcode.kMouseMove.code then
    let some (x, y) := unpackI32x2 cmd.data | return s
    -- Yellow.
    return { s with canvas := ← onCanvas (drawMark s.canvas s.width s.height x y 255 255 0) }
  else if cmd.type = Opcode.kMouseButton.code then
    let some (x, y, _, _) := unpackMouseButton cmd.data | return s
    -- White.
    return { s with canvas := ← onCanvas (drawMark s.canvas s.width s.height x y 255 255 255) }
  else if cmd.type = Opcode.kResize.code then
    let some (w, h) := unpackSize cmd.data | return s
    if w = 0 || h = 0 then return s
    let w := min w kMaxWidth
    let h := min h kMaxHeight
    if w = s.width && h = s.height then return s
    return { s with width := w, height := h, canvas := blankCanvas w h, dirty := true }
  else return s

/-- All commands on the channel of a view. -/
def onCommands (index : Nat) : Nat → Slot → Producing Slot
  | 0, _ => do nomatch ← perform .stall
  | rounds + 1, s => do
      let some cmd ← receive (.view index) | return s
      onCommands index rounds (← onCommand s cmd)

/-- The canvas is filled anew when something has changed, or after a while. -/
def refresh (now : Int) (s : Slot) : Producing Slot := do
  if s.dirty || now ≥ s.nextRegen then
    let size ← rand
    let first ← rand
    let second ← rand
    let canvas ← onCanvas (regenerate s.canvas s.width s.height s.color { size, first, second })
    return { s with canvas, nextRegen := now + kRegenPeriod, dirty := false }
  else return s

/-- `has_sub && command_owner_stale()`, which is only asked for where there is a subscriber. -/
def crashed (index : Nat) (hasSub : Bool) : Producing Bool :=
  if hasSub then perform (.commandOwnerStale index) else return false

/-- The subscriber, if there is one, may be a new one. -/
def noteSubscriber (now : Int) (hasSub : Bool) (s : Slot) : Producing Slot := do
  if !hasSub then return s
  if s.hadSubscriber then return { s with lastActive := now }
  let rand ← rand
  return { s with color := randomColor rand, dirty := true, lastActive := now }

/-- What is done for one slot in each round. -/
def tend (now : Int) (index : Nat) (s : Slot) : Producing Slot := do
  if !s.pub then return s
  let hasSub ← hasSubscriber index
  if ← crashed index hasSub then freeSlot index
  else if !hasSub && now - s.lastActive ≥ kIdleGracePeriod then freeSlot index
  else
    let s ← noteSubscriber now hasSub s
    let s ← onCommands index (← patience) { s with hadSubscriber := hasSub }
    refresh now s

/-- All slots from some index on. -/
def tendAll (now : Int) : Nat → List Slot → Producing (List Slot)
  | _, [] => return []
  | index, s :: rest => do
      let s ← tend now index s
      return s :: (← tendAll now (index + 1) rest)

/-- All slots from some index on are published. -/
def publishAll : Nat → List Slot → Producing Unit
  | _, [] => return ()
  | index, s :: rest => do
      if s.pub then
        let _ ← perform (.publish index s.canvas s.width s.height)
      publishAll (index + 1) rest

/-- The body of the main loop. -/
def tick (nextPublish : Int) (slots : List Slot) : Producing (Int × List Slot) := do
  let now ← clock
  let slots ← serveRequests now (← patience) slots
  let slots ← tendAll now 0 slots
  if now ≥ nextPublish then
    publishAll 0 slots
    perform .sleep
    return (now + kPublishPeriod, slots)
  else
    perform .sleep
    return (nextPublish, slots)

def mainLoop : Nat → Int → List Slot → Producing (List Slot)
  | 0, _, _ => do nomatch ← perform .stall
  | rounds + 1, nextPublish, slots => do
      if !(← running) then return slots
      let next ← tick nextPublish slots
      mainLoop rounds next.1 next.2

/-- The slots go out of scope. -/
def destroyAll : Nat → List Slot → Producing Unit
  | _, [] => return ()
  | index, s :: rest => do
      if s.pub then perform (.destroy (.view index))
      destroyAll (index + 1) rest

/-- The number of slots, from the result of `atoi` if there is an argument. -/
def slotCount (argument : Option Int32) : Nat :=
  match argument with
  | none => kSlotCount
  | some count => if count ≤ 0 then 1 else count.toInt.toNat

/-- `main`. -/
def main (argument : Option Int32) : Producing Int := do
  let slots := List.replicate (slotCount argument) {}
  if !(← create .control controlCfg) then return 1
  let nextPublish ← clock
  let slots ← mainLoop (← patience) nextPublish slots
  perform (.destroy .control)
  destroyAll 0 slots
  return 0

end ShmFrame.Multiview
