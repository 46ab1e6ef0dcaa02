import ShmFrame.Commands.Ring

/-! What the rings hold at every cut of both sides' calls: the cells between the counters
carry the unread commands, each side knows enough about the cell it works on, and neither
side's stores disturb what the other one knows.
-/

namespace ShmFrame.Commands

open ShmFrame.Foundation

/-- A handle into a mapping whose ring has a power-of-two number of cells. -/
structure Mapped (ring : LLRing) (bits : Nat) : Prop where
  valid : ring.valid = true
  slots : ring.slots.toNat = 2 ^ bits

/-- The cell of a counter value is its unbounded value modulo the number of cells. -/
theorem Mapped.cellOf {ring : LLRing} {bits : Nat} (mapped : Mapped ring bits)
    (start : UInt64) (count : Nat)
    : ring.cellOf (counter start count) = (start.toNat + count) % ring.slots.toNat := by
  have range := ring.slots.toNat_lt
  rw [mapped.slots] at range ⊢
  have few : bits < 32 := (Nat.pow_lt_pow_iff_right (by decide)).mp range
  refine counter_mask start _ count (by omega) ?_
  have one : (1 : UInt32) ≤ ring.slots := by
    rw [UInt32.le_iff_toNat_le, mapped.slots]
    exact Nat.one_le_two_pow
  rw [UInt32.toNat_toUInt64, UInt32.toNat_sub_of_le _ _ one, mapped.slots]
  rfl

/-- Headers that agree in all five fields are equal. -/
theorem LLCmdHeader.eq_of_agree {left right : LLCmdHeader}
    (agree : ∀ field : CmdField, field.Agree left right)
    : left = right := by
  cases left
  cases right
  have := agree .id
  have := agree .replyTo
  have := agree .timestampNs
  have := agree .type
  have := agree .size
  simp_all [CmdField.Agree]

/-- What `pop` would make of a cell. -/
def Cell.command (cell : Cell) : LLShmCommand :=
  Popper.assemble cell.header cell.header.size cell.payload

/-- A cell carries a command that `pop` returns unchanged. -/
def Holds (ring : LLRing) (cell : Cell) (command : LLShmCommand) : Prop :=
  cell.header.size ≤ ring.maxBytes ∧ cell.command = command

/-- The words of a ring and its history agree: the counters count the history, and the
cells between them carry the unread commands.
-/
structure RingInv (ring : LLRing) (start : UInt64) (d : RingData) : Prop where
  head : d.head = counter start d.queue.accepted.length
  tail : d.tail = counter start d.queue.popped.length
  exact_ : d.queue.Exact ring.slots.toNat
  held
    : ∀ index command,
        d.queue.popped.length ≤ index
        → d.queue.accepted[index]? = some command
        → Holds ring (d.cells (ring.cellOf (counter start index))) command

/-- The cell the producer fills, once it has found room for it. -/
structure Filling (ring : LLRing) (start : UInt64) (d : RingData) (call : PushCall)
    (head : UInt64)
    : Prop where
  small : call.size ≤ ring.maxBytes
  head : head = counter start d.queue.accepted.length
  room : d.queue.unread < ring.slots.toNat

/-- What the producer knows at each cut of its calls. -/
def PushKnows (ring : LLRing) (start : UInt64) (d : RingData) (p : Pusher) : Prop :=
  match p.phase with
  | .idle | .pendingHead none => True
  | .pendingTail none => p.counted = none
  | .loadHead => p.call.size ≤ ring.maxBytes ∧ p.result = none
  | .loadTail head =>
      (p.call.size ≤ ring.maxBytes ∧ p.result = none) ∧ head = counter start d.queue.accepted.length
  | .storeField head rest =>
      Filling ring start d p.call head
      ∧ ∀ field ∉ rest,
          CmdField.Agree field p.call.header (d.cells (ring.cellOf head)).header
  | .copy head copied =>
      Filling ring start d p.call head
      ∧ (d.cells (ring.cellOf head)).header = p.call.header
      ∧ ∀ source,
          p.call.data = some source
          → ∀ index ∈ copied, (d.cells (ring.cellOf head)).payload index = source index
  | .storeHead head =>
      Filling ring start d p.call head
      ∧ (d.cells (ring.cellOf head)).header = p.call.header
      ∧ ∀ source,
          p.call.data = some source
          → ∀ index < p.call.size.toNat,
              (d.cells (ring.cellOf head)).payload index = source index
  | .pendingHead (some tail) =>
      tail = counter start (d.queue.accepted.length - p.unread)
      ∧ p.unread ≤ d.queue.accepted.length
      ∧ p.unread ≤ ring.slots.toNat
  | .pendingTail (some head) => head = counter start d.queue.accepted.length

/-- The producer's knowledge, and what its last results mean. -/
structure PusherInv (ring : LLRing) (start : UInt64) (d : RingData) (p : Pusher)
    : Prop where
  knows : PushKnows ring start d p
  refused : p.result = some false → p.call.size ≤ ring.maxBytes → p.held = ring.slots.toNat
  counted : ∀ number, p.counted = some number → number.toNat = p.unread

/-- A producer that has done nothing yet knows nothing. -/
theorem PusherInv.create {ring : LLRing} {start : UInt64} {d : RingData}
    : PusherInv ring start d {} where
  knows := trivial
  refused := fun refused => by simp at refused
  counted := fun number counted => by simp at counted

/-- A producer between calls does not care what becomes of the ring. -/
theorem PusherInv.of_idle {ring : LLRing} {start : UInt64} {d after : RingData} {p : Pusher}
    (inv : PusherInv ring start d p) (idle : p.phase = .idle)
    : PusherInv ring start after p :=
  ⟨by simp only [PushKnows, idle], inv.refused, inv.counted⟩

/-- The cell the consumer reads, once it has found a command there. -/
structure Reading (start : UInt64) (d : RingData) (tail : UInt64) : Prop where
  tail : tail = counter start d.queue.popped.length
  some : 0 < d.queue.unread

/-- What the consumer knows at each cut of its calls. -/
def PopKnows (ring : LLRing) (start : UInt64) (d : RingData) (p : Popper) : Prop :=
  match p.phase with
  | .idle => True
  | .loadTail => p.result = none
  | .loadHead tail => p.result = none ∧ tail = counter start d.queue.popped.length
  | .loadField tail rest info =>
      Reading start d tail
      ∧ ∀ field, field ≠ .size → field ∉ rest
          → CmdField.Agree field (d.cells (ring.cellOf tail)).header info
  | .compareSize tail info | .loadSize tail info =>
      Reading start d tail
      ∧ ∀ field, field ≠ .size
          → CmdField.Agree field (d.cells (ring.cellOf tail)).header info
  | .copy tail info size bytes copied =>
      Reading start d tail
      ∧ (∀ field, field ≠ .size
          → CmdField.Agree field (d.cells (ring.cellOf tail)).header info)
      ∧ size = (d.cells (ring.cellOf tail)).header.size
      ∧ ∀ index ∈ copied, bytes index = (d.cells (ring.cellOf tail)).payload index
  | .storeTail tail out =>
      Reading start d tail ∧ (d.cells (ring.cellOf tail)).command = out

/-- The consumer's knowledge, and what an empty answer means. -/
structure PopperInv (ring : LLRing) (start : UInt64) (d : RingData) (p : Popper)
    : Prop where
  knows : PopKnows ring start d p
  empty : p.result = some false → p.unread = 0

/-- A consumer that has done nothing yet knows nothing. -/
theorem PopperInv.create {ring : LLRing} {start : UInt64} {d : RingData}
    : PopperInv ring start d {} where
  knows := trivial
  empty := fun empty => by simp at empty

/-- A consumer between calls does not care what becomes of the ring. -/
theorem PopperInv.of_idle {ring : LLRing} {start : UInt64} {d after : RingData} {p : Popper}
    (inv : PopperInv ring start d p) (idle : p.phase = .idle)
    : PopperInv ring start after p :=
  ⟨by simp only [PopKnows, idle], inv.empty⟩

-----------------------------------------------------------------------------------------
-- Facts about the words
-----------------------------------------------------------------------------------------

namespace RingInv

variable {ring : LLRing} {bits : Nat} {start : UInt64} {d : RingData}

/-- An empty ring satisfies the invariant wherever its counters start. -/
theorem create (cells : Nat → Cell)
    : RingInv ring start { head := start, tail := start, cells } where
  head := (counter_zero start).symm
  tail := (counter_zero start).symm
  exact_ := .empty
  held := fun index command _ accepted => by simp at accepted

/-- The number of commands accepted and not popped fits the ring. -/
theorem unread_add (inv : RingInv ring start d)
    : d.queue.popped.length + d.queue.unread = d.queue.accepted.length := by
  have fewer := inv.exact_.inOrder.length_le
  rw [Fifo.unread]
  omega

/-- The difference of the words is the number of unread commands. -/
theorem distance (inv : RingInv ring start d)
    : (d.head - d.tail).toNat = d.queue.unread := by
  have range := ring.slots.toNat_lt
  have few := inv.exact_.unread_le
  rw [inv.head, inv.tail, counter_distance start inv.exact_.inOrder.length_le]
  · rfl
  · rw [Fifo.unread] at few
    omega

/-- The oldest unread command is in the cell of `tail`. -/
theorem oldest (inv : RingInv ring start d) {tail : UInt64}
    (reading : Reading start d tail)
    : ∃ command,
        d.queue.accepted[d.queue.popped.length]? = some command
        ∧ Holds ring (d.cells (ring.cellOf tail)) command := by
  have total := inv.unread_add
  have inside : d.queue.popped.length < d.queue.accepted.length := by
    have := reading.some
    omega
  have there := List.getElem?_eq_getElem inside
  exact ⟨_, there, reading.tail ▸ inv.held _ _ (Nat.le_refl _) there⟩

/-- With room in the ring, the cell of `head` is none of the unread ones. -/
theorem apart (inv : RingInv ring start d) (mapped : Mapped ring bits)
    (room : d.queue.unread < ring.slots.toNat) {index : Nat}
    (unread : d.queue.popped.length ≤ index) (inside : index < d.queue.accepted.length)
    : ring.cellOf (counter start index)
      ≠ ring.cellOf (counter start d.queue.accepted.length) := by
  have total := inv.unread_add
  rw [mapped.cellOf, mapped.cellOf]
  exact window_apart inside (by omega)

/-- Storing into the cell of `head` keeps the invariant while there is room. -/
theorem store (inv : RingInv ring start d) (mapped : Mapped ring bits)
    (room : d.queue.unread < ring.slots.toNat) (cell : Cell)
    : RingInv ring start
        (d.setCell (ring.cellOf (counter start d.queue.accepted.length)) cell) := by
  refine { inv with held := fun index command unread accepted => ?_ }
  have inside := (List.getElem?_eq_some_iff.mp accepted).1
  have other := inv.apart mapped room unread inside
  change Holds ring (if _ = _ then cell else d.cells _) command
  rw [if_neg other]
  exact inv.held index command unread accepted

/-- Advancing `head` over a filled cell accepts its command. -/
theorem advance (inv : RingInv ring start d)
    (room : d.queue.unread < ring.slots.toNat) {command : LLShmCommand}
    (filled
      : Holds ring (d.cells (ring.cellOf (counter start d.queue.accepted.length))) command)
    : RingInv ring start { d with head := d.head + 1, queue := d.queue.push command } where
  head := by
    change d.head + 1 = counter start (d.queue.accepted ++ [command]).length
    rw [inv.head, counter_succ, List.length_append, List.length_singleton]
  tail := inv.tail
  exact_ := inv.exact_.push room command
  held := by
    intro index other unread accepted
    change (d.queue.accepted ++ [command])[index]? = some other at accepted
    rcases Nat.lt_or_ge index d.queue.accepted.length with old | new
    · rw [List.getElem?_append_left old] at accepted
      exact inv.held index other unread accepted
    · have here : index = d.queue.accepted.length := by
        have := (List.getElem?_eq_some_iff.mp accepted).1
        rw [List.length_append, List.length_singleton] at this
        omega
      subst here
      rw [List.getElem?_append_right (Nat.le_refl _), Nat.sub_self] at accepted
      obtain rfl := Option.some.inj accepted
      exact filled

/-- Advancing `tail` hands out the oldest unread command. -/
theorem release (inv : RingInv ring start d) {command : LLShmCommand}
    (oldest : d.queue.accepted[d.queue.popped.length]? = some command)
    : RingInv ring start { d with tail := d.tail + 1, queue := d.queue.pop command } where
  head := inv.head
  tail := by
    change d.tail + 1 = counter start (d.queue.popped ++ [command]).length
    rw [inv.tail, counter_succ, List.length_append, List.length_singleton]
  exact_ := inv.exact_.pop oldest
  held := by
    intro index other unread accepted
    change (d.queue.popped ++ [command]).length ≤ index at unread
    rw [List.length_append, List.length_singleton] at unread
    exact inv.held index other (by omega) accepted

end RingInv

-----------------------------------------------------------------------------------------
-- Each side's steps keep what the other one knows
-----------------------------------------------------------------------------------------

/-- How the ring may change under the consumer's knowledge: nothing is popped, and the
oldest unread cell stays.
-/
structure KeepsOldest (ring : LLRing) (start : UInt64) (before after : RingData)
    : Prop where
  popped : after.queue.popped = before.queue.popped
  accepted : before.queue.accepted.length ≤ after.queue.accepted.length
  cell
    : 0 < before.queue.unread
      → after.cells (ring.cellOf (counter start before.queue.popped.length))
        = before.cells (ring.cellOf (counter start before.queue.popped.length))

/-- A ring that stays as it is keeps its oldest command. -/
theorem KeepsOldest.refl {ring : LLRing} {start : UInt64} (d : RingData)
    : KeepsOldest ring start d d :=
  ⟨rfl, Nat.le_refl _, fun _ => rfl⟩

/-- A consumer that found a command still finds it. -/
theorem Reading.keep {ring : LLRing} {start : UInt64} {d after : RingData} {tail : UInt64}
    (reading : Reading start d tail) (keeps : KeepsOldest ring start d after)
    : Reading start after tail
      ∧ after.cells (ring.cellOf tail) = d.cells (ring.cellOf tail) := by
  refine ⟨⟨by rw [keeps.popped]; exact reading.tail, ?_⟩, ?_⟩
  · have some := reading.some
    have grown := keeps.accepted
    rw [Fifo.unread] at some ⊢
    rw [keeps.popped]
    omega
  · rw [reading.tail]
    exact keeps.cell reading.some

/-- The consumer's invariant survives the producer's steps, by cases on its phase. -/
theorem PopperInv.keep {ring : LLRing} {start : UInt64} {d after : RingData} {p : Popper}
    (inv : PopperInv ring start d p) (keeps : KeepsOldest ring start d after)
    : PopperInv ring start after p := by
  refine { inv with knows := ?_ }
  have knows := inv.knows
  unfold PopKnows at knows ⊢
  split at knows
  · trivial
  · exact knows
  · rw [keeps.popped]
    exact knows
  all_goals
    obtain ⟨reading, same⟩ := knows.1.keep keeps
    exact ⟨reading, same ▸ knows.2⟩

/-- How the ring may change under the producer's knowledge: nothing is accepted and no
cell is stored.
-/
structure KeepsRoom (before after : RingData) : Prop where
  accepted : after.queue.accepted = before.queue.accepted
  popped : before.queue.popped.length ≤ after.queue.popped.length
  cells : after.cells = before.cells

/-- A ring that stays as it is keeps its room. -/
theorem KeepsRoom.refl (d : RingData) : KeepsRoom d d := ⟨rfl, Nat.le_refl _, rfl⟩

/-- A producer that found room still has it. -/
theorem Filling.keep {ring : LLRing} {start : UInt64} {d after : RingData} {call : PushCall}
    {head : UInt64} (filling : Filling ring start d call head)
    (keeps : KeepsRoom d after)
    : Filling ring start after call head := by
  refine ⟨filling.small, by rw [keeps.accepted]; exact filling.head, ?_⟩
  have room := filling.room
  have grown := keeps.popped
  rw [Fifo.unread] at room ⊢
  rw [keeps.accepted]
  omega

/-- The producer's invariant survives the consumer's steps, by cases on its phase. -/
theorem PusherInv.keep {ring : LLRing} {start : UInt64} {d after : RingData} {p : Pusher}
    (inv : PusherInv ring start d p) (keeps : KeepsRoom d after)
    : PusherInv ring start after p := by
  refine { inv with knows := ?_ }
  have knows := inv.knows
  unfold PushKnows at knows ⊢
  rw [keeps.cells]
  split at knows
  · trivial
  · trivial
  · exact knows
  · exact knows
  · rw [keeps.accepted]
    exact knows
  · exact ⟨knows.1.keep keeps, knows.2⟩
  · exact ⟨knows.1.keep keeps, knows.2⟩
  · exact ⟨knows.1.keep keeps, knows.2⟩
  · rw [keeps.accepted]
    exact knows
  · rw [keeps.accepted]
    exact knows

end ShmFrame.Commands
