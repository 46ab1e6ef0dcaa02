import ShmFrame.Commands.RingInvariant

/-! `push` and `pop` as calls that nothing interrupts. -/

namespace ShmFrame.Commands

open ShmFrame.Foundation

/-- The cell after a `push` has filled it: bytes are copied only from a source. -/
def PushCall.fill (call : PushCall) (cell : Cell) : Cell where
  header := call.header
  payload :=
    match call.data with
    | none => cell.payload
    | some source =>
        fun index => if index < call.size.toNat then source index else cell.payload index

/-- `LLRing::push`. -/
def push (ring : LLRing) (d : RingData) (call : PushCall) : RingData × Bool :=
  if !ring.valid || call.size > ring.maxBytes then (d, false)
  else if d.head - d.tail ≥ ring.slots.toUInt64 then (d, false)
  else
    let cell := call.fill (d.cells (ring.cellOf d.head))
    let stored := d.setCell (ring.cellOf d.head) cell
    ({ stored with head := d.head + 1, queue := d.queue.push cell.command }, true)

/-- `LLRing::pop`. -/
def pop (ring : LLRing) (d : RingData) : RingData × Option LLShmCommand :=
  if !ring.valid then (d, none)
  else if d.tail = d.head then (d, none)
  else
    let cell := d.cells (ring.cellOf d.tail)
    let size := if cell.header.size > ring.maxBytes then ring.maxBytes else cell.header.size
    let out := Popper.assemble cell.header size cell.payload
    ({ d with tail := d.tail + 1, queue := d.queue.pop out }, some out)

section Calls

variable {ring : LLRing} {bits : Nat} {start : UInt64} {d : RingData}

/-- What a `push` can do to a ring that satisfies the invariant. -/
inductive Pushed (ring : LLRing) (start : UInt64) (d : RingData) (call : PushCall)
    : RingData × Bool → Prop
  | refused : Pushed ring start d call (d, false)
  | accepted {next command} (inv : RingInv ring start next)
    (queue : next.queue = d.queue.push command)
    (id : command.id = call.id) (replyTo : command.replyTo = call.replyTo)
    (type : command.type = call.type) (time : command.timestampNs = call.timestampNs)
    : Pushed ring start d call (next, true)

/-- A `push` does one of these things. -/
theorem RingInv.push_cases (inv : RingInv ring start d) (mapped : Mapped ring bits)
    (call : PushCall)
    : Pushed ring start d call (push ring d call) := by
  unfold push
  split
  · exact .refused
  rename_i fits
  split
  · exact .refused
  rename_i notFull
  simp only [Bool.or_eq_true, Bool.not_eq_true', decide_eq_true_eq, not_or] at fits
  have room : d.queue.unread < ring.slots.toNat := by
    rw [← inv.distance]
    have less := UInt64.lt_iff_toNat_lt.mp (UInt64.not_le.mp notFull)
    rwa [UInt32.toNat_toUInt64] at less
  have stored := inv.store mapped room (call.fill (d.cells (ring.cellOf d.head)))
  rw [← inv.head] at stored
  refine .accepted (stored.advance room ?_) rfl rfl rfl rfl rfl
  change Holds ring ((d.setCell _ _).cells (ring.cellOf (counter start d.queue.accepted.length))) _
  rw [← inv.head, RingData.setCell_same]
  exact ⟨UInt32.not_lt.mp fits.2, rfl⟩

/-- What a `pop` can do to a ring that satisfies the invariant. -/
inductive Popped (ring : LLRing) (start : UInt64) (d : RingData)
    : RingData × Option LLShmCommand → Prop
  | empty (none_ : d.queue.unread = 0) : Popped ring start d (d, none)
  | taken {next command} (inv : RingInv ring start next)
    (oldest : d.queue.accepted[d.queue.popped.length]? = some command)
    (queue : next.queue = d.queue.pop command)
    : Popped ring start d (next, some command)

/-- A `pop` does one of these things. -/
theorem RingInv.pop_cases (inv : RingInv ring start d) (mapped : Mapped ring bits)
    : Popped ring start d (pop ring d) := by
  unfold pop
  split
  · rename_i invalid
    simp [mapped.valid] at invalid
  split
  · rename_i same
    refine .empty ?_
    rw [← inv.distance, same, UInt64.sub_self]
    rfl
  rename_i apart
  have reading : Reading start d d.tail := by
    refine ⟨inv.tail, Nat.pos_of_ne_zero fun none_ => apart ?_⟩
    have distance := inv.distance
    rw [none_] at distance
    have equal := UInt64.toNat_inj.mp (distance.trans UInt64.toNat_zero.symm)
    exact ((UInt64.sub_eq_iff_eq_add.mp equal).trans (UInt64.zero_add _)).symm
  obtain ⟨command, oldest, small, same⟩ := inv.oldest reading
  have uncut
      : (if (d.cells (ring.cellOf d.tail)).header.size > ring.maxBytes then ring.maxBytes
          else (d.cells (ring.cellOf d.tail)).header.size)
        = (d.cells (ring.cellOf d.tail)).header.size :=
    if_neg (UInt32.not_lt.mpr small)
  dsimp only
  rw [uncut]
  change Popped ring start d
    ({ d with tail := d.tail + 1, queue := d.queue.pop (Cell.command _) }, some (Cell.command _))
  rw [same]
  exact .taken (inv.release oldest) oldest rfl

/-- A `push` that succeeds has appended a command that carries the ids of the call. -/
theorem RingInv.of_push (inv : RingInv ring start d) (mapped : Mapped ring bits)
    {call : PushCall} {next : RingData} (pushed : push ring d call = (next, true))
    : ∃ command,
        RingInv ring start next
        ∧ next.queue = d.queue.push command
        ∧ command.id = call.id
        ∧ command.replyTo = call.replyTo := by
  have outcome := inv.push_cases mapped call
  rw [pushed] at outcome
  cases outcome with
  | accepted after queue id replyTo => exact ⟨_, after, queue, id, replyTo⟩

/-- A `pop` that succeeds has handed out the oldest command. -/
theorem RingInv.of_pop (inv : RingInv ring start d) (mapped : Mapped ring bits)
    {next : RingData} {command : LLShmCommand} (popped : pop ring d = (next, some command))
    : RingInv ring start next
      ∧ d.queue.accepted[d.queue.popped.length]? = some command
      ∧ next.queue = d.queue.pop command := by
  have outcome := inv.pop_cases mapped
  rw [popped] at outcome
  cases outcome with
  | taken after oldest queue => exact ⟨after, oldest, queue⟩

end Calls

end ShmFrame.Commands
