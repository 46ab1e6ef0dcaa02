import ShmFrame.Commands.RingInvariant

/-! Each ring is a lossless bounded FIFO, whatever the interleaving of its producer and its
consumer and wherever its counters start.
-/

namespace ShmFrame.Commands

open ShmFrame.Foundation

section Steps

variable {ring : LLRing} {bits : Nat} {start : UInt64} {d after : RingData}

-----------------------------------------------------------------------------------------
-- The producer's steps
-----------------------------------------------------------------------------------------

/-- Entering `push` between calls checks the arguments. -/
theorem PusherInv.enterPush {p : Pusher} (inv : PusherInv ring start d p)
    (mapped : Mapped ring bits) (idle : p.phase = .idle) (call : PushCall)
    : PusherInv ring start d (p.enterPush ring call) := by
  unfold Pusher.enterPush
  simp only [mapped.valid, Bool.not_true, Bool.false_or]
  split
  · rename_i oversized
    refine ⟨by simp only [PushKnows, idle], fun _ small => ?_, inv.counted⟩
    exact absurd (of_decide_eq_true oversized) (UInt32.not_lt.mpr small)
  · rename_i fits
    exact {
      knows := ⟨UInt32.not_lt.mp (by simpa using fits), rfl⟩
      refused := fun refused => by simp at refused
      counted := inv.counted
    }

/-- Entering `pending` between calls loads nothing yet. -/
theorem PusherInv.enterPending {p : Pusher} (inv : PusherInv ring start d p)
    (mapped : Mapped ring bits) (tailFirst : Bool)
    : PusherInv ring start d (p.enterPending ring tailFirst) := by
  unfold Pusher.enterPending
  simp only [mapped.valid, Bool.not_true, Bool.false_eq_true, if_false]
  cases tailFirst with
  | true => exact ⟨rfl, inv.refused, fun number counted => by simp at counted⟩
  | false => exact ⟨trivial, inv.refused, fun number counted => by simp at counted⟩

/-- Storing into the cell of `head` leaves the oldest unread command where it is. -/
theorem RingInv.store_keepsOldest (inv : RingInv ring start d) (mapped : Mapped ring bits)
    (room : d.queue.unread < ring.slots.toNat) (cell : Cell)
    : KeepsOldest ring start d
        (d.setCell (ring.cellOf (counter start d.queue.accepted.length)) cell) := by
  refine ⟨rfl, Nat.le_refl _, fun some => if_neg ?_⟩
  have total := inv.unread_add
  exact inv.apart mapped room (Nat.le_refl _) (by omega)

/-- Storing one more field of the header keeps what the producer knows. -/
theorem PusherInv.storeField {p : Pusher} {head : UInt64} {field : CmdField}
    {rest : List CmdField} (inv : PusherInv ring start d p)
    (phase : p.phase = .storeField head (field :: rest))
    : PusherInv ring start
        (d.setCell (ring.cellOf head)
          {
            d.cells (ring.cellOf head) with
            header := field.copy p.call.header (d.cells (ring.cellOf head)).header
          })
        (if rest.isEmpty then p.afterHeader head
          else { p with phase := .storeField head rest }) := by
  have knows := inv.knows
  rw [PushKnows, phase] at knows
  obtain ⟨filling, agrees⟩ := knows
  have stored
      : ∀ other ∉ rest,
          CmdField.Agree other p.call.header
            (field.copy p.call.header (d.cells (ring.cellOf head)).header) := by
    intro other absent
    by_cases same : other = field
    · subst same
      exact other.agree_copy_self _ _
    · exact (CmdField.agree_copy_other same _ _ _).mpr
        (agrees other (by simp [same, absent]))
  have filled : Filling ring start
      (d.setCell (ring.cellOf head)
        {
          d.cells (ring.cellOf head) with
          header := field.copy p.call.header (d.cells (ring.cellOf head)).header
        }) p.call head :=
    ⟨filling.small, filling.head, filling.room⟩
  split
  · rename_i last
    have complete := List.isEmpty_iff.mp last
    subst complete
    have header := LLCmdHeader.eq_of_agree fun other => stored other (by simp)
    unfold Pusher.afterHeader
    split
    · refine ⟨⟨filled, ?_, fun source _ index member => by simp at member⟩, inv.refused,
        inv.counted⟩
      rw [d.setCell_same]
      exact header.symm
    · rename_i nothing
      refine ⟨⟨filled, ?_, fun source given index inside => ?_⟩, inv.refused, inv.counted⟩
      · rw [d.setCell_same]
        exact header.symm
      · have there : p.call.data = some source := given
        simp only [there, Option.isSome_some, Bool.and_true, decide_eq_true_eq, not_not]
          at nothing
        simp [nothing] at inside
  · refine ⟨⟨filled, fun other absent => ?_⟩, inv.refused, inv.counted⟩
    rw [d.setCell_same]
    exact stored other absent

/-- A filled cell carries the command that is being pushed. -/
theorem Filling.holds {call : PushCall} {head : UInt64}
    (filling : Filling ring start d call head)
    (header : (d.cells (ring.cellOf head)).header = call.header)
    (payload
      : ∀ source,
          call.data = some source
          → ∀ index < call.size.toNat,
              (d.cells (ring.cellOf head)).payload index = source index)
    : Holds ring (d.cells (ring.cellOf head))
        (call.command (d.cells (ring.cellOf head)).payload) := by
  refine ⟨header ▸ filling.small, ?_⟩
  simp only [Cell.command, Popper.assemble, header, PushCall.command, PushCall.header,
    LLShmCommand.mk.injEq, true_and]
  cases given : call.data with
  | none => rfl
  | some source =>
      refine List.map_congr_left fun index member => ?_
      exact payload source given index (List.mem_range.mp member)

/-- Every access of the producer keeps the ring and its own invariant and leaves the oldest
unread command alone, by cases on the cut.
-/
theorem PusherInv.access {p next : Pusher} (inv : RingInv ring start d)
    (mapped : Mapped ring bits) (known : PusherInv ring start d p)
    (stepped : p.access ring d = some (after, next))
    : RingInv ring start after ∧ PusherInv ring start after next
      ∧ KeepsOldest ring start d after := by
  have knows := known.knows
  have few := inv.exact_.unread_le
  have range := ring.slots.toNat_lt
  -- The steps of `pending` and the loads of `push` change the producer only.
  have quiet {next : Pusher} (invariant : PusherInv ring start d next)
      : RingInv ring start d ∧ PusherInv ring start d next ∧ KeepsOldest ring start d d :=
    ⟨inv, invariant, .refl d⟩
  have exactly {difference : UInt64} (distance : difference.toNat = d.queue.unread)
      : difference.toUInt32.toNat = d.queue.unread := by
    rw [UInt64.toNat_toUInt32, distance]
    exact Nat.mod_eq_of_lt (by omega)
  unfold Pusher.access at stepped
  split at stepped
  · cases stepped
  · rename_i phase
    rw [PushKnows, phase] at knows
    cases stepped
    exact quiet ⟨⟨knows, inv.head⟩, known.refused, known.counted⟩
  · rename_i head phase
    rw [PushKnows, phase] at knows
    obtain ⟨⟨fits, silent⟩, loaded⟩ := knows
    have distance := inv.distance
    rw [inv.head, ← loaded] at distance
    dsimp only at stepped
    split at stepped
    · rename_i full
      cases stepped
      refine quiet ⟨trivial, fun _ _ => ?_, known.counted⟩
      have more := UInt64.le_iff_toNat_le.mp full
      rw [distance, UInt32.toNat_toUInt64] at more
      exact Nat.le_antisymm few more
    · rename_i room
      cases stepped
      refine quiet ⟨⟨⟨fits, loaded, ?_⟩, fun field absent => ?_⟩, fun refused => ?_,
        known.counted⟩
      · have less := UInt64.lt_iff_toNat_lt.mp (UInt64.not_le.mp room)
        rwa [distance, UInt32.toNat_toUInt64] at less
      · cases field <;> simp [CmdField.pushOrder] at absent
      · have answered : p.result = some false := refused
        simp [silent] at answered
  · cases stepped
  · rename_i head field rest phase
    rw [PushKnows, phase] at knows
    have filling := knows.1
    cases stepped
    have place := congrArg ring.cellOf filling.head
    refine ⟨?_, known.storeField phase, ?_⟩
    · rw [place]
      exact inv.store mapped filling.room _
    · rw [place]
      exact inv.store_keepsOldest mapped filling.room _
  · cases stepped
  · rename_i head phase
    rw [PushKnows, phase] at knows
    obtain ⟨filling, header, payload⟩ := knows
    cases stepped
    have loaded : head = d.head := filling.head.trans inv.head.symm
    have held
        : Holds ring (d.cells (ring.cellOf (counter start d.queue.accepted.length)))
            (p.call.command (d.cells (ring.cellOf head)).payload) := by
      rw [← filling.head]
      exact filling.holds header payload
    refine ⟨?_, ⟨trivial, fun refused => by simp at refused, known.counted⟩, ?_⟩
    · have advanced := inv.advance filling.room held
      rwa [← loaded] at advanced
    · exact ⟨rfl, by simp [Fifo.push], fun _ => rfl⟩
  · rename_i tail phase
    rw [PushKnows, phase] at knows
    obtain ⟨loaded, fewer, small⟩ := knows
    cases stepped
    refine quiet ⟨trivial, known.refused, fun number counted => ?_⟩
    obtain rfl := Option.some.inj counted
    change (d.head - tail).toUInt32.toNat = p.unread
    rw [UInt64.toNat_toUInt32, inv.head, loaded,
      counter_distance start (Nat.sub_le _ _) (by omega), Nat.sub_sub_self fewer]
    exact Nat.mod_eq_of_lt (by omega)
  · cases stepped
    exact quiet ⟨inv.head, known.refused, known.counted⟩
  · rename_i head phase
    rw [PushKnows, phase] at knows
    have distance := inv.distance
    rw [inv.head, ← knows] at distance
    cases stepped
    refine quiet ⟨trivial, known.refused, fun number counted => ?_⟩
    obtain rfl := Option.some.inj counted
    exact exactly distance
  · rename_i phase
    rw [PushKnows, phase] at knows
    cases stepped
    have total := inv.unread_add
    refine quiet ⟨⟨?_, ?_, few⟩, known.refused, fun number counted => ?_⟩
    · change d.tail = counter start (d.queue.accepted.length - d.queue.unread)
      rw [inv.tail, ← total, Nat.add_sub_cancel]
    · exact total ▸ Nat.le_add_left _ _
    · have answered : p.counted = some number := counted
      simp [knows] at answered

/-- Copying a payload byte keeps the ring and the producer's invariant and leaves the
oldest unread command alone.
-/
theorem PusherInv.copyByte {p next : Pusher} {index : Nat} (inv : RingInv ring start d)
    (mapped : Mapped ring bits) (known : PusherInv ring start d p)
    (stepped : p.copyByte ring d index = some (after, next))
    : RingInv ring start after ∧ PusherInv ring start after next
      ∧ KeepsOldest ring start d after := by
  have knows := known.knows
  unfold Pusher.copyByte at stepped
  split at stepped
  case h_2 => cases stepped
  rename_i head copied source phase given
  rw [PushKnows, phase] at knows
  obtain ⟨filling, header, payload⟩ := knows
  split at stepped
  case isFalse => cases stepped
  cases stepped
  have place := congrArg ring.cellOf filling.head
  -- The bytes copied so far, and this one, are those of the source.
  have extended
      : ∀ other ∈ insert index copied,
          (if other = index then source index
            else (d.cells (ring.cellOf head)).payload other)
          = source other := by
    intro other member
    by_cases same : other = index
    · rw [if_pos same, same]
    · rw [if_neg same]
      exact payload source given other ((Finset.mem_insert.mp member).resolve_left same)
  refine ⟨?_, ?_, ?_⟩
  · rw [place]
    exact inv.store mapped filling.room _
  · split
    · rename_i complete
      refine ⟨⟨⟨filling.small, filling.head, filling.room⟩, ?_, fun other same here inside => ?_⟩,
        known.refused, known.counted⟩
      · rw [d.setCell_same]
        exact header
      · obtain rfl := Option.some.inj (given.symm.trans same)
        rw [d.setCell_same]
        exact extended here (complete (Finset.mem_range.mpr inside))
    · refine ⟨⟨⟨filling.small, filling.head, filling.room⟩, ?_, fun other same here member => ?_⟩,
        known.refused, known.counted⟩
      · rw [d.setCell_same]
        exact header
      · obtain rfl := Option.some.inj (given.symm.trans same)
        rw [d.setCell_same]
        exact extended here member
  · rw [place]
    exact inv.store_keepsOldest mapped filling.room _

-----------------------------------------------------------------------------------------
-- The consumer's steps
-----------------------------------------------------------------------------------------

/-- Entering `pop` loads nothing yet. -/
theorem PopperInv.enterPop {p : Popper} (mapped : Mapped ring bits)
    : PopperInv ring start d (p.enterPop ring) := by
  unfold Popper.enterPop
  simp only [mapped.valid, if_true]
  exact ⟨rfl, fun empty => by simp at empty⟩

/-- A header that agrees outside the size assembles the command of the cell. -/
theorem Popper.assemble_eq {cell : Cell} {info : LLCmdHeader} {bytes : Nat → UInt8}
    (agrees : ∀ field : CmdField, field ≠ .size → field.Agree cell.header info)
    (copied : ∀ index < cell.header.size.toNat, bytes index = cell.payload index)
    : Popper.assemble info cell.header.size bytes = cell.command := by
  have id := agrees .id (by decide)
  have replyTo := agrees .replyTo (by decide)
  have timestampNs := agrees .timestampNs (by decide)
  have type := agrees .type (by decide)
  simp only [CmdField.Agree] at id replyTo timestampNs type
  simp only [Popper.assemble, Cell.command, id, replyTo, timestampNs, type,
    LLShmCommand.mk.injEq, true_and]
  exact List.map_congr_left fun index member => copied index (List.mem_range.mp member)

/-- Once the size is known, the consumer copies that many bytes or none at all. -/
theorem PopperInv.sized {p : Popper} {tail : UInt64} {info : LLCmdHeader}
    (inv : PopperInv ring start d p) (reading : Reading start d tail)
    (agrees
      : ∀ field : CmdField, field ≠ .size
        → field.Agree (d.cells (ring.cellOf tail)).header info)
    : PopperInv ring start d (p.sized tail info (d.cells (ring.cellOf tail)).header.size) := by
  unfold Popper.sized
  split
  · rename_i zero
    refine ⟨⟨reading, (Popper.assemble_eq agrees fun index inside => ?_).symm⟩, inv.empty⟩
    simp [zero] at inside
  · exact ⟨⟨reading, agrees, rfl, fun index member => by simp at member⟩, inv.empty⟩

/-- Every access of the consumer keeps the ring and its own invariant and leaves the
producer's room alone, by cases on the cut.
-/
theorem PopperInv.access {p next : Popper} (inv : RingInv ring start d)
    (known : PopperInv ring start d p) (stepped : p.access ring d = some (after, next))
    : RingInv ring start after ∧ PopperInv ring start after next ∧ KeepsRoom d after := by
  have knows := known.knows
  have quiet {next : Popper} (invariant : PopperInv ring start d next)
      : RingInv ring start d ∧ PopperInv ring start d next ∧ KeepsRoom d d :=
    ⟨inv, invariant, .refl d⟩
  unfold Popper.access at stepped
  split at stepped
  · cases stepped
  · rename_i phase
    rw [PopKnows, phase] at knows
    cases stepped
    exact quiet ⟨⟨knows, inv.tail⟩, known.empty⟩
  · rename_i tail phase
    rw [PopKnows, phase] at knows
    obtain ⟨silent, loaded⟩ := knows
    have total := inv.unread_add
    have range := ring.slots.toNat_lt
    have few := inv.exact_.unread_le
    have same_iff : tail = d.head ↔ d.queue.popped.length = d.queue.accepted.length := by
      rw [loaded, inv.head]
      exact counter_eq_iff start (by omega) (by omega)
    dsimp only at stepped
    split at stepped
    · rename_i same
      cases stepped
      refine quiet ⟨trivial, fun _ => ?_⟩
      change d.queue.unread = 0
      have := same_iff.mp same
      omega
    · rename_i different
      cases stepped
      refine quiet ⟨⟨⟨loaded, ?_⟩, fun field noSize absent => ?_⟩, fun empty => ?_⟩
      · have := mt same_iff.mpr different
        omega
      · cases field <;> simp [CmdField.popOrder] at noSize absent
      · have answered : p.result = some false := empty
        simp [silent] at answered
  · cases stepped
  · rename_i tail field rest info phase
    rw [PopKnows, phase] at knows
    obtain ⟨reading, agrees⟩ := knows
    cases stepped
    have loaded
        : ∀ other, other ≠ .size → other ∉ rest
            → CmdField.Agree other (d.cells (ring.cellOf tail)).header
                (field.copy (d.cells (ring.cellOf tail)).header info) := by
      intro other noSize absent
      by_cases same : other = field
      · subst same
        exact other.agree_copy_self _ _
      · exact (CmdField.agree_copy_other same _ _ _).mpr
          (agrees other noSize (by simp [same, absent]))
    split
    · rename_i last
      refine quiet ⟨⟨reading, fun other noSize => loaded other noSize ?_⟩, known.empty⟩
      simp [List.isEmpty_iff.mp last]
    · exact quiet ⟨⟨reading, loaded⟩, known.empty⟩
  · rename_i tail info phase
    rw [PopKnows, phase] at knows
    obtain ⟨command, there, small, carried⟩ := inv.oldest knows.1
    split at stepped
    · rename_i large
      exact absurd large (UInt32.not_lt.mpr small)
    · cases stepped
      exact quiet ⟨knows, known.empty⟩
  · rename_i tail info phase
    rw [PopKnows, phase] at knows
    cases stepped
    exact quiet (known.sized knows.1 knows.2)
  · cases stepped
  · rename_i tail out phase
    rw [PopKnows, phase] at knows
    obtain ⟨reading, carried⟩ := knows
    obtain ⟨command, there, small, same⟩ := inv.oldest reading
    obtain rfl : command = out := same.symm.trans carried
    cases stepped
    have loaded : tail = d.tail := reading.tail.trans inv.tail.symm
    refine ⟨?_, ⟨trivial, fun empty => by simp at empty⟩, ⟨rfl, by simp [Fifo.pop], rfl⟩⟩
    rw [loaded]
    exact inv.release there

/-- Copying a payload byte keeps the consumer's invariant. -/
theorem PopperInv.copyByte {p next : Popper} {index : Nat}
    (known : PopperInv ring start d p) (stepped : p.copyByte ring d index = some next)
    : PopperInv ring start d next := by
  have knows := known.knows
  unfold Popper.copyByte at stepped
  split at stepped
  case h_2 => cases stepped
  rename_i tail info size bytes copied phase
  rw [PopKnows, phase] at knows
  obtain ⟨reading, agrees, sameSize, bytesEq⟩ := knows
  split at stepped
  case isFalse => cases stepped
  have extended
      : ∀ other ∈ insert index copied,
          (if other = index then (d.cells (ring.cellOf tail)).payload index else bytes other)
          = (d.cells (ring.cellOf tail)).payload other := by
    intro other member
    by_cases same : other = index
    · rw [if_pos same, same]
    · rw [if_neg same]
      exact bytesEq other ((Finset.mem_insert.mp member).resolve_left same)
  dsimp only at stepped
  split at stepped
  · rename_i complete
    cases stepped
    subst sameSize
    refine ⟨⟨reading, (Popper.assemble_eq agrees fun other inside => ?_).symm⟩, known.empty⟩
    exact extended other (complete (Finset.mem_range.mpr inside))
  · cases stepped
    exact ⟨⟨reading, agrees, sameSize, extended⟩, known.empty⟩

end Steps

-----------------------------------------------------------------------------------------
-- Whole runs
-----------------------------------------------------------------------------------------

/-- Ring, producer and consumer satisfy their invariants together. -/
structure RingStateInv (ring : LLRing) (start : UInt64) (s : RingState) : Prop where
  handle : s.ring = ring
  data : RingInv ring start s.data
  pusher : PusherInv ring start s.data s.pusher
  popper : PopperInv ring start s.data s.popper

/-- An empty ring with both sides idle satisfies the invariant. -/
theorem RingStateInv.create {ring : LLRing} {start : UInt64} (cells : Nat → Cell)
    : RingStateInv ring start (RingState.create ring start cells) where
  handle := rfl
  data := .create cells
  pusher := .create
  popper := .create

/-- Every step of either side keeps the invariant. -/
theorem RingStateInv.step {ring : LLRing} {bits : Nat} {start : UInt64}
    {s next : RingState} {action : RingAction} (inv : RingStateInv ring start s)
    (mapped : Mapped ring bits)
    (stepped : s.step action = some next)
    : RingStateInv ring start next := by
  obtain ⟨handle, data, pusher, popper⟩ := inv
  subst handle
  have produced {outcome : Option (RingData × Pusher)}
      (moved : s.pushed outcome = some next)
      (kept
        : ∀ d p, outcome = some (d, p)
          → RingInv s.ring start d ∧ PusherInv s.ring start d p
            ∧ KeepsOldest s.ring start s.data d)
      : RingStateInv s.ring start next := by
    obtain ⟨⟨d, p⟩, outcomeEq, rfl⟩ := Option.map_eq_some_iff.mp moved
    obtain ⟨ring, known, keeps⟩ := kept d p outcomeEq
    exact ⟨rfl, ring, known, popper.keep keeps⟩
  cases action with
  | push call =>
      simp only [RingState.step] at stepped
      split at stepped
      · rename_i idle
        cases stepped
        exact ⟨rfl, data, pusher.enterPush mapped idle call, popper⟩
      · cases stepped
  | pending tailFirst =>
      simp only [RingState.step] at stepped
      split at stepped
      · cases stepped
        exact ⟨rfl, data, pusher.enterPending mapped tailFirst, popper⟩
      · cases stepped
  | pushAccess => exact produced stepped fun d p moved => pusher.access data mapped moved
  | pushByte index => exact produced stepped fun d p moved => pusher.copyByte data mapped moved
  | pop =>
      simp only [RingState.step] at stepped
      split at stepped
      · cases stepped
        exact ⟨rfl, data, pusher, .enterPop mapped⟩
      · cases stepped
  | popAccess =>
      obtain ⟨⟨d, p⟩, moved, rfl⟩ := Option.map_eq_some_iff.mp stepped
      obtain ⟨ring, known, keeps⟩ := popper.access data moved
      exact ⟨rfl, ring, pusher.keep keeps, known⟩
  | popByte index =>
      obtain ⟨p, moved, rfl⟩ := Option.map_eq_some_iff.mp stepped
      exact ⟨rfl, data, pusher, popper.copyByte moved⟩

/-- A command of two bytes. -/
def tinyCall : PushCall where
  type := 4
  data := some fun index => if index = 0 then 8 else 9
  size := 2
  id := 1
  timestampNs := 6

/-- One `push` of the command and one `pop`, without disturbance. -/
def pushAndPop : List RingAction :=
  .push tinyCall :: List.replicate 7 .pushAccess
  ++ [.pushByte 1, .pushByte 0, .pushAccess]
  ++ .pop :: List.replicate 8 .popAccess ++ [.popByte 0, .popByte 1, .popAccess]

end ShmFrame.Commands
