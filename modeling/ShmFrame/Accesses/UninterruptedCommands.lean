import ShmFrame.Accesses.UninterruptedRead
import ShmFrame.Calls.Exchange

/-! Commands on bytes follow those on words: both ends of a ring, and the subscriber's calls
that use them.
-/

namespace ShmFrame.Accesses

open ShmFrame.Foundation ShmFrame.Foundation.Program
open LLSubscriber
open Commands (RingData Cell LLCmdHeader PushCall LLShmCommand)
open Calls (World Segment Subscriber Call Seat Seated)

-----------------------------------------------------------------------------------------
-- Changes of one segment
-----------------------------------------------------------------------------------------

/-- Putting a segment in its place again. -/
theorem setSegment_self (world : World) (g : Nat)
    : world.setSegment g (world.segments g) = world := by
  unfold World.setSegment
  congr
  funext other
  split
  · rename_i same
    rw [same]
  · rfl

/-- The last segment that is put in a place stays there. -/
theorem setSegment_twice (world : World) (g : Nat) (first second : Segment)
    : (world.setSegment g first).setSegment g second = world.setSegment g second := by
  unfold World.setSegment
  congr
  funext other
  by_cases same : other = g
  · simp [same]
  · simp [same]

section Segments

variable {a : Alone} {world : World} {clock : Nat → UInt64} {g : Nat} {segment next : Segment}

/-- A store, where one segment has been changed before. -/
theorem store_depicts (depicts : Depicts a (world.setSegment g segment) clock) {area : Area}
    {span : Span} {value : UInt64}
    (encodes
      : Encodes (a.bytes g) segment → Encodes (storeAt (a.bytes g) span value) next)
    (size : next.size = segment.size)
    : (access (.store g area span value)).Ensures alone Anything a fun _ later =>
        Depicts later (world.setSegment g next) clock := by
  refine (store_alone g area span value).mono (fun _ => id) fun _ later stored => ?_
  have before := depicts.segment g
  rw [World.setSegment_same] at before
  have after := depicts.setSegment (encodes before) (by rw [World.setSegment_same, size])
  rw [setSegment_twice] at after
  rw [stored]
  exact after

/-- A load, where one segment has been changed before. -/
theorem load_depicts (depicts : Depicts a (world.setSegment g segment) clock) {area : Area}
    {span : Span} {value : UInt64}
    (found : Encodes (a.bytes g) segment → wordAt (a.bytes g) span = value)
    : (access (.load g area span)).Ensures alone Anything a fun word later =>
        word = value ∧ later = a := by
  refine (load_alone g area span).mono (fun _ => id) fun word later loaded => ?_
  have before := depicts.segment g
  rw [World.setSegment_same] at before
  rw [found before] at loaded
  exact loaded

/-- Some bytes behind a first one are overwritten. -/
def overwritten (old : Nat → UInt8) (first : Nat) (source : Nat → UInt8) (count : Nat)
    (offset : Nat)
    : UInt8 :=
  if first ≤ offset ∧ offset < first + count then source (offset - first) else old offset

theorem overwritten_zero (old : Nat → UInt8) (first : Nat) (source : Nat → UInt8)
    : overwritten old first source 0 = old := by
  funext offset
  refine if_neg ?_
  omega

/-- The bytes are overwritten one after the other. -/
theorem overwritten_succ (old : Nat → UInt8) (first : Nat) (source : Nat → UInt8) (count : Nat)
    : overwritten old first source (count + 1)
      = fun other =>
          if other = first + count then source count
          else overwritten old first source count other := by
  funext other
  unfold overwritten
  by_cases here : other = first + count
  · subst here
    rw [if_pos rfl, if_pos (by omega), Nat.add_sub_cancel_left]
  · rw [if_neg here]
    congr 1
    rw [eq_iff_iff]
    omega

/-- Private bytes are copied to a stretch of a segment that holds bytes, by induction on their
number.
-/
theorem copyIn_depicts (holding : (Nat → UInt8) → Segment) {old : Nat → UInt8}
    (depicts : Depicts a (world.setSegment g (holding old)) clock) {area : Area}
    {base limit : Nat} (first : Nat)
    (size : ∀ left right, (holding left).size = (holding right).size)
    (stores
      : ∀ bytes old offset byte,
          offset < limit
          → Encodes bytes (holding old)
          → Encodes (storeAt bytes ⟨base + offset, 1⟩ byte.toUInt64)
              (holding fun other => if other = offset then byte else old other))
    (source : Nat → UInt8) (count : Nat) (fits : first + count ≤ limit)
    : (copyIn g area (base + first) source count).Ensures alone Anything a fun _ later =>
        Depicts later (world.setSegment g (holding (overwritten old first source count)))
          clock := by
  induction count with
  | zero =>
      rw [overwritten_zero]
      exact depicts
  | succ count ih =>
      refine Ensures.bind (ih (by omega)) fun _ later copied => ?_
      refine store_depicts copied (fun encodes => ?_) (size _ _)
      have stored := stores _ _ (first + count) (source count) (by omega) encodes
      rw [← Nat.add_assoc] at stored
      rwa [← overwritten_succ] at stored

end Segments

-----------------------------------------------------------------------------------------
-- LLRing
-----------------------------------------------------------------------------------------

/-- A ring handle is one of a segment. -/
structure Suits (h : RingHandle) (g : Nat) (segment : Segment) : Prop where
  sound : segment.Sound
  base : h.ring.base = some g
  layout : h.layout = computeLayout segment.header.config
  offset : h.ring.offset = h.layout.ringOffset h.direction
  slots : h.ring.slots = segment.header.config.commandSlots
  maxBytes : h.ring.maxBytes = segment.header.config.maxCommandBytes

/-- The segment with another cell for a counter of the ring. -/
def withCell (h : RingHandle) (segment : Segment) (counter : UInt64) (cell : Cell) : Segment :=
  withRing segment h.direction
    ((ringOf segment h.direction).setCell (h.ring.cellOf counter) cell)

section Rings

variable {a : Alone} {world : World} {clock : Nat → UInt64} {g : Nat} {segment : Segment}
  {h : RingHandle}

theorem withRing_size (segment : Segment) (direction : Direction) (d : RingData)
    : (withRing segment direction d).size = segment.size := by
  cases direction <;> rfl

/-- Only the last ring counts. -/
theorem withRing_twice (segment : Segment) (direction : Direction) (first second : RingData)
    : withRing (withRing segment direction first) direction second
      = withRing segment direction second := by
  cases direction <;> rfl

theorem withRing_self (segment : Segment) (direction : Direction)
    : withRing segment direction (ringOf segment direction) = segment := by
  cases direction <;> rfl

/-- Putting a cell in its place again. -/
theorem setCell_self (d : RingData) (index : Nat) : d.setCell index (d.cells index) = d := by
  obtain ⟨head, tail, cells, queue⟩ := d
  unfold RingData.setCell
  congr 1
  funext other
  split
  · rename_i same
    rw [same]
  · rfl

/-- Only the last cell counts. -/
theorem withCell_twice (h : RingHandle) (segment : Segment) (counter : UInt64)
    (first second : Cell)
    : withCell h (withCell h segment counter first) counter second
      = withCell h segment counter second := by
  simp only [withCell, withRing_twice, ringOf_withRing, if_true]
  congr 1
  unfold RingData.setCell
  congr 1
  funext other
  by_cases same : other = h.ring.cellOf counter
  · simp [same]
  · simp [same]

theorem withCell_self (h : RingHandle) (segment : Segment) (counter : UInt64)
    : withCell h segment counter
          ((ringOf segment h.direction).cells (h.ring.cellOf counter))
      = segment := by
  rw [withCell, setCell_self, withRing_self]

/-- The cell that is then found there. -/
theorem withCell_cell (h : RingHandle) (segment : Segment) (counter : UInt64) (cell : Cell)
    : (ringOf (withCell h segment counter cell) h.direction).cells (h.ring.cellOf counter)
      = cell := by
  rw [withCell, ringOf_withRing, if_pos rfl, RingData.setCell_same]

/-- The index of a cell is that of a cell of the segment. -/
theorem Suits.below (suits : Suits h g segment) (counter : UInt64)
    : h.index counter < segment.header.config.commandSlots.toUInt64 := by
  have commands := (configValid_bounded suits.sound.valid).commands.1
  rw [← suits.slots]
  refine RingHandle.index_below (fun none_ => ?_) counter
  rw [← suits.slots, none_] at commands
  exact absurd commands (by decide)

/-- The handle suits the segment with other rings as well. -/
theorem Suits.withRing (suits : Suits h g segment) (direction : Direction) (d : RingData)
    : Suits h g (withRing segment direction d) := by
  have header := withRing_header segment direction d
  have size := withRing_size segment direction d
  refine ⟨⟨?_, ?_⟩, suits.base, ?_, suits.offset, ?_, ?_⟩
  · rw [header]
    exact suits.sound.valid
  · rw [header, size]
    exact suits.sound.fits
  · rw [header, suits.layout]
  · rw [header, suits.slots]
  · rw [header, suits.maxBytes]

/-- One of the two counters is loaded. -/
theorem loadRing_alone (depicts : Depicts a (world.setSegment g segment) clock)
    (suits : Suits h g segment) (word : RingWord)
    : (h.load g word).Ensures alone Anything a fun value later =>
        value = ringWord (ringOf segment h.direction) word ∧ later = a := by
  refine load_depicts depicts fun encodes => ?_
  rw [suits.offset, suits.layout]
  exact encodes.areas suits.sound (.ringHeader h.direction) trivial word

/-- One of the two counters is stored. -/
theorem storeRing_alone (depicts : Depicts a (world.setSegment g segment) clock)
    (suits : Suits h g segment) {word : RingWord} {value : UInt64} (d : RingData)
    (cells : d.cells = (ringOf segment h.direction).cells)
    (set
      : ∀ other,
          ringWord d other
          = if other = word then value else ringWord (ringOf segment h.direction) other)
    : (h.store g word value).Ensures alone Anything a fun _ later =>
        Depicts later (world.setSegment g (withRing segment h.direction d)) clock := by
  refine store_depicts depicts (fun encodes => ?_) (withRing_size segment h.direction d)
  rw [suits.offset, suits.layout]
  exact encodes.storeRing suits.sound d cells set

/-- A word of a cell is loaded. -/
theorem loadCmd_alone (depicts : Depicts a (world.setSegment g segment) clock)
    (suits : Suits h g segment) (counter : UInt64) (word : CmdWord)
    : (h.loadCmd g counter word).Ensures alone Anything a fun value later =>
        value
            = cmdWord ((ringOf segment h.direction).cells (h.ring.cellOf counter)).header word
        ∧ later = a := by
  refine load_depicts depicts fun encodes => ?_
  rw [RingHandle.cell, suits.offset, suits.layout]
  exact
    (encodes.areas suits.sound (.cell h.direction (h.index counter)) (suits.below counter)).1
      word

/-- A word of a cell is stored. -/
theorem storeCmd_alone {counter : UInt64} {cell : Cell}
    (depicts : Depicts a (world.setSegment g (withCell h segment counter cell)) clock)
    (suits : Suits h g segment) {word : CmdWord} {value : UInt64}
    (fits : FitsIn word.place value) (header : LLCmdHeader)
    (set
      : ∀ other, cmdWord header other = if other = word then value else cmdWord cell.header other)
    : (h.storeCmd g counter word value).Ensures alone Anything a fun _ later =>
        Depicts later (world.setSegment g (withCell h segment counter { cell with header }))
          clock := by
  have changed : Suits h g (withCell h segment counter cell) := suits.withRing _ _
  have there := withCell_cell h segment counter cell
  refine store_depicts depicts (fun encodes => ?_) ?_
  · have stored
        : Encodes (storeAt (a.bytes g) (at_ (h.cell counter) word.place) value)
            (withCell h (withCell h segment counter cell) counter {
              (ringOf (withCell h segment counter cell) h.direction).cells
                (h.ring.cellOf counter) with
              header
            }) := by
      rw [RingHandle.cell, changed.offset, changed.layout]
      refine encodes.storeCmd changed.sound (changed.below counter) fits header fun other => ?_
      have kept := congrArg (fun cell : Cell => cmdWord cell.header other) there.symm
      exact (set other).trans (congrArg (ite (other = word) value) kept)
    rw [there, withCell_twice] at stored
    exact stored
  · rw [withCell, withCell, withRing_size, withRing_size]

/-- Private bytes are copied to a cell. -/
theorem copyIn_cell {counter : UInt64} {cell : Cell}
    (depicts : Depicts a (world.setSegment g (withCell h segment counter cell)) clock)
    (suits : Suits h g segment) (source : Nat → UInt8) (count : Nat)
    (fits : count ≤ segment.header.config.maxCommandBytes.toNat)
    : (copyIn g (h.area counter) (cmdPayload (h.cell counter)).toNat source count).Ensures alone
        Anything a fun _ later =>
          Depicts later
            (world.setSegment g
              (withCell h segment counter {
                cell with
                payload := overwritten cell.payload 0 source count
              }))
            clock := by
  let holding (payload : Nat → UInt8) : Segment := withCell h segment counter { cell with payload }
  have size (left right : Nat → UInt8) : (holding left).size = (holding right).size := by
    simp only [holding, withCell, withRing_size]
  refine copyIn_depicts holding depicts 0 size ?_ source count ((Nat.zero_add count).trans_le fits)
  intro bytes old offset byte inside encodes
  have changed : Suits h g (holding old) := suits.withRing _ _
  have there := withCell_cell h segment counter { cell with payload := old }
  have same : (holding old).header = segment.header := withRing_header _ _ _
  have stored
      : Encodes (storeAt bytes ⟨(cmdPayload (h.cell counter)).toNat + offset, 1⟩ byte.toUInt64)
          (withCell h (holding old) counter {
            (ringOf (holding old) h.direction).cells (h.ring.cellOf counter) with
            payload := fun other =>
              if other = offset then byte
              else ((ringOf (holding old) h.direction).cells (h.ring.cellOf counter)).payload other
          }) := by
    rw [RingHandle.cell, changed.offset, changed.layout]
    exact encodes.storeCmdByte changed.sound (changed.below counter) (by rwa [same]) byte
  rw [there, withCell_twice] at stored
  exact stored

/-- What is copied to the front. -/
theorem overwritten_front (old source : Nat → UInt8) (count : Nat)
    : overwritten old 0 source count
      = fun index => if index < count then source index else old index := by
  funext index
  simp [overwritten]

/-- The new cell is announced by the head. -/
theorem advanceHead_alone {d : RingData} {cell : Cell}
    (depicts : Depicts a (world.setSegment g (withCell h segment d.head cell)) clock)
    (suits : Suits h g segment) (ring : ringOf segment h.direction = d)
    : (do
        h.store g .head (d.head + 1)
        return true : Access Bool).Ensures alone Anything a fun accepted later =>
          let stored := d.setCell (h.ring.cellOf d.head) cell
          let next := { stored with head := d.head + 1, queue := d.queue.push cell.command }
          accepted = true
          ∧ Depicts later (world.setSegment g (withRing segment h.direction next)) clock := by
  have changed : Suits h g (withCell h segment d.head cell) := suits.withRing _ _
  have before
      : ringOf (withCell h segment d.head cell) h.direction
        = d.setCell (h.ring.cellOf d.head) cell := by
    rw [withCell, ringOf_withRing, if_pos rfl, ring]
  let next : RingData :=
    {
      d.setCell (h.ring.cellOf d.head) cell with
      head := d.head + 1
      queue := d.queue.push cell.command
    }
  refine Ensures.bind (storeRing_alone depicts changed next ?_ ?_) fun _ later stored => ⟨rfl, ?_⟩
  · rw [before]
  · intro other
    rw [before]
    cases other <;> rfl
  · rw [withCell, withRing_twice] at stored
    exact stored

/-- `LLRing::push`. -/
theorem push_alone (depicts : Depicts a (world.setSegment g segment) clock)
    (suits : Suits h g segment) (call : PushCall)
    : (h.push call).Ensures alone Anything a fun accepted later =>
        let pushed := Commands.push h.ring (ringOf segment h.direction) call
        accepted = pushed.2
        ∧ Depicts later (world.setSegment g (withRing segment h.direction pushed.1)) clock := by
  dsimp only
  generalize ring : ringOf segment h.direction = d
  have valid : h.ring.valid = true := by rw [LLRing.valid, suits.base]; rfl
  have unchanged : Depicts a (world.setSegment g (withRing segment h.direction d)) clock := by
    rw [← ring, withRing_self]
    exact depicts
  unfold RingHandle.push
  rw [suits.base]
  refine Ensures.ite (fun large => ?_) fun fits => ?_
  · have refused : Commands.push h.ring d call = (d, false) := if_pos (by simp [large])
    rw [refused]
    exact ⟨rfl, unchanged⟩
  refine Ensures.bind (loadRing_alone depicts suits .head) fun head _ loaded => ?_
  obtain ⟨rfl, rfl⟩ := loaded
  refine Ensures.bind (loadRing_alone depicts suits .tail) fun tail before loaded => ?_
  obtain ⟨rfl, rfl⟩ := loaded
  rw [ring, ringWord, ringWord]
  have tested : ¬ (!h.ring.valid || call.size > h.ring.maxBytes) = true := by
    simpa [valid] using fits
  refine Ensures.ite (fun full => ?_) fun room => ?_
  · have refused : Commands.push h.ring d call = (d, false) :=
      (if_neg tested).trans (if_pos full)
    rw [refused]
    exact ⟨rfl, unchanged⟩
  have accepted : Commands.push h.ring d call = _ := (if_neg tested).trans (if_neg room)
  rw [accepted]
  generalize found : d.cells (h.ring.cellOf d.head) = cell
  have cell_ : Depicts before (world.setSegment g (withCell h segment d.head cell)) clock := by
    rw [← found, ← ring, withCell_self]
    exact depicts
  refine Ensures.bind (storeCmd_alone cell_ suits (.eight rfl _)
    { cell.header with id := call.id } fun other => by cases other <;> rfl) fun _ _ cell_ => ?_
  refine Ensures.bind (storeCmd_alone cell_ suits (.eight rfl _)
    { cell.header with id := call.id, replyTo := call.replyTo } fun other => by
      cases other <;> rfl) fun _ _ cell_ => ?_
  refine Ensures.bind (storeCmd_alone cell_ suits (.eight rfl _)
    { call.header with type := cell.header.type, size := cell.header.size } fun other => by
      cases other <;> rfl) fun _ _ cell_ => ?_
  refine Ensures.bind (storeCmd_alone cell_ suits (.four rfl _)
    { call.header with size := cell.header.size } fun other => by
      cases other <;> rfl) fun _ _ cell_ => ?_
  refine Ensures.bind (storeCmd_alone cell_ suits (.four rfl _) call.header fun other => by
    cases other <;> rfl) fun _ _ cell_ => ?_
  have small : call.size.toNat ≤ segment.header.config.maxCommandBytes.toNat := by
    rw [← suits.maxBytes]
    exact UInt32.le_iff_toNat_le.mp (UInt32.not_lt.mp fits)
  cases data : call.data with
  | none =>
      have filled : call.fill cell = { cell with header := call.header } := by
        rw [PushCall.fill, data]
      refine advanceHead_alone ?_ suits ring
      rw [filled]
      exact cell_
  | some source =>
      have filled
          : call.fill cell
            = {
                header := call.header
                payload := overwritten cell.payload 0 source call.size.toNat
              } := by
        rw [PushCall.fill, data, overwritten_front]
      refine Ensures.bind (copyIn_cell cell_ suits source call.size.toNat small) fun _ _ cell_ => ?_
      refine advanceHead_alone ?_ suits ring
      rw [filled]
      exact cell_

/-- The size `pop` goes by. -/
theorem clampedSize_alone (depicts : Depicts a (world.setSegment g segment) clock)
    (suits : Suits h g segment) (counter : UInt64)
    : let size := ((ringOf segment h.direction).cells (h.ring.cellOf counter)).header.size
      (h.clampedSize g counter).Ensures alone Anything a fun n later =>
        n = (if size > h.ring.maxBytes then h.ring.maxBytes else size) ∧ later = a := by
  dsimp only
  unfold RingHandle.clampedSize
  refine Ensures.bind (loadCmd_alone depicts suits counter .size) fun _ _ loaded => ?_
  obtain ⟨rfl, rfl⟩ := loaded
  rw [cmdWord, UInt32.toUInt32_toUInt64]
  refine Ensures.ite (fun large => ?_) fun fits => ?_
  · rw [if_pos large]
    exact ⟨rfl, rfl⟩
  refine Ensures.bind (loadCmd_alone depicts suits counter .size) fun _ _ loaded => ?_
  obtain ⟨rfl, rfl⟩ := loaded
  rw [cmdWord, UInt32.toUInt32_toUInt64, if_neg fits]
  exact ⟨rfl, rfl⟩

/-- The bytes of a command. -/
theorem Depicts.payload (depicts : Depicts a (world.setSegment g segment) clock)
    (suits : Suits h g segment) (counter : UInt64)
    : ∀ offset < h.ring.maxBytes.toNat,
        a.bytes g ((cmdPayload (h.cell counter)).toNat + offset)
        = ((ringOf segment h.direction).cells (h.ring.cellOf counter)).payload offset := by
  intro offset below
  have encodes := depicts.segment g
  rw [World.setSegment_same] at encodes
  rw [suits.maxBytes] at below
  rw [RingHandle.cell, suits.offset, suits.layout]
  exact
    (encodes.areas suits.sound (.cell h.direction (h.index counter)) (suits.below counter)).2
      offset below

/-- `LLRing::pop`. -/
theorem pop_alone (depicts : Depicts a (world.setSegment g segment) clock)
    (suits : Suits h g segment)
    : h.pop.Ensures alone Anything a fun command later =>
        let popped := Commands.pop h.ring (ringOf segment h.direction)
        command = popped.2
        ∧ Depicts later (world.setSegment g (withRing segment h.direction popped.1)) clock := by
  dsimp only
  generalize ring : ringOf segment h.direction = d
  have valid : h.ring.valid = true := by rw [LLRing.valid, suits.base]; rfl
  have tested : ¬ (!h.ring.valid) = true := by simp [valid]
  unfold RingHandle.pop
  rw [suits.base]
  refine Ensures.bind (loadRing_alone depicts suits .tail) fun tail _ loaded => ?_
  obtain ⟨rfl, rfl⟩ := loaded
  refine Ensures.bind (loadRing_alone depicts suits .head) fun head _ loaded => ?_
  obtain ⟨rfl, rfl⟩ := loaded
  rw [ring, ringWord, ringWord]
  refine Ensures.ite (fun empty => ?_) fun some_ => ?_
  · have nothing : Commands.pop h.ring d = (d, none) := (if_neg tested).trans (if_pos empty)
    rw [nothing]
    refine ⟨rfl, ?_⟩
    rw [← ring, withRing_self]
    exact depicts
  have taken : Commands.pop h.ring d = _ := (if_neg tested).trans (if_neg some_)
  rw [taken]
  dsimp only
  have load (word : CmdWord) := loadCmd_alone depicts suits d.tail word
  iterate 4
    refine Ensures.bind (load _) fun _ _ loaded => ?_
    obtain ⟨rfl, rfl⟩ := loaded
  refine Ensures.bind (clampedSize_alone depicts suits d.tail) fun n _ sized => ?_
  obtain ⟨rfl, rfl⟩ := sized
  refine Ensures.bind (copyOut_alone g _ _ _) fun data before copied => ?_
  obtain ⟨rfl, rfl⟩ := copied
  have payload := depicts.payload suits d.tail
  rw [ring] at payload ⊢
  generalize d.cells (h.ring.cellOf d.tail) = cell at payload ⊢
  let size := if cell.header.size > h.ring.maxBytes then h.ring.maxBytes else cell.header.size
  have small : size.toNat ≤ h.ring.maxBytes.toNat := by
    simp only [size]
    split
    · exact le_rfl
    · exact UInt32.le_iff_toNat_le.mp (UInt32.not_lt.mp ‹_›)
  rw [List.map_congr_left fun offset member =>
    payload offset ((List.mem_range.mp member).trans_le small)]
  let out := Commands.Popper.assemble cell.header size cell.payload
  let next : RingData := { d with tail := d.tail + 1, queue := d.queue.pop out }
  refine Ensures.bind (storeRing_alone depicts suits next ?_ ?_) fun _ later stored => ?_
  · rw [ring]
  · intro other
    rw [ring]
    cases other <;> rfl
  · exact ⟨by simp [cmdWord, Commands.Popper.assemble, size], stored⟩

end Rings

-----------------------------------------------------------------------------------------
-- The subscriber's calls
-----------------------------------------------------------------------------------------

section Subscribers

variable {a : Alone} {s : Subscriber} {g : Nat}

/-- The subscriber's handles are those of its segment. -/
theorem txHandle_suits {segment : Segment} {m : Impl} (seat : Seat segment g m)
    : Suits (txHandle m) g segment := by
  refine ⟨seat.sound, ?_, seat.layout, ?_, ?_, ?_⟩
  · simp only [txHandle, seat.tx]
  · simp only [txHandle, seat.tx, seat.layout, seat.remote]
    rfl
  · simp only [txHandle, seat.tx, seat.remote]
    rfl
  · simp only [txHandle, seat.tx, seat.remote]
    rfl

theorem rxHandle_suits {segment : Segment} {m : Impl} (seat : Seat segment g m)
    : Suits (rxHandle m) g segment := by
  refine ⟨seat.sound, ?_, seat.layout, ?_, ?_, ?_⟩
  · simp only [rxHandle, seat.rx]
  · simp only [rxHandle, seat.rx, seat.layout, seat.remote]
    rfl
  · simp only [rxHandle, seat.rx, seat.remote]
    rfl
  · simp only [rxHandle, seat.rx, seat.remote]
    rfl

/-- A command is pushed on the ring to the producer. -/
theorem push_follows (depicts : Depicts a s.world s.clock)
    (seat : Seat (s.world.segments g) g s.impl) (call : PushCall)
    : ((txHandle s.impl).push call).Follows alone a
        (fun _ : Unit => Call.onUp g fun up => Commands.push s.impl.tx up call) s
        fun accepted later same next =>
          accepted = same ∧ next.impl = s.impl ∧ Depicts later next.world next.clock := by
  rw [← setSegment_self s.world g] at depicts
  refine (push_alone depicts (txHandle_suits seat) call).mono (fun _ => id)
    fun accepted later pushed => ⟨(), pushed.1, rfl, pushed.2⟩

/-- A command is taken from the ring to the subscriber. -/
theorem pop_follows (depicts : Depicts a s.world s.clock)
    (seat : Seat (s.world.segments g) g s.impl)
    : (rxHandle s.impl).pop.Follows alone a
        (fun _ : Unit => Call.onDown g fun down => Commands.pop s.impl.rx down) s
        fun command later same next =>
          command = same ∧ next.impl = s.impl ∧ Depicts later next.world next.clock := by
  rw [← setSegment_self s.world g] at depicts
  refine (pop_alone depicts (rxHandle_suits seat)).mono (fun _ => id)
    fun command later popped => ⟨(), popped.1, rfl, popped.2⟩

/-- `send`. -/
theorem send_follows (depicts : Depicts a s.world s.clock) (seated : Seated s.world s.impl)
    (request : PushCall)
    : (send s.impl request).Follows alone a (fun _ : Unit => Calls.send request) s
        fun outcome later id next => Agrees outcome.1 later next ∧ outcome.2 = id := by
  refine Follows.right ?_
  rw [Call.run_impl]
  unfold send
  cases hdr : s.impl.hdr with
  | none => exact .pure () ⟨⟨rfl, depicts⟩, rfl⟩
  | some g =>
      have seat := seated g hdr
      refine Follows.bind (stillOwnsCommands_follows depicts seat.sound) fun m later checked => ?_
      have refreshes := Calls.refreshes_stillOwnsCommands g s
      have seat := refreshes.toOnward.seat seat (.of_unclaimed refreshes.impl)
      generalize (Calls.stillOwnsCommands g).run s = outcome at checked seat ⊢
      obtain ⟨owns, owner⟩ := outcome
      dsimp only at checked seat ⊢
      obtain ⟨⟨rfl, known⟩, rfl⟩ := checked
      refine Follows.ite Iff.rfl (fun _ _ => .pure () ⟨⟨rfl, known⟩, rfl⟩) fun _ _ => ?_
      refine Follows.right (Follows.bind (nowNs_follows known) fun now later read => ?_)
      obtain ⟨rfl, ticked⟩ := read
      refine Follows.bind (push_follows ticked seat _) fun accepted later pushed => ?_
      generalize (Call.onUp g _).run _ = outcome at pushed ⊢
      obtain ⟨same, next⟩ := outcome
      dsimp only at pushed ⊢
      obtain ⟨rfl, impl, known⟩ := pushed
      refine Follows.iteLeft (fun refused => ?_) fun taken => ?_
      · refine Follows.iteRight (fun never => ?_) fun _ => ?_
        · simp [never] at refused
        · exact .pure () ⟨⟨rfl, known⟩, rfl⟩
      · refine Follows.iteRight (fun _ => ?_) fun never => ?_
        · exact .pure () ⟨⟨rfl, known⟩, rfl⟩
        · simp [never] at taken

/-- `receive`. -/
theorem receive_follows (depicts : Depicts a s.world s.clock) (seated : Seated s.world s.impl)
    : (receive s.impl).Follows alone a (fun _ : Unit => Calls.receive) s
        fun outcome later command next => Agrees outcome.1 later next ∧ outcome.2 = command := by
  refine Follows.right ?_
  rw [Call.run_impl]
  unfold receive
  cases hdr : s.impl.hdr with
  | none => exact .pure () ⟨⟨rfl, depicts⟩, rfl⟩
  | some g =>
      have seat := seated g hdr
      refine Follows.bind (stillOwnsCommands_follows depicts seat.sound) fun m later checked => ?_
      have refreshes := Calls.refreshes_stillOwnsCommands g s
      have seat := refreshes.toOnward.seat seat (.of_unclaimed refreshes.impl)
      generalize (Calls.stillOwnsCommands g).run s = outcome at checked seat ⊢
      obtain ⟨owns, owner⟩ := outcome
      dsimp only at checked seat ⊢
      obtain ⟨⟨rfl, known⟩, rfl⟩ := checked
      refine Follows.ite Iff.rfl (fun _ _ => .pure () ⟨⟨rfl, known⟩, rfl⟩) fun _ _ => ?_
      refine Follows.right (Follows.bind (pop_follows known seat) fun command later popped => ?_)
      generalize (Call.onDown g _).run _ = outcome at popped ⊢
      obtain ⟨same, next⟩ := outcome
      dsimp only at popped ⊢
      obtain ⟨rfl, impl, known⟩ := popped
      cases command with
      | none => exact .pure () ⟨⟨impl.symm, known⟩, rfl⟩
      | some command =>
          refine Follows.bind (nowNs_follows known) fun now later read => ?_
          obtain ⟨rfl, ticked⟩ := read
          exact .pure () ⟨⟨rfl, ticked⟩, rfl⟩

/-- The destructor, which gives up no other claim than its own. -/
theorem close_follows (depicts : Depicts a s.world s.clock) (seated : Seated s.world s.impl)
    : (close s.impl).Follows alone a (fun _ : Unit => Calls.closeSubscriber) s
        fun _ later _ next => Depicts later next.world next.clock := by
  refine Follows.right ?_
  rw [Call.run_impl]
  unfold close
  cases hdr : s.impl.hdr with
  | none => exact .pure () depicts
  | some g =>
      refine Follows.ite Iff.rfl (fun _ _ => ?_) fun _ _ => .pure () depicts
      refine Follows.left (exchange_alone g _ _ _ _) fun found later exchanged => ?_
      have there : found = (s.world.segments g).header.commandOwnerGen :=
        exchanged.1.trans ((depicts.segment g).header .commandOwnerGen)
      rw [there] at exchanged
      refine Follows.right (Follows.iteRight (fun ours => ?_) fun other => ?_)
      · refine .pure () ?_
        rw [exchanged.2.trans (if_pos ours)]
        exact depicts.storeOwnerGen (seated g hdr).sound 0
      · refine .pure () ?_
        rw [exchanged.2.trans (if_neg other)]
        exact depicts

end Subscribers

end ShmFrame.Accesses
