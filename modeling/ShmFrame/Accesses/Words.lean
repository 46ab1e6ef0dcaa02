import ShmFrame.Accesses.Repacking
import ShmFrame.Calls.Seated

/-! The segment that some bytes say: which word stands where, and what a store of one word or
byte makes of it.
-/

namespace ShmFrame.Accesses

open ShmFrame.Foundation
open Commands (RingData Cell LLCmdHeader)
open Calls (Segment)

-----------------------------------------------------------------------------------------
-- What the words are
-----------------------------------------------------------------------------------------

/-- What a word of a header holds. -/
def headerWord (h : LLHeader) : HeaderWord → UInt64
  | .magic => h.magic.toUInt64
  | .version => h.version.toUInt64
  | .sessionId => h.sessionId
  | .totalSize => h.totalSize
  | .maxWidth => h.maxWidth.toUInt64
  | .maxHeight => h.maxHeight.toUInt64
  | .bytesPerPixel => h.bytesPerPixel.toUInt64
  | .slotCount => h.slotCount.toUInt64
  | .commandSlots => h.commandSlots.toUInt64
  | .maxCommandBytes => h.maxCommandBytes.toUInt64
  | .slotsOffset => h.slotsOffset
  | .slotStride => h.slotStride
  | .downstreamOffset => h.downstreamOffset
  | .upstreamOffset => h.upstreamOffset
  | .ringStride => h.ringStride
  | .cmdStride => h.cmdStride
  | .latest => h.latest
  | .shutdown => h.shutdown.toUInt64
  | .lastHeartbeatNs => h.lastHeartbeatNs
  | .commandOwnerGen => h.commandOwnerGen
  | .commandOwnerHeartbeatNs => h.commandOwnerHeartbeatNs

/-- What a word of a slot header holds. -/
def slotWord (h : LLSlotHeader) : SlotWord → UInt64
  | .seq => h.seq
  | .frameId => h.info.frameId
  | .timestampNs => h.info.timestampNs
  | .width => h.info.width.toUInt64
  | .height => h.info.height.toUInt64
  | .stride => h.info.stride.toUInt64
  | .payloadBytes => h.info.payloadBytes.toUInt64

/-- What a word of a ring header holds. -/
def ringWord (d : RingData) : RingWord → UInt64
  | .head => d.head
  | .tail => d.tail

/-- What a word of a command cell holds. -/
def cmdWord (h : LLCmdHeader) : CmdWord → UInt64
  | .id => h.id
  | .replyTo => h.replyTo
  | .timestampNs => h.timestampNs
  | .type => h.type.toUInt64
  | .size => h.size.toUInt64

/-- The ring in one direction. -/
def ringOf (segment : Segment) : Direction → RingData
  | .downstream => segment.down
  | .upstream => segment.up

/-- The bytes of an area say what a segment holds there. -/
def Says (c : LLConfig) (segment : Segment) (bytes : Bytes) (area : Area) : Prop :=
  let l := computeLayout c
  match area with
  | .header => ∀ word : HeaderWord, wordAt bytes word.place = headerWord segment.header word
  | .slotHeader index =>
      ∀ word : SlotWord,
        wordAt bytes (at_ (slotAt l index) word.place)
        = slotWord (segment.slots index.toNat).header word
  | .slotPayload index =>
      ∀ offset < c.maxPayload.toNat,
        bytes ((slotPayload l index).toNat + offset)
        = (segment.slots index.toNat).payload offset
  | .ringHeader direction =>
      ∀ word : RingWord,
        wordAt bytes (at_ (ringAt (l.ringOffset direction)) word.place)
        = ringWord (ringOf segment direction) word
  | .cell direction index =>
      let base := cmdAt (l.ringOffset direction) l index
      let cell := (ringOf segment direction).cells index.toNat
      (∀ word : CmdWord, wordAt bytes (at_ base word.place) = cmdWord cell.header word)
      ∧ ∀ offset < c.maxCommandBytes.toNat,
          bytes ((cmdPayload base).toNat + offset) = cell.payload offset

/-- Two segments hold the same in an area. -/
def SameIn (area : Area) (left right : Segment) : Prop :=
  match area with
  | .header => right.header = left.header
  | .slotHeader index => (right.slots index.toNat).header = (left.slots index.toNat).header
  | .slotPayload index => (right.slots index.toNat).payload = (left.slots index.toNat).payload
  | .ringHeader direction =>
      (ringOf right direction).head = (ringOf left direction).head
      ∧ (ringOf right direction).tail = (ringOf left direction).tail
  | .cell direction index =>
      (ringOf right direction).cells index.toNat = (ringOf left direction).cells index.toNat

/-- Some bytes say a whole segment. Beyond the header this only makes sense if the header
does.
-/
structure Encodes (bytes : Bytes) (segment : Segment) : Prop where
  header : ∀ word : HeaderWord, wordAt bytes word.place = headerWord segment.header word
  areas
    : segment.Sound
      → ∀ area,
          area.Exists segment.header.config → Says segment.header.config segment bytes area

-----------------------------------------------------------------------------------------
-- What a change of the bytes leaves
-----------------------------------------------------------------------------------------

/-- The payload of a cell lies behind its header. -/
theorem cmdPayload_toNat {c : LLConfig} (bounded : c.Bounded) (direction : Direction)
    {index : UInt64} (there : index < c.commandSlots.toUInt64)
    : (cmdPayload (cmdAt ((computeLayout c).ringOffset direction) (computeLayout c) index)).toNat
      = (cmdAt ((computeLayout c).ringOffset direction) (computeLayout c) index).toNat + 32 := by
  have exists_ : (Area.cell direction index).Exists c := there
  have inside := Area.span_inside bounded exists_
  have last := inside.2
  have total := (computeLayout c).totalSize.toNat_lt
  have header : sizeofLLCmdHeader.toNat = 32 := rfl
  simp only [Span.last, Area.span] at last
  rw [cmdPayload, UInt64.toNat_add, header]
  omega

section Areas

variable {c : LLConfig} {segment next : Segment} {bytes later : Bytes} {area : Area}

/-- What bytes say of an area depends on the bytes of that area, and on what the segment holds
there.
-/
theorem Says.transfer (bounded : c.Bounded) (there : area.Exists c)
    (found : Says c segment bytes area)
    (same : ∀ offset, (area.span c).Holds offset → later offset = bytes offset)
    (kept : SameIn area segment next)
    : Says c next later area := by
  cases area with
  | header =>
      intro word
      rw [kept, ← found word]
      refine wordAt_congr fun offset holds => same offset ?_
      exact Span.Inside.holds ⟨Nat.zero_le _, by
        simpa only [Area.span, Span.last, Nat.zero_add] using word.place_inside⟩ holds
  | slotHeader index =>
      intro word
      rw [kept, ← found word]
      exact wordAt_congr fun offset holds =>
        same offset ((at_inside rfl word.place_inside).holds holds)
  | slotPayload index =>
      intro offset below
      rw [kept, ← found offset below]
      exact same _ ⟨Nat.le_add_right _ _, Nat.add_lt_add_left below _⟩
  | ringHeader direction =>
      intro word
      have word_
          : ringWord (ringOf next direction) word = ringWord (ringOf segment direction) word := by
        cases word
        · exact kept.1
        · exact kept.2
      rw [word_, ← found word]
      exact wordAt_congr fun offset holds =>
        same offset ((at_inside rfl word.place_inside).holds holds)
  | cell direction index =>
      obtain ⟨words, payload⟩ := found
      have behind := cmdPayload_toNat bounded direction there
      have header : sizeofLLCmdHeader.toNat = 32 := rfl
      constructor
      · intro word
        rw [kept, ← words word]
        refine wordAt_congr fun offset holds => same offset (Span.Inside.holds ?_ holds)
        exact at_inside rfl (word.place_inside.trans (Nat.le_add_right _ _))
      · intro offset below
        rw [kept, ← payload offset below]
        refine same _ ?_
        simp only [Span.Holds, Span.last, Area.span]
        omega

/-- A change of the bytes of one area, where the segment only changes in that area. -/
theorem Encodes.change (encodes : Encodes bytes segment) (sound : segment.Sound)
    (area : Area) (there : area.Exists segment.header.config)
    (outside
      : ∀ offset,
          ¬ (area.span segment.header.config).Holds offset → later offset = bytes offset)
    (config : next.header.config = segment.header.config)
    (others : ∀ other, other ≠ area → SameIn other segment next)
    (found : Says segment.header.config next later area)
    : Encodes later next := by
  have everywhere (other : Area) (exists_ : other.Exists segment.header.config)
      : Says segment.header.config next later other := by
    by_cases same : other = area
    · rw [same]
      exact found
    · have bounded := configValid_bounded sound.valid
      refine (encodes.areas sound other exists_).transfer bounded exists_ ?_
        (others other same)
      intro offset holds
      have apart := Area.span_apart (configValid_bounded sound.valid) exists_ there same
      exact outside offset (apart.not_holds holds)
  refine ⟨everywhere .header trivial, fun _ => ?_⟩
  rw [config]
  exact everywhere

end Areas

-----------------------------------------------------------------------------------------
-- Words that are stored
-----------------------------------------------------------------------------------------

/-- A word that has been stored is found, if it fits. -/
theorem wordAt_stored (bytes : Bytes) {span : Span} {value : UInt64} (small : span.size ≤ 8)
    (fits : value.toNat < 256 ^ span.size)
    : wordAt (storeAt bytes span value) span = value := by
  have stored
      : (List.range span.size).map (fun index => storeAt bytes span value (span.first + index))
        = (List.range span.size).map fun index =>
            (value >>> (8 * UInt64.ofNat (0 + index))).toUInt8 := by
    refine List.map_congr_left fun index member => ?_
    have below := List.mem_range.mp member
    have holds : span.Holds (span.first + index) :=
      ⟨Nat.le_add_right _ _, Nat.add_lt_add_left below span.first⟩
    rw [storeAt, if_pos holds, Nat.add_sub_cancel_left, Nat.zero_add]
  rw [wordAt, stored, littleEndian_stored value 0 (by omega), Nat.pow_zero, Nat.div_one,
    Nat.mod_eq_of_lt fits, UInt64.ofNat_toNat]

/-- Words elsewhere are the same. -/
theorem wordAt_stored_apart (bytes : Bytes) {span other : Span} (apart : span.Apart other)
    (value : UInt64)
    : wordAt (storeAt bytes span value) other = wordAt bytes other :=
  wordAt_congr fun _ holds => storeAt_outside (apart.symm.not_holds holds)

/-- Words of one structure that have no byte in common have none at any base. -/
theorem at_apart {left right : Span} (apart : left.Apart right) (base : UInt64)
    : (at_ base left).Apart (at_ base right) := by
  simp only [Span.Apart, Span.last, at_] at apart ⊢
  omega

theorem SlotWord.place_apart {left right : SlotWord} (distinct : left ≠ right)
    : left.place.Apart right.place := by
  cases left <;> cases right <;> first | exact absurd rfl distinct | decide

theorem RingWord.place_apart {left right : RingWord} (distinct : left ≠ right)
    : left.place.Apart right.place := by
  cases left <;> cases right <;> first | exact absurd rfl distinct | decide

theorem CmdWord.place_apart {left right : CmdWord} (distinct : left ≠ right)
    : left.place.Apart right.place := by
  cases left <;> cases right <;> first | exact absurd rfl distinct | decide

/-- A value has no more bytes than a place. -/
structure FitsIn (place : Span) (value : UInt64) : Prop where
  small : place.size ≤ 8
  fits : value.toNat < 256 ^ place.size

/-- Every value fits in eight bytes, and 32 bits fit in four. -/
theorem FitsIn.eight {place : Span} (eight : place.size = 8) (value : UInt64)
    : FitsIn place value := by
  refine ⟨eight.le, ?_⟩
  have range := value.toNat_lt
  rw [eight]
  omega

theorem FitsIn.four {place : Span} (four : place.size = 4) (value : UInt32)
    : FitsIn place value.toUInt64 := by
  refine ⟨by omega, ?_⟩
  have range := value.toNat_lt
  rw [four, UInt32.toNat_toUInt64]
  omega

/-- The words at some places, after one of them has been stored. -/
theorem words_stored {Word : Type} [DecidableEq Word] {place : Word → Span} (base : UInt64)
    (apart : ∀ {left right}, left ≠ right → (place left).Apart (place right))
    {bytes : Bytes} {word : Word} {value : UInt64} (fits : FitsIn (place word) value)
    {old new : Word → UInt64} (found : ∀ other, wordAt bytes (at_ base (place other)) = old other)
    (set : ∀ other, new other = if other = word then value else old other) (other : Word)
    : wordAt (storeAt bytes (at_ base (place word)) value) (at_ base (place other))
      = new other := by
  rw [set other]
  by_cases same : other = word
  · rw [if_pos same, same]
    exact wordAt_stored bytes fits.small fits.fits
  · rw [if_neg same, ← found other]
    exact wordAt_stored_apart bytes (at_apart (apart (Ne.symm same)) base) value

/-- The bytes behind some base, after one of them has been stored. -/
theorem byte_stored (bytes : Bytes) (base offset : Nat) (byte : UInt8) (other : Nat)
    : storeAt bytes ⟨base + offset, 1⟩ byte.toUInt64 (base + other)
      = if other = offset then byte else bytes (base + other) := by
  by_cases same : other = offset
  · subst same
    rw [if_pos rfl, storeAt, if_pos ⟨le_rfl, Nat.lt_succ_self _⟩, Nat.sub_self]
    exact UInt8.toNat_inj.mp (by simp)
  · rw [if_neg same]
    refine storeAt_outside fun holds => ?_
    simp only [Span.Holds, Span.last] at holds
    omega

/-- A segment with another slot. -/
def withSlot (segment : Segment) (index : Nat) (slot : Slot) : Segment :=
  { segment with slots := fun other => if other = index then slot else segment.slots other }

/-- A segment with another ring. -/
def withRing (segment : Segment) (direction : Direction) (d : RingData) : Segment :=
  match direction with
  | .downstream => { segment with down := d }
  | .upstream => { segment with up := d }

section Stores

variable {segment : Segment} {bytes : Bytes}

/-- A word of the header is stored. -/
theorem Encodes.storeHeader (encodes : Encodes bytes segment) (sound : segment.Sound)
    {word : HeaderWord} {value : UInt64} (fits : FitsIn word.place value) (h : LLHeader)
    (config : h.config = segment.header.config)
    (set
      : ∀ other,
          headerWord h other = if other = word then value else headerWord segment.header other)
    : Encodes (storeAt bytes word.place value) { segment with header := h } := by
  have place (word : HeaderWord) : at_ 0 word.place = word.place := by
    simp [at_]
  refine encodes.change sound .header trivial ?_ config ?_ ?_
  · intro offset outside
    refine storeAt_outside fun holds => outside (Span.Inside.holds ⟨Nat.zero_le _, ?_⟩ holds)
    simpa only [Area.span, Span.last, Nat.zero_add] using word.place_inside
  · intro other distinct
    cases other with
    | header => exact absurd rfl distinct
    | slotHeader | slotPayload | cell => rfl
    | ringHeader => exact ⟨rfl, rfl⟩
  · intro other
    have stored :=
      words_stored 0 HeaderWord.place_apart fits
        (fun other => by rw [place]; exact encodes.header other) set other
    rwa [place, place] at stored

/-- A word of a slot header is stored. -/
theorem Encodes.storeSlot (encodes : Encodes bytes segment) (sound : segment.Sound)
    {index : UInt32} (below : index < segment.header.config.slotCount) {word : SlotWord}
    {value : UInt64} (fits : FitsIn word.place value) (h : LLSlotHeader)
    (set
      : ∀ other,
          slotWord h other
          = if other = word then value
            else slotWord (segment.slots index.toNat).header other)
    : Encodes
        (storeAt bytes
          (at_ (slotAt (computeLayout segment.header.config) index) word.place) value)
        (withSlot segment index.toNat { segment.slots index.toNat with header := h }) := by
  refine encodes.change sound (.slotHeader index) below ?_ rfl ?_ ?_
  · intro offset outside
    exact storeAt_outside fun holds =>
      outside ((at_inside rfl word.place_inside).holds holds)
  · intro other distinct
    cases other with
    | header => rfl
    | slotHeader other =>
        have apart : other.toNat ≠ index.toNat := fun same =>
          distinct (congrArg Area.slotHeader (UInt32.toNat_inj.mp same))
        simp [SameIn, withSlot, apart]
    | slotPayload other =>
        simp only [SameIn, withSlot]
        split
        · rename_i same
          rw [same]
        · rfl
    | ringHeader => exact ⟨rfl, rfl⟩
    | cell => rfl
  · intro other
    simp only [withSlot, if_true]
    exact words_stored _ SlotWord.place_apart fits
      (encodes.areas sound (.slotHeader index) below) set other

/-- A byte of a payload is stored. -/
theorem Encodes.storePayload (encodes : Encodes bytes segment) (sound : segment.Sound)
    {index : UInt32} (below : index < segment.header.config.slotCount) {offset : Nat}
    (inside : offset < segment.header.config.maxPayload.toNat) (byte : UInt8)
    : Encodes
        (storeAt bytes
          ⟨(slotPayload (computeLayout segment.header.config) index).toNat + offset, 1⟩
          byte.toUInt64)
        (withSlot segment index.toNat {
          segment.slots index.toNat with
          payload := fun other =>
            if other = offset then byte else (segment.slots index.toNat).payload other
        }) := by
  have there : (Area.slotPayload index).Exists segment.header.config := below
  refine encodes.change sound (.slotPayload index) there ?_ rfl ?_ ?_
  · intro other outside
    refine storeAt_outside fun holds => outside ?_
    simp only [Span.Holds, Span.last, Area.span] at holds ⊢
    omega
  · intro other distinct
    cases other with
    | header => rfl
    | slotPayload other =>
        have apart : other.toNat ≠ index.toNat := fun same =>
          distinct (congrArg Area.slotPayload (UInt32.toNat_inj.mp same))
        simp [SameIn, withSlot, apart]
    | slotHeader other =>
        simp only [SameIn, withSlot]
        split
        · rename_i same
          rw [same]
        · rfl
    | ringHeader => exact ⟨rfl, rfl⟩
    | cell => rfl
  · intro other bound
    simp only [withSlot, if_true]
    rw [byte_stored, encodes.areas sound _ there other bound]

/-- The rings of a segment with another ring. -/
theorem ringOf_withRing (segment : Segment) (direction other : Direction) (d : RingData)
    : ringOf (withRing segment direction d) other
      = if other = direction then d else ringOf segment other := by
  cases direction <;> cases other <;> rfl

/-- The header and the slots are those of the segment. -/
theorem withRing_header (segment : Segment) (direction : Direction) (d : RingData)
    : (withRing segment direction d).header = segment.header := by
  cases direction <;> rfl

theorem withRing_slots (segment : Segment) (direction : Direction) (d : RingData)
    : (withRing segment direction d).slots = segment.slots := by
  cases direction <;> rfl

/-- One of the two words of a ring header is stored. -/
theorem Encodes.storeRing (encodes : Encodes bytes segment) (sound : segment.Sound)
    {direction : Direction} {word : RingWord} {value : UInt64} (d : RingData)
    (cells : d.cells = (ringOf segment direction).cells)
    (set
      : ∀ other,
          ringWord d other
          = if other = word then value else ringWord (ringOf segment direction) other)
    : Encodes
        (storeAt bytes
          (at_ (ringAt ((computeLayout segment.header.config).ringOffset direction)) word.place)
          value)
        (withRing segment direction d) := by
  have fits : FitsIn word.place value := by cases word <;> exact .eight rfl value
  refine encodes.change sound (.ringHeader direction) trivial ?_
    (congrArg LLHeader.config (withRing_header segment direction d)) ?_ ?_
  · intro offset outside
    exact storeAt_outside fun holds =>
      outside ((at_inside rfl word.place_inside).holds holds)
  · intro other distinct
    cases other with
    | header => exact withRing_header segment direction d
    | slotHeader | slotPayload => simp only [SameIn, withRing_slots]
    | ringHeader other =>
        have apart : other ≠ direction := fun same =>
          distinct (congrArg Area.ringHeader same)
        simp [SameIn, ringOf_withRing, apart]
    | cell other index =>
        simp only [SameIn, ringOf_withRing]
        split
        · rename_i same
          rw [cells, same]
        · rfl
  · intro other
    rw [ringOf_withRing, if_pos rfl]
    exact words_stored _ RingWord.place_apart fits
      (encodes.areas sound (.ringHeader direction) trivial) set other

/-- One cell of a ring is changed. -/
theorem Encodes.changeCell {later : Bytes} (encodes : Encodes bytes segment)
    (sound : segment.Sound) {direction : Direction} {index : UInt64}
    (below : index < segment.header.config.commandSlots.toUInt64) {cell : Cell}
    (outside
      : ∀ offset,
          ¬ ((Area.cell direction index).span segment.header.config).Holds offset
          → later offset = bytes offset)
    (found
      : let next := (ringOf segment direction).setCell index.toNat cell
        Says segment.header.config (withRing segment direction next) later
          (.cell direction index))
    : Encodes later
        (withRing segment direction ((ringOf segment direction).setCell index.toNat cell)) := by
  refine encodes.change sound (.cell direction index) below outside
    (congrArg LLHeader.config (withRing_header segment direction _)) ?_ found
  intro other distinct
  cases other with
  | header => exact withRing_header segment direction _
  | slotHeader | slotPayload => simp only [SameIn, withRing_slots]
  | ringHeader other =>
      simp only [SameIn, ringOf_withRing]
      split
      · rename_i same
        rw [same]
        exact ⟨rfl, rfl⟩
      · exact ⟨rfl, rfl⟩
  | cell other position =>
      simp only [SameIn, ringOf_withRing]
      split
      · rename_i same
        subst same
        have apart : position.toNat ≠ index.toNat := fun same =>
          distinct (congrArg (Area.cell other) (UInt64.toNat_inj.mp same))
        exact if_neg apart
      · rfl

/-- A word of a command cell is stored. -/
theorem Encodes.storeCmd (encodes : Encodes bytes segment) (sound : segment.Sound)
    {direction : Direction} {index : UInt64}
    (below : index < segment.header.config.commandSlots.toUInt64) {word : CmdWord}
    {value : UInt64} (fits : FitsIn word.place value) (h : LLCmdHeader)
    (set
      : ∀ other,
          cmdWord h other
          = if other = word then value
            else cmdWord ((ringOf segment direction).cells index.toNat).header other)
    : let l := computeLayout segment.header.config
      let cell := (ringOf segment direction).cells index.toNat
      Encodes
        (storeAt bytes (at_ (cmdAt (l.ringOffset direction) l index) word.place) value)
        (withRing segment direction
          ((ringOf segment direction).setCell index.toNat { cell with header := h })) := by
  have inside (offset : Nat)
      (holds
        : (at_ (cmdAt ((computeLayout segment.header.config).ringOffset direction)
            (computeLayout segment.header.config) index) word.place).Holds offset)
      : ((Area.cell direction index).span segment.header.config).Holds offset :=
    Span.Inside.holds (at_inside rfl (word.place_inside.trans (Nat.le_add_right _ _))) holds
  have there : (Area.cell direction index).Exists segment.header.config := below
  obtain ⟨words, payload⟩ := encodes.areas sound _ there
  refine encodes.changeCell sound below
    (fun offset outside => storeAt_outside fun holds => outside (inside offset holds)) ?_
  dsimp only [Says]
  rw [ringOf_withRing, if_pos rfl, RingData.setCell_same]
  refine ⟨words_stored _ CmdWord.place_apart fits words set, fun offset bound => ?_⟩
  rw [← payload offset bound]
  have behind := cmdPayload_toNat (configValid_bounded sound.valid) direction below
  have header := word.place_inside
  have size : sizeofLLCmdHeader.toNat = 32 := rfl
  refine storeAt_outside fun holds => ?_
  simp only [Span.Holds, Span.last, at_] at holds header
  omega

/-- A byte of a command is stored. -/
theorem Encodes.storeCmdByte (encodes : Encodes bytes segment) (sound : segment.Sound)
    {direction : Direction} {index : UInt64}
    (below : index < segment.header.config.commandSlots.toUInt64) {offset : Nat}
    (inside : offset < segment.header.config.maxCommandBytes.toNat) (byte : UInt8)
    : let l := computeLayout segment.header.config
      let cell := (ringOf segment direction).cells index.toNat
      Encodes
        (storeAt bytes
          ⟨(cmdPayload (cmdAt (l.ringOffset direction) l index)).toNat + offset, 1⟩
          byte.toUInt64)
        (withRing segment direction
          ((ringOf segment direction).setCell index.toNat {
            cell with
            payload := fun other => if other = offset then byte else cell.payload other
          })) := by
  have behind := cmdPayload_toNat (configValid_bounded sound.valid) direction below
  have size : sizeofLLCmdHeader.toNat = 32 := rfl
  have there : (Area.cell direction index).Exists segment.header.config := below
  obtain ⟨words, payload⟩ := encodes.areas sound _ there
  refine encodes.changeCell sound below (fun other outside => storeAt_outside fun holds => ?_) ?_
  · refine outside ?_
    simp only [Span.Holds, Span.last, Area.span] at holds ⊢
    omega
  dsimp only [Says]
  rw [ringOf_withRing, if_pos rfl, RingData.setCell_same]
  refine ⟨fun word => ?_, fun other bound => ?_⟩
  · rw [← words word]
    refine wordAt_congr fun other holds => storeAt_outside fun written => ?_
    have header := word.place_inside
    simp only [Span.Holds, Span.last, at_] at holds written header
    omega
  · rw [byte_stored, payload other bound]

end Stores

end ShmFrame.Accesses
