import ShmFrame.Foundation.Span
import ShmFrame.Foundation.WordTerm
import ShmFrame.Segment.Config

/-! Where everything lies in a segment: the accessors that turn indices into offsets, and
the areas they lead to. For every valid configuration no computation wraps, and the areas
do not overlap.
-/

namespace ShmFrame

open Foundation

-----------------------------------------------------------------------------------------
-- Accessors, as offsets from the base of the mapping
-----------------------------------------------------------------------------------------

def slotAt (l : LLLayout) (index : UInt32) : UInt64 :=
  l.slotsOffset + index.toUInt64 * l.slotStride

def slotPayload (l : LLLayout) (index : UInt32) : UInt64 :=
  l.slotsOffset + index.toUInt64 * l.slotStride + l.slotPayloadOff

def ringAt (offset : UInt64) : UInt64 := offset

def cmdAt (ringOffset : UInt64) (l : LLLayout) (index : UInt64) : UInt64 :=
  ringOffset + l.ringPayloadOff + index * l.cmdStride

def cmdPayload (cmd : UInt64) : UInt64 := cmd + sizeofLLCmdHeader

/-- The two rings. -/
inductive Direction
  | downstream
  | upstream
deriving DecidableEq

def LLLayout.ringOffset (l : LLLayout) : Direction → UInt64
  | .downstream => l.downstreamOffset
  | .upstream => l.upstreamOffset

-----------------------------------------------------------------------------------------
-- Areas
-----------------------------------------------------------------------------------------

/-- Everything a segment consists of. -/
inductive Area
  | header
  | slotHeader (index : UInt32)
  | slotPayload (index : UInt32)
  | ringHeader (direction : Direction)
  | cell (direction : Direction) (index : UInt64)
deriving DecidableEq

/-- The indices are those of a configuration. -/
def Area.Exists (c : LLConfig) : Area → Prop
  | .slotHeader index | .slotPayload index => index < c.slotCount
  | .cell _ index => index < c.commandSlots.toUInt64
  | .header | .ringHeader _ => True

instance (c : LLConfig) : (area : Area) → Decidable (area.Exists c)
  | .slotHeader _ | .slotPayload _ => inferInstanceAs (Decidable (_ < _))
  | .cell _ _ => inferInstanceAs (Decidable (_ < _))
  | .header | .ringHeader _ => isTrue True.intro

/-- Where the accessors find an area. -/
def Area.span (c : LLConfig) (area : Area) : Span :=
  let l := computeLayout c
  match area with
  | .header => { first := 0, size := sizeofLLHeader.toNat }
  | .slotHeader index => { first := (slotAt l index).toNat, size := sizeofLLSlotHeader.toNat }
  | .slotPayload index =>
      { first := (ShmFrame.slotPayload l index).toNat, size := c.maxPayload.toNat }
  | .ringHeader direction =>
      { first := (ringAt (l.ringOffset direction)).toNat, size := sizeofLLRingHeader.toNat }
  | .cell direction index =>
      {
        first := (cmdAt (l.ringOffset direction) l index).toNat
        size := sizeofLLCmdHeader.toNat + c.maxCommandBytes.toNat
      }

-----------------------------------------------------------------------------------------
-- The computations as terms
-----------------------------------------------------------------------------------------

/-- `align_up(v, kLine)`. -/
def alignUpTerm (v : WordTerm) : WordTerm :=
  .mul (.div (.sub (.add v (.word kLine)) (.word 1)) (.word kLine)) (.word kLine)

def maxPayloadTerm (c : LLConfig) : WordTerm :=
  .mul (.mul (.word c.maxWidth.toUInt64) (.word c.maxHeight.toUInt64))
    (.word c.bytesPerPixel.toUInt64)

def headerSizeTerm : WordTerm := alignUpTerm (.word sizeofLLHeader)

def slotPayloadOffTerm : WordTerm := alignUpTerm (.word sizeofLLSlotHeader)

def slotStrideTerm (c : LLConfig) : WordTerm :=
  alignUpTerm (.add slotPayloadOffTerm (maxPayloadTerm c))

def ringPayloadOffTerm : WordTerm := alignUpTerm (.word sizeofLLRingHeader)

def cmdStrideTerm (c : LLConfig) : WordTerm :=
  alignUpTerm (.add (.word sizeofLLCmdHeader) (.word c.maxCommandBytes.toUInt64))

def ringStrideTerm (c : LLConfig) : WordTerm :=
  alignUpTerm
    (.add ringPayloadOffTerm (.mul (.word c.commandSlots.toUInt64) (cmdStrideTerm c)))

def downstreamOffsetTerm (c : LLConfig) : WordTerm :=
  .add headerSizeTerm (.mul (.word c.slotCount.toUInt64) (slotStrideTerm c))

def upstreamOffsetTerm (c : LLConfig) : WordTerm :=
  .add (downstreamOffsetTerm c) (ringStrideTerm c)

def totalSizeTerm (c : LLConfig) : WordTerm :=
  .add (upstreamOffsetTerm c) (ringStrideTerm c)

def ringOffsetTerm (c : LLConfig) : Direction → WordTerm
  | .downstream => downstreamOffsetTerm c
  | .upstream => upstreamOffsetTerm c

def slotAtTerm (c : LLConfig) (index : UInt32) : WordTerm :=
  .add headerSizeTerm (.mul (.word index.toUInt64) (slotStrideTerm c))

def slotPayloadTerm (c : LLConfig) (index : UInt32) : WordTerm :=
  .add (slotAtTerm c index) slotPayloadOffTerm

def cmdAtTerm (c : LLConfig) (direction : Direction) (index : UInt64) : WordTerm :=
  .add (.add (ringOffsetTerm c direction) ringPayloadOffTerm)
    (.mul (.word index) (cmdStrideTerm c))

def cmdPayloadTerm (c : LLConfig) (direction : Direction) (index : UInt64) : WordTerm :=
  .add (cmdAtTerm c direction index) (.word sizeofLLCmdHeader)

/-- A value of the source is that of a term that does not wrap. -/
structure Computes (term : WordTerm) (value : UInt64) : Prop where
  agrees : term.eval = value
  noWrap : term.NoWrap

/-- Every field of the layout and every accessor is computed without wrapping. -/
structure LayoutComputed (c : LLConfig) (l : LLLayout) : Prop where
  maxPayload : Computes (maxPayloadTerm c) c.maxPayload
  headerSize : Computes headerSizeTerm l.headerSize
  slotsOffset : Computes headerSizeTerm l.slotsOffset
  slotPayloadOff : Computes slotPayloadOffTerm l.slotPayloadOff
  slotStride : Computes (slotStrideTerm c) l.slotStride
  ringPayloadOff : Computes ringPayloadOffTerm l.ringPayloadOff
  cmdStride : Computes (cmdStrideTerm c) l.cmdStride
  ringStride : Computes (ringStrideTerm c) l.ringStride
  downstreamOffset : Computes (downstreamOffsetTerm c) l.downstreamOffset
  upstreamOffset : Computes (upstreamOffsetTerm c) l.upstreamOffset
  totalSize : Computes (totalSizeTerm c) l.totalSize
  slot : ∀ index < c.slotCount, Computes (slotAtTerm c index) (slotAt l index)
  payload : ∀ index < c.slotCount, Computes (slotPayloadTerm c index) (slotPayload l index)
  ring : ∀ direction, Computes (ringOffsetTerm c direction) (ringAt (l.ringOffset direction))
  cell
    : ∀ direction, ∀ index < c.commandSlots.toUInt64,
        Computes (cmdAtTerm c direction index) (cmdAt (l.ringOffset direction) l index)
  cellPayload
    : ∀ direction, ∀ index < c.commandSlots.toUInt64,
        Computes (cmdPayloadTerm c direction index)
          (cmdPayload (cmdAt (l.ringOffset direction) l index))

/-- Rounding up does not wrap while there is room for it. -/
theorem alignUpTerm_noWrap {v : WordTerm} (noWrap : v.NoWrap) (small : v.exact < 2 ^ 63)
    : (alignUpTerm v).NoWrap := by
  have positive : 0 ≤ v.exact := noWrap.eval ▸ Int.natCast_nonneg _
  have line : (kLine.toNat : Int) = 64 := rfl
  have sum : (WordTerm.add v (.word kLine)).NoWrap :=
    noWrap.add (WordTerm.noWrap_word kLine) (by simp only [WordTerm.exact, line]; omega)
  have less : (WordTerm.sub (.add v (.word kLine)) (.word 1)).NoWrap := by
    refine sum.sub (WordTerm.noWrap_word 1) ?_
    simp only [WordTerm.exact, line, UInt64.toNat_one]
    omega
  refine (less.div (WordTerm.noWrap_word kLine)).mul (WordTerm.noWrap_word kLine) ?_
  simp only [WordTerm.exact, line, UInt64.toNat_one]
  omega

/-- The exact value of a term is the one the source computes. -/
theorem Computes.exact {term : WordTerm} {value : UInt64} (computes : Computes term value)
    : term.exact = value.toNat := by
  rw [← computes.noWrap.eval, computes.agrees]

/-- A sum that is small enough computes what the source computes. -/
theorem Computes.add {left right : WordTerm} {one two : UInt64} (first : Computes left one)
    (second : Computes right two) (small : one.toNat + two.toNat < 2 ^ 64)
    : Computes (.add left right) (one + two) where
  agrees := by rw [WordTerm.eval, first.agrees, second.agrees]
  noWrap := by
    refine first.noWrap.add second.noWrap ?_
    rw [first.exact, second.exact]
    exact_mod_cast small

/-- So does a product. -/
theorem Computes.mul {left right : WordTerm} {one two : UInt64} (first : Computes left one)
    (second : Computes right two) (small : one.toNat * two.toNat < 2 ^ 64)
    : Computes (.mul left right) (one * two) where
  agrees := by rw [WordTerm.eval, first.agrees, second.agrees]
  noWrap := by
    refine first.noWrap.mul second.noWrap ?_
    rw [first.exact, second.exact]
    exact_mod_cast small

/-- So does rounding up. -/
theorem Computes.alignUp {v : WordTerm} {value : UInt64} (computes : Computes v value)
    (small : value.toNat < 2 ^ 63)
    : Computes (alignUpTerm v) (ShmFrame.alignUp value kLine) where
  agrees := by
    simp only [alignUpTerm, WordTerm.eval, computes.agrees, ShmFrame.alignUp]
  noWrap := by
    refine alignUpTerm_noWrap computes.noWrap ?_
    rw [computes.exact]
    exact_mod_cast small

/-- A word of the source is itself. -/
theorem Computes.word (value : UInt64) : Computes (.word value) value :=
  ⟨rfl, WordTerm.noWrap_word value⟩

/-- What the sizes of a bounded configuration add up to. -/
structure LayoutBounds (c : LLConfig) (l : LLLayout) : Prop where
  slots : c.slotCount.toNat * l.slotStride.toNat ≤ 2 ^ 37
  cells : c.commandSlots.toNat * l.cmdStride.toNat ≤ 2 ^ 53
  downstream : l.downstreamOffset.toNat ≤ 2 ^ 38
  upstream : l.upstreamOffset.toNat ≤ 2 ^ 54

/-- Both products are bounded by their factors, and the offsets by the products. -/
theorem layout_bounds {c : LLConfig} (bounded : c.Bounded) : LayoutBounds c (computeLayout c) := by
  have layout := computeLayout_exact bounded
  have payload := bounded.exactBytes_max
  rw [← bounded.maxPayload_exact] at payload
  have bytes := bounded.commandBytes.2
  have range := c.commandSlots.toNat_lt
  have slotStride := layout.slotStride
  have cmdStride := layout.cmdStride
  have ringStride := layout.ringStride
  have downstream := layout.downstreamOffset
  have upstream := layout.upstreamOffset
  have slots : c.slotCount.toNat * (computeLayout c).slotStride.toNat ≤ 4 * 2 ^ 35 :=
    Nat.mul_le_mul bounded.slots.2 (by omega)
  have cells : c.commandSlots.toNat * (computeLayout c).cmdStride.toNat ≤ 2 ^ 32 * 2 ^ 21 :=
    Nat.mul_le_mul (by omega) (by omega)
  exact ⟨by omega, by omega, by omega, by omega⟩

section Fields

variable {c : LLConfig}

/-- The product of three factors for the maximal payload. -/
theorem maxPayload_computes (bounded : c.Bounded)
    : Computes (maxPayloadTerm c) c.maxPayload := by
  have area : c.maxWidth.toNat * c.maxHeight.toNat ≤ 32768 * 32768 :=
    Nat.mul_le_mul bounded.width.2 bounded.height.2
  have whole := bounded.maxPayload_exact
  have small := bounded.exactBytes_max
  refine ((Computes.word _).mul (.word _) ?_).mul (.word _) ?_
  · simp only [UInt32.toNat_toUInt64]
    omega
  · simp only [UInt64.toNat_mul, UInt32.toNat_toUInt64, LLConfig.exactBytes] at small ⊢
    rw [Nat.mod_eq_of_lt (a := c.maxWidth.toNat * c.maxHeight.toNat) (by omega)]
    omega

/-- The distance of two slots. -/
theorem slotStride_computes (bounded : c.Bounded)
    : Computes (slotStrideTerm c) (computeLayout c).slotStride := by
  have small := bounded.exactBytes_max
  rw [← bounded.maxPayload_exact] at small
  have offset := (computeLayout_exact bounded).slotPayloadOff
  have header : Computes slotPayloadOffTerm (computeLayout c).slotPayloadOff :=
    (Computes.word sizeofLLSlotHeader).alignUp (by decide)
  have body := header.add (maxPayload_computes bounded) (by omega)
  refine body.alignUp ?_
  rw [UInt64.toNat_add]
  omega

/-- The distance of two command cells. -/
theorem cmdStride_computes (bounded : c.Bounded)
    : Computes (cmdStrideTerm c) (computeLayout c).cmdStride := by
  have bytes := bounded.commandBytes.2
  have header : sizeofLLCmdHeader.toNat = 32 := rfl
  have body := (Computes.word sizeofLLCmdHeader).add (.word c.maxCommandBytes.toUInt64) (by
    rw [UInt32.toNat_toUInt64]
    omega)
  refine body.alignUp ?_
  rw [UInt64.toNat_add, UInt32.toNat_toUInt64]
  omega

/-- The offset of the payload of a ring. -/
theorem ringPayloadOff_computes (c : LLConfig)
    : Computes ringPayloadOffTerm (computeLayout c).ringPayloadOff :=
  (Computes.word sizeofLLRingHeader).alignUp (by decide)

/-- The size of a ring. -/
theorem ringStride_computes (bounded : c.Bounded)
    : Computes (ringStrideTerm c) (computeLayout c).ringStride := by
  have cells := (layout_bounds bounded).cells
  have offset := (computeLayout_exact bounded).ringPayloadOff
  have product := (Computes.word c.commandSlots.toUInt64).mul (cmdStride_computes bounded) (by
    rw [UInt32.toNat_toUInt64]
    omega)
  have size
      : (c.commandSlots.toUInt64 * (computeLayout c).cmdStride).toNat
        = c.commandSlots.toNat * (computeLayout c).cmdStride.toNat := by
    rw [UInt64.toNat_mul, UInt32.toNat_toUInt64]
    exact Nat.mod_eq_of_lt (by omega)
  have body := (ringPayloadOff_computes c).add product (by omega)
  refine body.alignUp ?_
  rw [UInt64.toNat_add]
  omega

/-- A slot, or the end of all slots. -/
theorem slotAt_computes (bounded : c.Bounded) {index : UInt32}
    (below : index.toNat ≤ c.slotCount.toNat)
    : Computes (slotAtTerm c index) (slotAt (computeLayout c) index)
      ∧ (slotAt (computeLayout c) index).toNat
        = 448 + index.toNat * (computeLayout c).slotStride.toNat := by
  have slots := (layout_bounds bounded).slots
  have offset := (computeLayout_exact bounded).slotsOffset
  have less
      : index.toNat * (computeLayout c).slotStride.toNat
        ≤ c.slotCount.toNat * (computeLayout c).slotStride.toNat :=
    Nat.mul_le_mul_right _ below
  have size
      : (index.toUInt64 * (computeLayout c).slotStride).toNat
        = index.toNat * (computeLayout c).slotStride.toNat := by
    rw [UInt64.toNat_mul, UInt32.toNat_toUInt64]
    exact Nat.mod_eq_of_lt (by omega)
  have header : Computes headerSizeTerm (computeLayout c).slotsOffset :=
    (Computes.word sizeofLLHeader).alignUp (by decide)
  have product := (Computes.word index.toUInt64).mul (slotStride_computes bounded) (by
    rw [UInt32.toNat_toUInt64]
    omega)
  refine ⟨header.add product (by omega), ?_⟩
  rw [slotAt, UInt64.toNat_add]
  omega

/-- The payload of a slot. -/
theorem slotPayload_computes (bounded : c.Bounded) {index : UInt32}
    (below : index.toNat < c.slotCount.toNat)
    : Computes (slotPayloadTerm c index) (slotPayload (computeLayout c) index)
      ∧ (slotPayload (computeLayout c) index).toNat
        = 512 + index.toNat * (computeLayout c).slotStride.toNat := by
  have slots := (layout_bounds bounded).slots
  have offset := (computeLayout_exact bounded).slotPayloadOff
  have less
      : index.toNat * (computeLayout c).slotStride.toNat
        ≤ c.slotCount.toNat * (computeLayout c).slotStride.toNat :=
    Nat.mul_le_mul_right _ below.le
  obtain ⟨slot, size⟩ := slotAt_computes bounded below.le
  have header : Computes slotPayloadOffTerm (computeLayout c).slotPayloadOff :=
    (Computes.word sizeofLLSlotHeader).alignUp (by decide)
  refine ⟨slot.add header (by omega), ?_⟩
  change (slotAt (computeLayout c) index + (computeLayout c).slotPayloadOff).toNat = _
  rw [UInt64.toNat_add]
  omega

/-- The downstream ring follows the slots. -/
theorem downstreamOffset_computes (bounded : c.Bounded)
    : Computes (downstreamOffsetTerm c) (computeLayout c).downstreamOffset :=
  (slotAt_computes bounded le_rfl).1

/-- The upstream ring follows the downstream ring. -/
theorem upstreamOffset_computes (bounded : c.Bounded)
    : Computes (upstreamOffsetTerm c) (computeLayout c).upstreamOffset := by
  have bounds := layout_bounds bounded
  have upstream := (computeLayout_exact bounded).upstreamOffset
  have range := bounds.upstream
  have sum := (downstreamOffset_computes bounded).add (ringStride_computes bounded) (by omega)
  exact sum

/-- Nothing follows the upstream ring. -/
theorem totalSize_computes (bounded : c.Bounded)
    : Computes (totalSizeTerm c) (computeLayout c).totalSize := by
  have bounds := layout_bounds bounded
  have upstream := (computeLayout_exact bounded).upstreamOffset
  have range := bounds.upstream
  have sum := (upstreamOffset_computes bounded).add (ringStride_computes bounded) (by omega)
  exact sum

/-- Either ring. -/
theorem ringOffset_computes (bounded : c.Bounded) (direction : Direction)
    : Computes (ringOffsetTerm c direction) ((computeLayout c).ringOffset direction)
      ∧ ((computeLayout c).ringOffset direction).toNat ≤ 2 ^ 54 := by
  have bounds := layout_bounds bounded
  have down := bounds.downstream
  cases direction with
  | downstream => exact ⟨downstreamOffset_computes bounded, down.trans (by decide)⟩
  | upstream => exact ⟨upstreamOffset_computes bounded, bounds.upstream⟩

/-- A command cell. -/
theorem cmdAt_computes (bounded : c.Bounded) (direction : Direction) {index : UInt64}
    (below : index.toNat < c.commandSlots.toNat)
    : Computes (cmdAtTerm c direction index)
        (cmdAt ((computeLayout c).ringOffset direction) (computeLayout c) index)
      ∧ (cmdAt ((computeLayout c).ringOffset direction) (computeLayout c) index).toNat
        = ((computeLayout c).ringOffset direction).toNat + 128
          + index.toNat * (computeLayout c).cmdStride.toNat := by
  have cells := (layout_bounds bounded).cells
  have offset := (computeLayout_exact bounded).ringPayloadOff
  obtain ⟨ring, range⟩ := ringOffset_computes bounded direction
  have less
      : index.toNat * (computeLayout c).cmdStride.toNat
        ≤ c.commandSlots.toNat * (computeLayout c).cmdStride.toNat :=
    Nat.mul_le_mul_right _ below.le
  have size
      : (index * (computeLayout c).cmdStride).toNat
        = index.toNat * (computeLayout c).cmdStride.toNat := by
    rw [UInt64.toNat_mul]
    exact Nat.mod_eq_of_lt (by omega)
  have start
      : ((computeLayout c).ringOffset direction + (computeLayout c).ringPayloadOff).toNat
        = ((computeLayout c).ringOffset direction).toNat + 128 := by
    rw [UInt64.toNat_add]
    omega
  have body := ring.add (ringPayloadOff_computes c) (by omega)
  have product := (Computes.word index).mul (cmdStride_computes bounded) (by omega)
  refine ⟨body.add product (by omega), ?_⟩
  rw [cmdAt, UInt64.toNat_add]
  omega

end Fields

/-- The terms of a bounded configuration do not wrap. -/
theorem layout_computed {c : LLConfig} (bounded : c.Bounded)
    : LayoutComputed c (computeLayout c) where
  maxPayload := maxPayload_computes bounded
  headerSize := (Computes.word sizeofLLHeader).alignUp (by decide)
  slotsOffset := (Computes.word sizeofLLHeader).alignUp (by decide)
  slotPayloadOff := (Computes.word sizeofLLSlotHeader).alignUp (by decide)
  slotStride := slotStride_computes bounded
  ringPayloadOff := ringPayloadOff_computes c
  cmdStride := cmdStride_computes bounded
  ringStride := ringStride_computes bounded
  downstreamOffset := downstreamOffset_computes bounded
  upstreamOffset := upstreamOffset_computes bounded
  totalSize := totalSize_computes bounded
  slot := fun _ below => (slotAt_computes bounded (UInt32.le_of_lt below)).1
  payload := fun _ below => (slotPayload_computes bounded below).1
  ring := fun direction => (ringOffset_computes bounded direction).1
  cell := fun direction index below => by
    have below' := UInt64.lt_iff_toNat_lt.mp below
    rw [UInt32.toNat_toUInt64] at below'
    exact (cmdAt_computes bounded direction below').1
  cellPayload := fun direction index below => by
    have below' := UInt64.lt_iff_toNat_lt.mp below
    rw [UInt32.toNat_toUInt64] at below'
    obtain ⟨cell, size⟩ := cmdAt_computes bounded direction below'
    have cells := (layout_bounds bounded).cells
    have range := (ringOffset_computes bounded direction).2
    have header : sizeofLLCmdHeader.toNat = 32 := rfl
    have less
        : index.toNat * (computeLayout c).cmdStride.toNat
          ≤ c.commandSlots.toNat * (computeLayout c).cmdStride.toNat :=
      Nat.mul_le_mul_right _ below'.le
    exact cell.add (.word sizeofLLCmdHeader) (by omega)

-----------------------------------------------------------------------------------------
-- Blocks
-----------------------------------------------------------------------------------------

/-- The areas that belong together, in the order in which they lie in the segment. -/
inductive Block
  | header
  | slot (index : UInt32)
  | ring (direction : Direction)
deriving DecidableEq

/-- The block of an area. -/
def Area.block : Area → Block
  | .header => .header
  | .slotHeader index | .slotPayload index => .slot index
  | .ringHeader direction | .cell direction _ => .ring direction

/-- The index is one of the configuration. -/
def Block.Exists (c : LLConfig) : Block → Prop
  | .slot index => index.toNat < c.slotCount.toNat
  | .header | .ring _ => True

/-- Where a block lies. -/
def Block.span (c : LLConfig) (block : Block) : Span :=
  let l := computeLayout c
  match block with
  | .header => { first := 0, size := 448 }
  | .slot index => .element 448 l.slotStride.toNat l.slotStride.toNat index.toNat
  | .ring direction => { first := (l.ringOffset direction).toNat, size := l.ringStride.toNat }

section Areas

variable {c : LLConfig}

/-- The block of an area exists if the area does. -/
theorem Area.block_exists {area : Area} (there : area.Exists c) : area.block.Exists c := by
  cases area with
  | slotHeader index | slotPayload index => exact UInt32.lt_iff_toNat_lt.mp there
  | header | ringHeader direction | cell direction index => exact True.intro

/-- A cell index of a configuration is below the number of cells. -/
theorem Area.cell_index {direction : Direction} {index : UInt64}
    (there : (Area.cell direction index).Exists c)
    : index.toNat < c.commandSlots.toNat := by
  have below := UInt64.lt_iff_toNat_lt.mp there
  rwa [UInt32.toNat_toUInt64] at below

/-- All slots lie between the header and the downstream ring. -/
theorem slot_between (bounded : c.Bounded) {index : UInt32}
    (below : index.toNat < c.slotCount.toNat)
    : ((Block.slot index).span c).Inside
        { first := 448, size := (computeLayout c).downstreamOffset.toNat - 448 } := by
  have downstream := (computeLayout_exact bounded).downstreamOffset
  have inside : ((Block.slot index).span c).Inside _ :=
    Span.element_inside (le_refl (computeLayout c).slotStride.toNat) below
  rwa [← Nat.add_sub_cancel_left (n := 448) (m := c.slotCount.toNat * _), ← downstream] at inside

/-- Different blocks do not overlap. -/
theorem Block.span_apart (bounded : c.Bounded) {left right : Block}
    (first : left.Exists c) (second : right.Exists c) (distinct : left ≠ right)
    : (left.span c).Apart (right.span c) := by
  have layout := computeLayout_exact bounded
  have downstream := layout.downstreamOffset
  have upstream := layout.upstreamOffset
  -- A slot is apart from the header before all slots and from the rings behind them.
  have slotHeader {index : UInt32} (below : index.toNat < c.slotCount.toNat)
      : ((Block.slot index).span c).Apart (Block.header.span c) := by
    obtain ⟨begins, -⟩ := slot_between bounded below
    exact Or.inr begins
  have slotRing {index : UInt32} (below : index.toNat < c.slotCount.toNat)
      (direction : Direction)
      : ((Block.slot index).span c).Apart ((Block.ring direction).span c) := by
    obtain ⟨-, ends⟩ := slot_between bounded below
    refine Or.inl (ends.trans ?_)
    cases direction <;> simp only [Span.last, Block.span, LLLayout.ringOffset] <;> omega
  have headerRing (direction : Direction)
      : (Block.header.span c).Apart ((Block.ring direction).span c) := by
    refine Or.inl ?_
    cases direction <;> simp only [Span.last, Block.span, LLLayout.ringOffset] <;> omega
  cases left with
  | header =>
      cases right with
      | header => exact absurd rfl distinct
      | slot index => exact (slotHeader second).symm
      | ring direction => exact headerRing direction
  | slot index =>
      cases right with
      | header => exact slotHeader first
      | slot other =>
          refine Span.element_apart le_rfl fun same => distinct ?_
          rw [UInt32.toNat_inj.mp same]
      | ring direction => exact slotRing first direction
  | ring direction =>
      cases right with
      | header => exact (headerRing direction).symm
      | slot index => exact (slotRing second direction).symm
      | ring other =>
          cases direction <;> cases other
          · exact absurd rfl distinct
          · refine Or.inl ?_
            simp only [Span.last, Block.span, LLLayout.ringOffset]
            omega
          · refine Or.inr ?_
            simp only [Span.last, Block.span, LLLayout.ringOffset]
            omega
          · exact absurd rfl distinct

/-- Every block ends before the segment does. -/
theorem Block.span_inside (bounded : c.Bounded) {block : Block} (there : block.Exists c)
    : (block.span c).Inside { first := 0, size := (computeLayout c).totalSize.toNat } := by
  have layout := computeLayout_exact bounded
  have downstream := layout.downstreamOffset
  have upstream := layout.upstreamOffset
  have total := layout.totalSize
  refine ⟨Nat.zero_le _, ?_⟩
  cases block with
  | header =>
      simp only [Span.last, Block.span]
      omega
  | slot index =>
      obtain ⟨-, ends⟩ := slot_between bounded there
      refine ends.trans ?_
      simp only [Span.last]
      omega
  | ring direction =>
      cases direction <;> simp only [Span.last, Block.span, LLLayout.ringOffset] <;> omega

/-- Where the cells of a ring lie, without the accessors. -/
theorem cell_span (bounded : c.Bounded) {direction : Direction} {index : UInt64}
    (below : index.toNat < c.commandSlots.toNat)
    : (Area.cell direction index).span c
      = .element (((computeLayout c).ringOffset direction).toNat + 128)
          (computeLayout c).cmdStride.toNat (32 + c.maxCommandBytes.toNat) index.toNat := by
  have start := (cmdAt_computes bounded direction below).2
  simp only [Area.span, Span.element, start]
  rfl

/-- Every area lies in its block. -/
theorem Area.span_block (bounded : c.Bounded) {area : Area} (there : area.Exists c)
    : (area.span c).Inside (area.block.span c) := by
  have layout := computeLayout_exact bounded
  have slotStride := layout.slotStride
  have cmdStride := layout.cmdStride
  have ringStride := layout.ringStride
  cases area with
  | header => exact .refl _
  | slotHeader index =>
      have below := UInt32.lt_iff_toNat_lt.mp there
      have start := (slotAt_computes bounded below.le).2
      have size : sizeofLLSlotHeader.toNat = 40 := rfl
      constructor <;>
        simp only [Area.span, Area.block, Block.span, Span.element, Span.last, start, size] <;>
        omega
  | slotPayload index =>
      have below := UInt32.lt_iff_toNat_lt.mp there
      have start := (slotPayload_computes bounded below).2
      constructor <;>
        simp only [Area.span, Area.block, Block.span, Span.element, Span.last, start] <;>
        omega
  | ringHeader direction =>
      have size : sizeofLLRingHeader.toNat = 128 := rfl
      constructor <;>
        simp only [Area.span, Area.block, Block.span, Span.last, ringAt, size] <;>
        omega
  | cell direction index =>
      have below := Area.cell_index there
      rw [cell_span bounded below]
      refine (Span.element_inside (by omega) below).trans ⟨?_, ?_⟩
      · simp only [Area.block, Block.span]
        omega
      · simp only [Area.block, Block.span, Span.last]
        omega

/-- Different areas of one block do not overlap. -/
theorem Area.span_apart_block (bounded : c.Bounded) {left right : Area}
    (first : left.Exists c) (second : right.Exists c) (distinct : left ≠ right)
    (same : left.block = right.block)
    : (left.span c).Apart (right.span c) := by
  have layout := computeLayout_exact bounded
  have cmdStride := layout.cmdStride
  -- A slot header ends before the payload, and a ring header before every cell.
  have slotParts {index : UInt32} (below : index.toNat < c.slotCount.toNat)
      : ((Area.slotHeader index).span c).Apart ((Area.slotPayload index).span c) := by
    have header := (slotAt_computes bounded below.le).2
    have payload := (slotPayload_computes bounded below).2
    have size : sizeofLLSlotHeader.toNat = 40 := rfl
    refine Or.inl ?_
    simp only [Span.last, Area.span, header, payload, size]
    omega
  have ringParts {direction : Direction} {index : UInt64}
      (below : index.toNat < c.commandSlots.toNat)
      : ((Area.ringHeader direction).span c).Apart ((Area.cell direction index).span c) := by
    have size : sizeofLLRingHeader.toNat = 128 := rfl
    rw [cell_span bounded below]
    refine Or.inl ?_
    simp only [Span.last, Span.element, Area.span, ringAt, size]
    omega
  cases left with
  | header => cases right <;> first | exact absurd rfl distinct | cases same
  | slotHeader index =>
      cases right with
      | slotHeader other =>
          cases same
          exact absurd rfl distinct
      | slotPayload other =>
          cases same
          exact slotParts (UInt32.lt_iff_toNat_lt.mp first)
      | header | ringHeader direction | cell direction index => cases same
  | slotPayload index =>
      cases right with
      | slotHeader other =>
          cases same
          exact (slotParts (UInt32.lt_iff_toNat_lt.mp first)).symm
      | slotPayload other =>
          cases same
          exact absurd rfl distinct
      | header | ringHeader direction | cell direction index => cases same
  | ringHeader direction =>
      cases right with
      | ringHeader other =>
          cases same
          exact absurd rfl distinct
      | cell other index =>
          cases same
          exact ringParts (Area.cell_index second)
      | header | slotHeader index | slotPayload index => cases same
  | cell direction index =>
      cases right with
      | ringHeader other =>
          cases same
          exact (ringParts (Area.cell_index first)).symm
      | cell other next =>
          cases same
          rw [cell_span bounded (Area.cell_index first),
            cell_span bounded (Area.cell_index second)]
          refine Span.element_apart (by omega) fun equal => distinct ?_
          rw [UInt64.toNat_inj.mp equal]
      | header | slotHeader index | slotPayload index => cases same

/-- Different areas do not overlap, in one block or in two. -/
theorem Area.span_apart (bounded : c.Bounded) {left right : Area}
    (first : left.Exists c) (second : right.Exists c) (distinct : left ≠ right)
    : (left.span c).Apart (right.span c) := by
  by_cases same : left.block = right.block
  · exact Area.span_apart_block bounded first second distinct same
  · exact (Block.span_apart bounded (Area.block_exists first) (Area.block_exists second)
      same).inside (Area.span_block bounded first) (Area.span_block bounded second)

/-- Every area lies in the segment. -/
theorem Area.span_inside (bounded : c.Bounded) {area : Area} (there : area.Exists c)
    : (area.span c).Inside { first := 0, size := (computeLayout c).totalSize.toNat } :=
  (Area.span_block bounded there).trans (Block.span_inside bounded (Area.block_exists there))

/-- Every area starts on a cache line. -/
theorem Area.span_aligned (bounded : c.Bounded) {area : Area} (there : area.Exists c)
    : (area.span c).first % 64 = 0 := by
  have layout := computeLayout_exact bounded
  have slotStride : (computeLayout c).slotStride.toNat % 64 = 0 := by
    rw [layout.slotStride]
    omega
  have cmdStride : (computeLayout c).cmdStride.toNat % 64 = 0 := by
    rw [layout.cmdStride]
    omega
  have scaled {count stride : Nat} (aligned : stride % 64 = 0) : count * stride % 64 = 0 := by
    rw [Nat.mul_mod, aligned, Nat.mul_zero]
  have ringStride := layout.ringStride
  have upstream := layout.upstreamOffset
  have downstream : (computeLayout c).downstreamOffset.toNat % 64 = 0 := by
    rw [layout.downstreamOffset, Nat.add_mod, scaled slotStride]
  have ring (direction : Direction) : ((computeLayout c).ringOffset direction).toNat % 64 = 0 := by
    cases direction with
    | downstream => exact downstream
    | upstream =>
        change (computeLayout c).upstreamOffset.toNat % 64 = 0
        omega
  cases area with
  | header => rfl
  | slotHeader index =>
      have below := UInt32.lt_iff_toNat_lt.mp there
      change (slotAt (computeLayout c) index).toNat % 64 = 0
      rw [(slotAt_computes bounded below.le).2, Nat.add_mod, scaled slotStride]
  | slotPayload index =>
      have below := UInt32.lt_iff_toNat_lt.mp there
      change (ShmFrame.slotPayload (computeLayout c) index).toNat % 64 = 0
      rw [(slotPayload_computes bounded below).2, Nat.add_mod, scaled slotStride]
  | ringHeader direction => exact ring direction
  | cell direction index =>
      rw [cell_span bounded (Area.cell_index there)]
      have offset := ring direction
      have product : index.toNat * (computeLayout c).cmdStride.toNat % 64 = 0 := scaled cmdStride
      simp only [Span.element]
      omega

end Areas

/-- For every valid configuration, no intermediate value of the layout and of the accessors
wraps; all areas are pairwise apart, lie in the segment and start on a cache line, and the
bytes of a command follow its header.
-/
theorem layout_collisionFree {c : LLConfig} (valid : configValid c = true)
    : LayoutComputed c (computeLayout c)
      ∧ (∀ left right : Area,
          left.Exists c → right.Exists c → left ≠ right → (left.span c).Apart (right.span c))
      ∧ (∀ area : Area,
          area.Exists c
          → (area.span c).Inside { first := 0, size := (computeLayout c).totalSize.toNat }
            ∧ (area.span c).first % 64 = 0)
      ∧ ∀ direction index,
          (Area.cell direction index).Exists c
          → (cmdPayload
                (cmdAt ((computeLayout c).ringOffset direction) (computeLayout c) index)).toNat
            = ((Area.cell direction index).span c).first + 32 := by
  have bounded := configValid_bounded valid
  have computed := layout_computed bounded
  refine ⟨computed, fun _ _ => Area.span_apart bounded,
    fun _ there => ⟨Area.span_inside bounded there, Area.span_aligned bounded there⟩,
    fun direction index there => ?_⟩
  have whole := (computed.cellPayload direction index there).exact
  have cell := (computed.cell direction index there).exact
  have header : sizeofLLCmdHeader.toNat = 32 := rfl
  rw [cmdPayloadTerm, WordTerm.exact, WordTerm.exact, cell, header] at whole
  change _ = (cmdAt _ _ _).toNat + 32
  omega

/-- The default configuration is one of them. -/
theorem layout_collisionFree_default
    : ((Area.slotPayload 2).span {}).Apart ((Area.cell .upstream 63).span {}) :=
  (layout_collisionFree (by decide +kernel)).2.1 _ _ (by decide) (by decide) (by decide)

end ShmFrame
