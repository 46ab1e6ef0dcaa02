import ShmFrame.Accesses.Subscriber

/-! Every access of an endpoint lies in the area it is meant for, whatever is found in shared
memory, as long as the configuration in the header keeps its value; and subscribers store to
the rings and to the two owner words only.
-/

namespace ShmFrame.Accesses

open ShmFrame.Foundation LLSubscriber

-----------------------------------------------------------------------------------------
-- What is known, and what is proper
-----------------------------------------------------------------------------------------

/-- The configuration words of a header, and what they say of a configuration. -/
def configWord (c : LLConfig) : HeaderWord → Option UInt64
  | .maxWidth => some c.maxWidth.toUInt64
  | .maxHeight => some c.maxHeight.toUInt64
  | .bytesPerPixel => some c.bytesPerPixel.toUInt64
  | .slotCount => some c.slotCount.toUInt64
  | .commandSlots => some c.commandSlots.toUInt64
  | .maxCommandBytes => some c.maxCommandBytes.toUInt64
  | _ => none

/-- What `validate_header` reassembles from a header that echoes a configuration. -/
def echoed (c : LLConfig) : LLConfig where
  name := "x".toUTF8.toList
  maxWidth := c.maxWidth
  maxHeight := c.maxHeight
  bytesPerPixel := c.bytesPerPixel
  slotCount := c.slotCount
  commandSlots := c.commandSlots
  maxCommandBytes := c.maxCommandBytes

/-- The segments whose configuration words are trusted to keep their value, that value, and
the sizes of the mappings.
-/
structure Knowledge where
  trusted : Nat → Prop
  config : Nat → LLConfig
  size : Nat → UInt64

/-- An answer does not contradict what is known. Everything else in a segment is arbitrary,
at every single access.
-/
def Knowledge.Consistent (k : Knowledge) : (effect : Effect) → effect.Answer → Prop
  | .load g _ span, answer =>
      k.trusted g
      → ∀ word value,
          configWord (k.config g) word = some value → span = word.place → answer = value
  | .ask (.sizeOf g), answer => k.trusted g → answer = k.size g
  | _, _ => True

/-- An environment of which no more is known. -/
def Knowledge.environment (k : Knowledge) : Program.Environment Effect Effect.Answer Unit :=
  fun _ effect answer _ => k.Consistent effect answer

/-- The segment, area and span of an access. -/
def Effect.target : Effect → Option (Nat × Area × Span)
  | .load g area span | .store g area span _ | .exchange g area span _ _ => some (g, area, span)
  | .copyOut g area offset _ => some (g, area, ⟨offset, 1⟩)
  | .ask _ | .stall => none

/-- The same for an access that may change the segment. -/
def Effect.written : Effect → Option (Nat × Area × Span)
  | .store g area span _ | .exchange g area span _ _ => some (g, area, span)
  | .load .. | .copyOut .. | .ask _ | .stall => none

/-- A span lies in an existing area of a configuration, and in the mapping. For a valid
configuration it lies in the part of the mapping that the layout uses.
-/
structure Within (c : LLConfig) (size : UInt64) (area : Area) (span : Span) : Prop where
  there : area.Exists c
  inside : span.Inside (area.span c)
  mapped : span.last ≤ size.toNat
  total : configValid (echoed c) = true → span.last ≤ (computeLayout c).totalSize.toNat

/-- What subscribers may store to. -/
def Subscribable (area : Area) (span : Span) : Prop :=
  match area with
  | .header =>
      span = HeaderWord.commandOwnerGen.place
      ∨ span = HeaderWord.commandOwnerHeartbeatNs.place
  | .ringHeader _ | .cell .. => True
  | .slotHeader _ | .slotPayload _ => False

/-- Stores go where subscribers may store, and lie in that area. -/
structure Harmless (k : Knowledge) (effect : Effect) : Prop where
  place : ∀ g area span, effect.written = some (g, area, span) → Subscribable area span
  within
    : ∀ g area span,
        effect.written = some (g, area, span)
        → k.trusted g
        → Within (k.config g) (k.size g) area span

/-- All accesses lie in their areas, and so many bytes at most are copied out. -/
structure Proper (k : Knowledge) (limit : Nat → Nat) (effect : Effect) : Prop where
  place : ∀ g area span, effect.written = some (g, area, span) → Subscribable area span
  within
    : ∀ g area span,
        effect.target = some (g, area, span)
        → k.trusted g
        → Within (k.config g) (k.size g) area span
  copied
    : ∀ g area offset index,
        effect = .copyOut g area offset index → k.trusted g → index < limit g

/-- What is written is accessed. -/
theorem Effect.target_of_written {effect : Effect} {target : Nat × Area × Span}
    (written : effect.written = some target)
    : effect.target = some target := by
  cases effect with
  | store g area span value => exact written
  | exchange g area span expected desired => exact written
  | load g area span => cases written
  | copyOut g area offset index => cases written
  | ask question => cases written
  | stall => cases written

/-- Proper accesses are harmless. -/
theorem Proper.harmless {k : Knowledge} {limit : Nat → Nat} {effect : Effect}
    (proper : Proper k limit effect)
    : Harmless k effect where
  place := proper.place
  within := fun g area span written =>
    proper.within g area span (Effect.target_of_written written)

/-- A larger buffer may be filled as well. -/
theorem Proper.mono {k : Knowledge} {limit more : Nat → Nat}
    (larger : ∀ g, k.trusted g → limit g ≤ more g) {effect : Effect}
    (proper : Proper k limit effect)
    : Proper k more effect :=
  {
    proper with
    copied := fun g area offset index copies trusted =>
      (proper.copied g area offset index copies trusted).trans_le (larger g trusted)
  }

/-- The bounds of a configuration are those of its echo. -/
theorem bounded_of_echoed {c : LLConfig} (valid : configValid (echoed c) = true)
    : c.Bounded :=
  have bounded := configValid_bounded valid
  ⟨bounded.width, bounded.height, bounded.depth, bounded.slots, bounded.commands,
    bounded.commandBytes⟩

/-- A word at some place of an area is within it, if the segment is large enough. -/
theorem Within.of_valid {c : LLConfig} {size : UInt64} {area : Area} {span : Span}
    (valid : configValid (echoed c) = true)
    (fits : (computeLayout c).totalSize.toNat ≤ size.toNat) (there : area.Exists c)
    (inside : span.Inside (area.span c))
    : Within c size area span := by
  have total := (inside.trans (Area.span_inside (bounded_of_echoed valid) there)).2
  have last : span.last ≤ (computeLayout c).totalSize.toNat := by
    simpa only [Span.last, Nat.zero_add] using total
  exact ⟨there, inside, last.trans fits, fun _ => last⟩

/-- Words of the header lie in every mapping that is large enough for a header. -/
theorem Within.header {c : LLConfig} {size : UInt64}
    (large : sizeofLLHeader.toNat ≤ size.toNat) (word : HeaderWord)
    : Within c size .header word.place where
  there := trivial
  inside := ⟨Nat.zero_le _, by
    simpa only [Area.span, Span.last, Nat.zero_add] using word.place_inside⟩
  mapped := word.place_inside.trans large
  total := fun valid => by
    have there : Area.header.Exists c := trivial
    have inside := (Area.span_inside (bounded_of_echoed valid) there).2
    simp only [Area.span, Span.last, Nat.zero_add] at inside
    exact word.place_inside.trans inside

/-- A place of a structure at some base lies in the structure. -/
theorem at_inside {base : UInt64} {place outer : Span} (start : outer.first = base.toNat)
    (last : place.last ≤ outer.size)
    : (at_ base place).Inside outer := by
  simp only [Span.last] at last
  constructor
  · simp only [at_]
    omega
  · simp only [at_, Span.last]
    omega

/-- The index of a cell is in range. -/
theorem RingHandle.index_below {h : RingHandle} (some_ : h.ring.slots ≠ 0) (counter : UInt64)
    : h.index counter < h.ring.slots.toUInt64 := by
  have one : (1 : UInt32) ≤ h.ring.slots := by
    rw [UInt32.le_iff_toNat_le]
    exact Nat.pos_of_ne_zero fun zero => some_ (UInt32.toNat_inj.mp zero)
  have positive : 1 ≤ h.ring.slots.toNat := UInt32.le_iff_toNat_le.mp one
  have masked := Nat.and_le_right (n := counter.toNat) (m := (h.ring.slots - 1).toUInt64.toNat)
  rw [UInt64.lt_iff_toNat_lt, RingHandle.index, UInt64.toNat_and]
  rw [UInt32.toNat_toUInt64, UInt32.toNat_sub_of_le _ _ one] at masked ⊢
  rw [UInt32.toNat_toUInt64]
  have unit : (1 : UInt32).toNat = 1 := rfl
  omega

end ShmFrame.Accesses
