import ShmFrame.Accesses.Independence
import ShmFrame.Foundation.Strided

/-! What a call of `publish` leaves behind in the segment, byte by byte: the rows of the
source, repacked, in the payload of one slot, and nothing else but that slot's header,
`latest` and the heartbeat.
-/

namespace ShmFrame.Accesses

open ShmFrame.Foundation ShmFrame.Foundation.Program LLPublisher

-----------------------------------------------------------------------------------------
-- One party amid others
-----------------------------------------------------------------------------------------

/-- The effects of one party on the bytes. At some offsets others may store at any time. -/
def amid (size : Nat → UInt64) (others : Nat → Nat → Prop)
    : Environment Effect Effect.Answer (Nat → Bytes) :=
  fun bytes effect answer later =>
    (∃ reply, effect.answer size bytes reply = some answer)
    ∧ ∀ g offset, ¬ others g offset → later g offset = effect.apply bytes g offset

/-- An effect that has an answer, whatever the bytes are. -/
def Answered (effect : Effect) : Prop := effect ≠ .stall

/-- Where nobody else stores, the bytes outside some part of a segment are the same. -/
def KeptOutside (others : Nat → Nat → Prop) (g : Nat) (part : Nat → Prop)
    (before after : Nat → Bytes)
    : Prop :=
  ∀ other offset,
    ¬ others other offset
    → (other = g → ¬ part offset)
    → after other offset = before other offset

/-- Where nobody else stores, one segment has some contents, and all others are the same. -/
def Leaves (others : Nat → Nat → Prop) (g : Nat) (contents : Bytes) (before after : Nat → Bytes)
    : Prop :=
  ∀ other offset,
    ¬ others other offset → after other offset = assign before g contents other offset

section Amid

variable {size : Nat → UInt64} {others : Nat → Nat → Prop} {g : Nat}
  {part more : Nat → Prop} {before bytes after : Nat → Bytes}

/-- What is kept outside a part is kept outside a larger one. -/
theorem KeptOutside.mono (kept : KeptOutside others g part before after)
    (larger : ∀ offset, part offset → more offset)
    : KeptOutside others g more before after :=
  fun other offset alone outside =>
    kept other offset alone fun same inside => outside same (larger offset inside)

/-- Two steps that keep the same bytes. -/
theorem KeptOutside.trans (first : KeptOutside others g part before bytes)
    (second : KeptOutside others g part bytes after)
    : KeptOutside others g part before after :=
  fun other offset alone outside =>
    (second other offset alone outside).trans (first other offset alone outside)

/-- Two loads of a word that is kept find the same. -/
theorem KeptOutside.word (kept : KeptOutside others g part before after) {span : Span}
    (alone : ∀ offset, span.Holds offset → ¬ others g offset)
    (outside : ∀ offset, span.Holds offset → ¬ part offset)
    : wordAt (after g) span = wordAt (before g) span :=
  wordAt_congr fun offset holds => kept g offset (alone offset holds) fun _ => outside offset holds

/-- Reading the clock and loading a word change nothing. -/
theorem nowNs_kept (kept : KeptOutside others g part before bytes)
    : nowNs.Ensures (amid size others) Answered bytes fun _ later =>
        KeptOutside others g part before later := by
  refine ⟨nofun, fun _ later happened => ?_⟩
  exact kept.trans fun other offset alone _ => happened.2 other offset alone

theorem load_kept {area : Area} {span : Span} (kept : KeptOutside others g part before bytes)
    : (access (.load g area span)).Ensures (amid size others) Answered bytes fun _ later =>
        KeptOutside others g part before later := by
  refine ⟨nofun, fun _ later happened => ?_⟩
  exact kept.trans fun other offset alone _ => happened.2 other offset alone

/-- A store changes the bytes of its span. -/
theorem store_amid (area : Area) (span : Span) (value : UInt64)
    : (access (.store g area span value)).Ensures (amid size others) Answered bytes
        fun _ later => Leaves others g (storeAt (bytes g) span value) bytes later :=
  ⟨nofun, fun _ _ happened => happened.2⟩

/-- A store inside some part keeps the bytes outside it. -/
theorem Leaves.kept {span : Span} {value : UInt64}
    (stored : Leaves others g (storeAt (bytes g) span value) bytes after)
    (inside : ∀ offset, span.Holds offset → part offset)
    : KeptOutside others g part bytes after := by
  intro other offset alone outside
  rw [stored other offset alone]
  by_cases same : other = g
  · subst same
    rw [assign_same]
    exact storeAt_outside fun holds => outside rfl (inside offset holds)
  · rw [assign_apart _ _ same]

/-- So the bytes outside are still those from before. -/
theorem store_kept {area : Area} {span : Span} {value : UInt64}
    (kept : KeptOutside others g part before bytes)
    (inside : ∀ offset, span.Holds offset → part offset)
    : (access (.store g area span value)).Ensures (amid size others) Answered bytes
        fun _ later => KeptOutside others g part before later := by
  exact (store_amid area span value).mono (fun _ => id) fun _ later stored =>
    kept.trans (stored.kept inside)

/-- A byte of a number, as a store writes it. -/
theorem storedByte_toNat (value : UInt64) {index : Nat} (small : index < 8)
    : (value >>> (8 * UInt64.ofNat index)).toUInt8.toNat
      = value.toNat / 256 ^ index % 256 := by
  have shift : (8 * UInt64.ofNat index).toNat % 64 = 8 * index := by
    rw [UInt64.toNat_mul, UInt64.toNat_ofNat']
    change 8 * (index % 2 ^ 64) % 2 ^ 64 % 64 = 8 * index
    omega
  have power : 2 ^ (8 * index) = 256 ^ index := Nat.pow_mul 2 8 index
  rw [UInt64.toNat_toUInt8, UInt64.toNat_shiftRight, shift, Nat.shiftRight_eq_div_pow, power]

/-- The bytes a store writes say the number, by induction on how many there are. -/
theorem littleEndian_stored (value : UInt64) (first : Nat) {count : Nat}
    (small : first + count ≤ 8)
    : littleEndian ((List.range count).map fun index =>
          (value >>> (8 * UInt64.ofNat (first + index))).toUInt8)
      = value.toNat / 256 ^ first % 256 ^ count := by
  induction count generalizing first with
  | zero =>
      rw [Nat.pow_zero, Nat.mod_one]
      rfl
  | succ count ih =>
      have rest := ih (first + 1) (by omega)
      have shifted
          : ((List.range count).map fun index =>
                (value >>> (8 * UInt64.ofNat (first + (index + 1)))).toUInt8)
            = (List.range count).map fun index =>
                (value >>> (8 * UInt64.ofNat (first + 1 + index))).toUInt8 := by
        refine List.map_congr_left fun index _ => ?_
        rw [Nat.add_assoc, Nat.add_comm 1 index]
      rw [List.range_succ_eq_map, List.map_cons, List.map_map, littleEndian]
      change _ + 256 * littleEndian ((List.range count).map fun index =>
        (value >>> (8 * UInt64.ofNat (first + (index + 1)))).toUInt8) = _
      rw [shifted, rest, Nat.add_zero, storedByte_toNat value (by omega), Nat.pow_succ,
        ← Nat.div_div_eq_div_mul, Nat.pow_succ', Nat.mod_mul]

/-- A word that has been stored is found. -/
theorem wordAt_storeAt (bytes : Bytes) {span : Span} (whole : span.size = 8) (value : UInt64)
    : wordAt (storeAt bytes span value) span = value := by
  have stored
      : (List.range span.size).map (fun index => storeAt bytes span value (span.first + index))
        = (List.range span.size).map fun index =>
            (value >>> (8 * UInt64.ofNat (0 + index))).toUInt8 := by
    refine List.map_congr_left fun index member => ?_
    have below := List.mem_range.mp member
    have holds : span.Holds (span.first + index) :=
      ⟨Nat.le_add_right _ _, Nat.add_lt_add_left below span.first⟩
    rw [storeAt, if_pos holds, Nat.add_sub_cancel_left, Nat.zero_add]
  have range := value.toNat_lt
  rw [wordAt, stored, whole, littleEndian_stored value 0 (by omega), Nat.pow_zero, Nat.div_one,
    Nat.mod_eq_of_lt (by omega), UInt64.ofNat_toNat]

-----------------------------------------------------------------------------------------
-- The copies
-----------------------------------------------------------------------------------------

/-- What a segment holds, it holds after a further change of it as well. -/
theorem Leaves.trans {middle last : Bytes} {between : Nat → Bytes}
    (first : Leaves others g middle bytes between) (second : Leaves others g last between after)
    : Leaves others g last bytes after := by
  intro other offset alone
  rw [second other offset alone]
  by_cases same : other = g
  · subst same
    rw [assign_same, assign_same]
  · rw [assign_apart _ _ same, assign_apart _ _ same, first other offset alone,
      assign_apart _ _ same]

/-- Other contents that agree where nobody else stores. -/
theorem Leaves.congr {contents same : Bytes} (leaves : Leaves others g contents before after)
    (agree : ∀ offset, ¬ others g offset → contents offset = same offset)
    : Leaves others g same before after := by
  intro other offset alone
  rw [leaves other offset alone]
  by_cases here : other = g
  · subst here
    rw [assign_same, assign_same]
    exact agree offset alone
  · rw [assign_apart _ _ here, assign_apart _ _ here]

/-- The bytes of the segment, where nobody else stores. -/
theorem Leaves.here {contents : Bytes} (leaves : Leaves others g contents before after)
    {offset : Nat} (alone : ¬ others g offset)
    : after g offset = contents offset := by
  rw [leaves g offset alone, assign_same]

/-- Private bytes are copied to an area, by induction on their number. -/
theorem copyIn_amid (area : Area) (first : Nat) (source : Nat → UInt8) (count : Nat)
    : (copyIn g area first source count).Ensures (amid size others) Answered bytes
        fun _ later =>
          Leaves others g
            (Stretch.copy source (bytes g) { source := 0, target := first, length := count })
            bytes later := by
  induction count with
  | zero =>
      intro other offset _
      by_cases same : other = g
      · subst same
        rw [assign_same, Stretch.copy_outside (Nat.lt_or_ge offset first)]
      · rw [assign_apart _ _ same]
  | succ count ih =>
      refine Ensures.bind ih fun _ later copied => ?_
      refine (store_amid area _ _).mono (fun _ => id) fun _ last stored => ?_
      refine copied.trans (stored.congr fun offset alone => ?_)
      by_cases here : offset = first + count
      · subst here
        rw [Stretch.copy_inside (Nat.lt_succ_self count), storeAt,
          if_pos ⟨le_rfl, Nat.lt_succ_self _⟩, Nat.sub_self, Nat.zero_add]
        exact UInt8.toNat_inj.mp (by simp)
      · have outside : ¬ Span.Holds ⟨first + count, 1⟩ offset := by
          rintro ⟨begins, ends⟩
          simp only [Span.last] at begins ends
          omega
        rw [storeAt_outside outside, copied.here alone]
        rcases Nat.lt_or_ge offset first with before | behind
        · rw [Stretch.copy_outside (Or.inl before), Stretch.copy_outside (Or.inl before)]
        obtain ⟨index, rfl⟩ := Nat.exists_eq_add_of_le behind
        rcases Nat.lt_or_ge index count with inside | beyond
        · rw [Stretch.copy_inside inside, Stretch.copy_inside (by omega)]
        · rw [Stretch.copy_outside (Or.inr (by omega)), Stretch.copy_outside (Or.inr (by omega))]

/-- A copy of `publish` into a payload, as a stretch. -/
def stretchOf (payload : UInt64) (copy : Calls.RowCopy) : Stretch where
  source := copy.source.toNat
  target := payload.toNat + copy.offset.toNat
  length := copy.length.toNat

/-- All copies of `publish`, by induction on them. -/
theorem copyRows_amid (index : UInt32) (payload : UInt64) (src : Nat → UInt8)
    (copies : List Calls.RowCopy)
    : (copyRows g index payload src copies).Ensures (amid size others) Answered bytes
        fun _ later =>
          Leaves others g
            ((copies.map (stretchOf payload)).foldl (Stretch.copy src) (bytes g))
            bytes later := by
  induction copies generalizing bytes with
  | nil =>
      intro other offset _
      by_cases same : other = g
      · subst same
        rw [assign_same]
        rfl
      · rw [assign_apart _ _ same]
  | cons copy rest ih =>
      refine Ensures.bind (copyIn_amid _ _ _ _) fun _ later copied => ?_
      refine ih.mono (fun _ => id) fun _ last remaining => ?_
      refine copied.trans (remaining.congr fun offset alone => ?_)
      rw [List.map_cons, List.foldl_cons]
      refine Stretch.copies_congr ?_ _
      rw [copied.here alone, Stretch.copy_shifted, stretchOf]

end Amid

-----------------------------------------------------------------------------------------
-- The two ways to copy
-----------------------------------------------------------------------------------------

/-- The single copy of tightly packed rows. -/
def singleCopy (cfg : LLConfig) (width height : UInt32) : Calls.RowCopy :=
  {
    source := 0
    offset := 0
    length := (Calls.dstStride cfg width).toUInt64 * height.toUInt64
  }

/-- A copy for each row. -/
def rowByRow (cfg : LLConfig) (width height src : UInt32) : List Calls.RowCopy :=
  (List.range height.toNat).map fun row =>
    {
      source := UInt64.ofNat row * src.toUInt64
      offset := UInt64.ofNat row * (Calls.dstStride cfg width).toUInt64
      length := (Calls.dstStride cfg width).toUInt64
    }

/-- `publish` chooses between both. -/
theorem rowCopies_cases (cfg : LLConfig) (width height srcStride : UInt32)
    : Calls.rowCopies cfg width height srcStride
      = (
          let src := if srcStride = 0 then Calls.dstStride cfg width else srcStride
          if src = Calls.dstStride cfg width then [singleCopy cfg width height]
          else rowByRow cfg width height src
        ) :=
  rfl

section Paths

variable {cfg : LLConfig} {width height : UInt32} {payload : UInt64} {src : Nat → UInt8}
  {buffer : Bytes}

/-- No offset of a row wraps. -/
theorem rowByRow_rows (cfg : LLConfig) (width height src : UInt32) (payload : UInt64)
    : (rowByRow cfg width height src).map (stretchOf payload)
      = Stretch.rows payload.toNat (Calls.dstStride cfg width).toNat src.toNat
          height.toNat := by
  rw [rowByRow, Stretch.rows, List.map_map]
  refine List.map_congr_left fun row member => ?_
  have below := List.mem_range.mp member
  have rows := height.toNat_lt
  have scaled (stride : UInt32)
      : (UInt64.ofNat row * stride.toUInt64).toNat = row * stride.toNat := by
    have product : row * stride.toNat < 2 ^ 64 :=
      (Nat.mul_lt_mul'' (below.trans rows) stride.toNat_lt).trans_eq (by norm_num)
    rw [UInt64.toNat_mul, UInt64.toNat_ofNat', UInt32.toNat_toUInt64,
      Nat.mod_eq_of_lt (a := row) (by omega), Nat.mod_eq_of_lt product]
  simp only [Function.comp_apply, stretchOf, scaled, UInt32.toNat_toUInt64]

/-- Nor does the size of the single copy. -/
theorem singleCopy_stretch (cfg : LLConfig) (width height : UInt32) (payload : UInt64)
    : stretchOf payload (singleCopy cfg width height)
      = {
          source := 0
          target := payload.toNat
          length := (Calls.dstStride cfg width).toNat * height.toNat
        } := by
  have product : (Calls.dstStride cfg width).toNat * height.toNat < 2 ^ 64 :=
    (Nat.mul_lt_mul'' (UInt32.toNat_lt _) height.toNat_lt).trans_eq (by norm_num)
  have exact_
      : ((Calls.dstStride cfg width).toUInt64 * height.toUInt64).toNat
        = (Calls.dstStride cfg width).toNat * height.toNat := by
    rw [UInt64.toNat_mul, UInt32.toNat_toUInt64, UInt32.toNat_toUInt64,
      Nat.mod_eq_of_lt product]
  simp only [stretchOf, singleCopy, exact_, UInt64.toNat_zero, Nat.add_zero]

/-- Where the source is tightly packed, both ways have the same result. -/
theorem paths_agree
    : ((rowByRow cfg width height (Calls.dstStride cfg width)).map (stretchOf payload)).foldl
          (Stretch.copy src) buffer
      = [stretchOf payload (singleCopy cfg width height)].foldl (Stretch.copy src) buffer := by
  rw [rowByRow_rows, singleCopy_stretch, Stretch.copy_rows_single]
  rfl

/-- Whichever way is chosen, the rows of the source are copied. -/
theorem rowCopies_rows {srcStride : UInt32}
    : ((Calls.rowCopies cfg width height srcStride).map (stretchOf payload)).foldl
          (Stretch.copy src) buffer
      = (Stretch.rows payload.toNat (Calls.dstStride cfg width).toNat
          (if srcStride = 0 then Calls.dstStride cfg width else srcStride).toNat
          height.toNat).foldl (Stretch.copy src) buffer := by
  rw [rowCopies_cases, ← rowByRow_rows cfg width]
  dsimp only
  generalize (if srcStride = 0 then Calls.dstStride cfg width else srcStride) = stride
  split
  · rename_i packed
    rw [packed, paths_agree]
    rfl
  · rfl

end Paths

-----------------------------------------------------------------------------------------
-- The frame calls
-----------------------------------------------------------------------------------------

/-- The header of a slot, `latest` and the heartbeat. -/
def Metadata (cfg : LLConfig) (slot : UInt32) (offset : Nat) : Prop :=
  ((Area.slotHeader slot).span cfg).Holds offset
  ∨ HeaderWord.latest.place.Holds offset
  ∨ HeaderWord.lastHeartbeatNs.place.Holds offset

section FrameCalls

variable {size : Nat → UInt64} {others : Nat → Nat → Prop} {g : Nat} {cfg : LLConfig}
  {slot : UInt32} {before bytes : Nat → Bytes}

/-- The payload of a slot has no byte in common with these. -/
theorem payload_metadata (bounded : cfg.Bounded) (below : slot < cfg.slotCount) {offset : Nat}
    (holds : ((Area.slotPayload slot).span cfg).Holds offset)
    : ¬ Metadata cfg slot offset := by
  have behind : 448 ≤ offset := (slot_behind bounded below).2.trans holds.1
  rintro (header | latest | heartbeat)
  · have apart : ((Area.slotPayload slot).span cfg).Apart ((Area.slotHeader slot).span cfg) :=
      Area.span_apart bounded below below nofun
    exact apart.not_holds holds header
  · have ends : offset < 136 := latest.2
    omega
  · have ends : offset < 264 := heartbeat.2
    omega

/-- A store to a word of the slot's header. -/
theorem storeSlot_kept (kept : KeptOutside others g (Metadata cfg slot) before bytes)
    (word : SlotWord) (value : UInt64)
    : (storeSlot g (computeLayout cfg) slot word value).Ensures (amid size others) Answered bytes
        fun _ later => KeptOutside others g (Metadata cfg slot) before later :=
  store_kept kept fun _ holds =>
    Or.inl ((at_inside rfl word.place_inside).holds holds)

/-- The sequence word makes a step. -/
theorem stepSeq_kept (kept : KeptOutside others g (Metadata cfg slot) before bytes)
    : (stepSeq g (computeLayout cfg) slot).Ensures (amid size others) Answered bytes
        fun _ later => KeptOutside others g (Metadata cfg slot) before later :=
  Ensures.bind (load_kept kept) fun _ _ loaded => storeSlot_kept loaded _ _

/-- Nothing has happened yet. -/
theorem KeptOutside.refl (part : Nat → Prop) : KeptOutside others g part bytes bytes :=
  fun _ _ _ _ => rfl

/-- What a `begin_write` that hands out a payload has done. -/
structure HandsOut (others : Nat → Nat → Prop) (g : Nat) (m begun : Impl) (payload : UInt64)
    (before after : Nat → Bytes)
    : Prop where
  config : begun.cfg = m.cfg
  there : begun.writeSlot < m.cfg.slotCount
  pending : begun.pending = some begun.writeSlot
  payload : payload = slotPayload (computeLayout m.cfg) begun.writeSlot
  kept : KeptOutside others g (Metadata m.cfg begun.writeSlot) before after

/-- `begin_write` changes nothing and keeps what was pending, or hands out a payload. -/
theorem beginWrite_amid {m : Impl} (bounded : m.cfg.Bounded) (width height : UInt32)
    : (beginWrite g m width height).Ensures (amid size others) Answered bytes
        fun begun later =>
          match begun.2 with
          | none =>
              KeptOutside others g (fun _ => False) bytes later
              ∧ begun.1.pending = m.pending
          | some payload => height ≠ 0 ∧ HandsOut others g m begun.1 payload bytes later := by
  refine Ensures.ite (fun _ => ⟨.refl _, rfl⟩) fun _ => ?_
  have clock
      : (gateClock m).Ensures (amid size others) Answered bytes fun _ later =>
          KeptOutside others g (fun _ => False) bytes later :=
    Ensures.ite (fun _ => .refl _) fun _ => nowNs_kept (.refl _)
  refine Ensures.bind clock fun now read untouched => ?_
  have slots : 0 < m.cfg.slotCount.toNat := Nat.lt_of_lt_of_le (by decide) bounded.slots.1
  have advanced : (m.writeSlot + 1) % m.cfg.slotCount < m.cfg.slotCount := by
    rw [UInt32.lt_iff_toNat_lt, UInt32.toNat_mod]
    exact Nat.mod_lt _ slots
  rcases m.admitWrite_cases width height now with same | same | ⟨⟨-, -, rows, -⟩, same⟩
  · rw [same]
    exact ⟨untouched, rfl⟩
  · rw [same]
    exact ⟨untouched, rfl⟩
  · rw [same]
    have kept
        : KeptOutside others g (Metadata m.cfg ((m.writeSlot + 1) % m.cfg.slotCount)) bytes read :=
      untouched.mono fun _ never => never.elim
    refine Ensures.bind (stepSeq_kept kept) fun _ _ kept => ?_
    refine Ensures.bind (storeSlot_kept kept _ _) fun _ _ kept => ?_
    refine Ensures.bind (storeSlot_kept kept _ _) fun _ _ kept => ?_
    refine Ensures.bind (storeSlot_kept kept _ _) fun _ _ kept => ?_
    refine Ensures.bind (storeSlot_kept kept _ _) fun _ _ kept => ?_
    exact ⟨rows, rfl, advanced, rfl, rfl, kept⟩

/-- What a `commit` has done that had something to publish. -/
structure Commits (others : Nat → Nat → Prop) (g : Nat) (m next : Impl)
    (before after : Nat → Bytes)
    : Prop where
  slot : next.writeSlot = m.writeSlot
  pending : next.pending = none
  kept : KeptOutside others g (Metadata m.cfg m.writeSlot) before after
  latest
    : (∀ offset, HeaderWord.latest.place.Holds offset → ¬ others g offset)
      → wordAt (after g) HeaderWord.latest.place = packLatest next.frameId m.writeSlot

/-- `commit` stores the header of the slot, `latest` and the heartbeat. -/
theorem commit_amid {m : Impl} (pending : m.pending = some m.writeSlot) (timestampNs : UInt64)
    : (commit g m timestampNs).Ensures (amid size others) Answered bytes fun next later =>
        Commits others g m next bytes later := by
  rw [commit, pending]
  refine Ensures.bind (storeSlot_kept (.refl _) _ _) fun _ _ kept => ?_
  have stamp {started : Nat → Bytes}
      (kept : KeptOutside others g (Metadata m.cfg m.writeSlot) bytes started)
      : (stampOf timestampNs).Ensures (amid size others) Answered started fun _ later =>
          KeptOutside others g (Metadata m.cfg m.writeSlot) bytes later :=
    Ensures.ite (fun _ => nowNs_kept kept) fun _ => kept
  refine Ensures.bind (stamp kept) fun _ _ kept => ?_
  refine Ensures.bind (storeSlot_kept kept _ _) fun _ _ kept => ?_
  refine Ensures.bind (stepSeq_kept kept) fun _ marked kept => ?_
  refine Ensures.bind (store_amid .header _ _) fun _ named stored => ?_
  have sofar := kept.trans (stored.kept fun _ holds => .inr (.inl holds))
  have since : KeptOutside others g HeaderWord.lastHeartbeatNs.place.Holds named named := .refl _
  refine Ensures.bind (nowNs_kept since) fun published read since => ?_
  refine Ensures.bind (store_kept since fun _ => id) fun _ last since => ?_
  have beats : KeptOutside others g (Metadata m.cfg m.writeSlot) named last :=
    since.mono fun _ holds => .inr (.inr holds)
  refine ⟨rfl, rfl, sofar.trans beats, fun alone => ?_⟩
  have apart : HeaderWord.latest.place.Apart HeaderWord.lastHeartbeatNs.place :=
    HeaderWord.place_apart nofun
  rw [since.word alone fun _ holds => apart.not_holds holds,
    wordAt_congr fun offset holds => stored.here (alone offset holds)]
  exact wordAt_storeAt _ rfl _

end FrameCalls

-----------------------------------------------------------------------------------------
-- What `publish` leaves behind
-----------------------------------------------------------------------------------------

/-- The size of a row of pixels. -/
def rowBytes (cfg : LLConfig) (width : UInt32) : Nat := width.toNat * cfg.bytesPerPixel.toNat

/-- The distance of two rows of the source; zero means that they are tightly packed. -/
def strideBytes (cfg : LLConfig) (width srcStride : UInt32) : Nat :=
  if srcStride = 0 then rowBytes cfg width else srcStride.toNat

/-- The bytes a frame of some size has in the payload of a slot. -/
def frameSpan (cfg : LLConfig) (slot width height : UInt32) : Span where
  first := (slotPayload (computeLayout cfg) slot).toNat
  size := height.toNat * rowBytes cfg width

/-- Of a frame in range the rows that are copied have their exact sizes and distances. -/
theorem rowCopies_exact {cfg : LLConfig} {width height srcStride : UInt32} {payload : UInt64}
    {src : Nat → UInt8} {buffer : Bytes} (small : cfg.exactBytes width height < 2 ^ 32)
    (some_ : height ≠ 0)
    : ((Calls.rowCopies cfg width height srcStride).map (stretchOf payload)).foldl
          (Stretch.copy src) buffer
      = (Stretch.rows payload.toNat (rowBytes cfg width) (strideBytes cfg width srcStride)
          height.toNat).foldl (Stretch.copy src) buffer := by
  have row : (Calls.dstStride cfg width).toNat = rowBytes cfg width :=
    Calls.dstStride_exact small some_
  have stride
      : (if srcStride = 0 then Calls.dstStride cfg width else srcStride).toNat
        = strideBytes cfg width srcStride := by
    unfold strideBytes
    split
    · exact row
    · rfl
  rw [rowCopies_rows, row, stride]

/-- A frame in range lies in the payload of its slot. -/
theorem frameSpan_inside {cfg : LLConfig} {slot width height : UInt32}
    (fits : cfg.exactBytes width height ≤ cfg.maxPayload.toNat)
    : (frameSpan cfg slot width height).Inside ((Area.slotPayload slot).span cfg) := by
  have whole : height.toNat * rowBytes cfg width ≤ cfg.maxPayload.toNat := by
    rw [rowBytes, ← Nat.mul_assoc, Nat.mul_comm height.toNat]
    exact fits
  exact ⟨le_rfl, Nat.add_le_add_left whole _⟩

/-- A frame has been published, from private state `m` to private state `next`: the slot that
`latest` names holds the rows of the source one after the other, and beyond these bytes only
the header of that slot, `latest` and the heartbeat have changed. All this is said of the
bytes nobody else stores to.
-/
structure Repacked (others : Nat → Nat → Prop) (g : Nat) (m next : Impl) (src : Nat → UInt8)
    (width height srcStride : UInt32) (before after : Nat → Bytes)
    : Prop where
  there : next.writeSlot < m.cfg.slotCount
  pending : next.pending = none
  latest
    : (∀ offset, HeaderWord.latest.place.Holds offset → ¬ others g offset)
      → wordAt (after g) HeaderWord.latest.place = packLatest next.frameId next.writeSlot
  rows
    : ∀ y < height.toNat,
        ∀ x < rowBytes m.cfg width,
          let offset :=
            (slotPayload (computeLayout m.cfg) next.writeSlot).toNat
            + (y * rowBytes m.cfg width + x)
          ¬ others g offset → after g offset = src (y * strideBytes m.cfg width srcStride + x)
  kept
    : KeptOutside others g
        (fun offset =>
          Metadata m.cfg next.writeSlot offset
          ∨ (frameSpan m.cfg next.writeSlot width height).Holds offset)
        before after

/-- The copies into the payload that was handed out fill the rows, and change nothing else. -/
theorem Repacked.of_calls {others : Nat → Nat → Prop} {g : Nat} {m begun next : Impl}
    {src : Nat → UInt8} {width height srcStride : UInt32} {payload : UInt64}
    {before marked filled after : Nat → Bytes} (accepted : m.cfg.accepted = true)
    (fits : m.cfg.exactBytes width height ≤ m.cfg.maxPayload.toNat) (some_ : height ≠ 0)
    (began : HandsOut others g m begun payload before marked)
    (copied
      : Leaves others g
          (((Calls.rowCopies m.cfg width height srcStride).map (stretchOf payload)).foldl
            (Stretch.copy src) (marked g))
          marked filled)
    (committed : Commits others g begun next filled after)
    : Repacked others g m next src width height srcStride before after := by
  have bounds := m.cfg.accepted_frameBounds accepted
  have bounded := LLConfig.accepted_bounded accepted
  have small : m.cfg.exactBytes width height < 2 ^ 32 := by
    have payload := bounds.small
    omega
  rw [rowCopies_exact small some_] at copied
  have below : begun.writeSlot < m.cfg.slotCount := began.there
  have slot := committed.slot
  have kept := committed.kept
  have start : payload.toNat = (slotPayload (computeLayout m.cfg) begun.writeSlot).toNat :=
    congrArg UInt64.toNat began.payload
  rw [began.config] at kept
  have apart {offset : Nat}
      (holds : (frameSpan m.cfg begun.writeSlot width height).Holds offset)
      : ¬ Metadata m.cfg begun.writeSlot offset :=
    payload_metadata bounded below ((frameSpan_inside fits).holds holds)
  refine ⟨by rwa [slot], committed.pending, ?_, ?_, ?_⟩
  · rw [slot]
    exact committed.latest
  · rw [slot]
    intro y inFrame x inRow offset alone
    have ends : (y + 1) * rowBytes m.cfg width ≤ height.toNat * rowBytes m.cfg width :=
      Nat.mul_le_mul_right _ inFrame
    rw [Nat.succ_mul] at ends
    have holds : (frameSpan m.cfg begun.writeSlot width height).Holds offset := by
      refine ⟨Nat.le_add_right _ _, ?_⟩
      simp only [Span.last, frameSpan]
      omega
    have here : offset = payload.toNat + (y * rowBytes m.cfg width + x) := by rw [start]
    rw [kept g offset alone fun _ => apart holds, copied.here alone, here]
    exact Stretch.copy_rows_at inRow inFrame
  · rw [slot]
    intro other offset alone outside
    rw [kept other offset alone fun same marks => outside same (.inl marks),
      copied other offset alone]
    by_cases same : other = g
    · subst same
      have free : ¬ (frameSpan m.cfg begun.writeSlot width height).Holds offset :=
        fun holds => outside rfl (.inr holds)
      simp only [Span.Holds, Span.last, frameSpan, ← start] at free
      rw [assign_same, Stretch.copy_rows_outside (by omega)]
      exact began.kept other offset alone fun _ marks => outside rfl (.inl marks)
    · rw [assign_apart _ _ same]
      exact began.kept other offset alone fun never => absurd never same

/-- For every publisher of an accepted configuration, every source and stride, and whatever
others store elsewhere in the meantime: if `publish` returns true and the exact size of the
frame fits, the rows of the source have been repacked into the slot that was committed, and
nothing else but that slot's header, `latest` and the heartbeat has changed. If it returns
false, no byte has changed, and what was pending is pending. The two ways to copy agree where
the source is tightly packed.
-/
theorem publish_repacks {m : Impl} (accepted : m.cfg.accepted = true) (size : Nat → UInt64)
    (others : Nat → Nat → Prop) (g : Nat) (bytes : Nat → Bytes)
    (src : Option (Nat → UInt8)) (width height srcStride : UInt32)
    : ((publish g m src width height srcStride).Ensures (amid size others) Answered bytes
        fun outcome after =>
          match outcome.2 with
          | true =>
              m.cfg.exactBytes width height ≤ m.cfg.maxPayload.toNat
              → ∃ source,
                  src = some source
                  ∧ Repacked others g m outcome.1 source width height srcStride bytes after
          | false =>
              KeptOutside others g (fun _ => False) bytes after
              ∧ outcome.1.pending = m.pending)
      ∧ ∀ (payload : UInt64) (source : Nat → UInt8) (buffer : Bytes),
          ((rowByRow m.cfg width height (Calls.dstStride m.cfg width)).map
                (stretchOf payload)).foldl (Stretch.copy source) buffer
          = [stretchOf payload (singleCopy m.cfg width height)].foldl (Stretch.copy source)
              buffer := by
  have bounded := LLConfig.accepted_bounded accepted
  refine ⟨?_, fun _ _ _ => paths_agree⟩
  cases src with
  | none => exact ⟨.refl _, rfl⟩
  | some source =>
      refine Ensures.bind (beginWrite_amid bounded width height) fun begun marked known => ?_
      obtain ⟨begun, returned⟩ := begun
      cases returned with
      | none => exact known
      | some payload =>
          obtain ⟨rows, began⟩ := known
          refine Ensures.bind (copyRows_amid _ _ _ _) fun _ filled copied => ?_
          refine Ensures.bind (commit_amid began.pending 0) fun next after committed => ?_
          intro fits
          exact ⟨source, rfl, .of_calls accepted fits rows began copied committed⟩

/-- The answers when nobody else stores anything and the clock stands still. -/
def undisturbed (size : Nat → UInt64) (reply : Reply) (bytes : Nat → Bytes) (effect : Effect)
    : Option (effect.Answer × (Nat → Bytes)) :=
  (effect.answer size bytes reply).map fun answer => (answer, effect.apply bytes)

/-- They may be given. -/
theorem undisturbed_amid {size : Nat → UInt64} {reply : Reply} (bytes : Nat → Bytes)
    (effect : Effect) (answer : effect.Answer) (later : Nat → Bytes)
    (answered : undisturbed size reply bytes effect = some (answer, later))
    : amid size (fun _ _ => False) bytes effect answer later := by
  obtain ⟨given, known, same⟩ := Option.map_eq_some_iff.mp answered
  obtain ⟨rfl, rfl⟩ := Prod.mk.inj same
  exact ⟨⟨reply, known⟩, fun _ _ _ => rfl⟩

/-- Two rows of two pixels that are twelve bytes apart are published in a segment of zeros: the
call returns true, and the second byte of the second row, which has index 13 in the source, has
index 9 in the payload.
-/
theorem publish_repacks_strided
    : ∃ outcome after,
        (publish 0 { cfg := {} } (some UInt8.ofNat) 2 2 12).Returns
          (amid (fun _ => 0) fun _ _ => False) (fun _ _ => 0) outcome after
        ∧ outcome.2 = true
        ∧ after 0 ((slotPayload (computeLayout {}) outcome.1.writeSlot).toNat + (1 * 8 + 1)) = 13
        ∧ wordAt (after 0) HeaderWord.latest.place
          = packLatest outcome.1.frameId outcome.1.writeSlot := by
  have passes
      : ((publish 0 { cfg := {} } (some UInt8.ofNat) 2 2 12).play
            (undisturbed (fun _ => 0) { nowNs := 1000 }) fun _ _ => 0).any
          (fun result => result.1.2) = true := by
    decide +kernel
  obtain ⟨⟨outcome, after⟩, played, returned⟩ := (Option.any_eq_true _ _).mp passes
  have returns := returns_of_play undisturbed_amid played
  have repacks :=
    publish_repacks (m := { cfg := {} }) (by decide +kernel) (fun _ => 0) (fun _ _ => False) 0
      (fun _ _ => 0) (some UInt8.ofNat) 2 2 12
  have known := repacks.1.returned returns
  dsimp only at returned
  rw [returned] at known
  obtain ⟨source, same, repacked⟩ := known (by decide +kernel)
  obtain rfl := Option.some.inj same
  exact ⟨outcome, after, returns, returned, repacked.rows 1 (by decide) 1 (by decide) id,
    repacked.latest fun _ _ => id⟩

end ShmFrame.Accesses
