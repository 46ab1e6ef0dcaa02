import ShmFrame.Segment.Config

/-! The header of a segment: what `LLPublisher::create` writes into it and what
`validate_header` demands of it.
-/

namespace ShmFrame

/-- The header words: the configuration and the offsets derived from it, echoed so that the
peer needs no compile-time match, and the words both endpoints keep changing.
-/
structure LLHeader where
  magic : UInt32 := 0
  version : UInt32 := 0
  sessionId : UInt64 := 0
  totalSize : UInt64 := 0
  maxWidth : UInt32 := 0
  maxHeight : UInt32 := 0
  bytesPerPixel : UInt32 := 0
  slotCount : UInt32 := 0
  commandSlots : UInt32 := 0
  maxCommandBytes : UInt32 := 0
  slotsOffset : UInt64 := 0
  slotStride : UInt64 := 0
  downstreamOffset : UInt64 := 0
  upstreamOffset : UInt64 := 0
  ringStride : UInt64 := 0
  cmdStride : UInt64 := 0
  latest : UInt64 := 0
  shutdown : UInt32 := 0
  lastHeartbeatNs : UInt64 := 0
  commandOwnerGen : UInt64 := 0
  commandOwnerHeartbeatNs : UInt64 := 0
deriving DecidableEq

/-- The value-initialised header with everything `create` stores before the magic. -/
def LLHeader.initialise (cfg : LLConfig) (session now : UInt64) : LLHeader :=
  let l := computeLayout cfg
  {
    version := kVersion
    sessionId := session
    totalSize := l.totalSize
    maxWidth := cfg.maxWidth
    maxHeight := cfg.maxHeight
    bytesPerPixel := cfg.bytesPerPixel
    slotCount := cfg.slotCount
    commandSlots := cfg.commandSlots
    maxCommandBytes := cfg.maxCommandBytes
    slotsOffset := l.slotsOffset
    slotStride := l.slotStride
    downstreamOffset := l.downstreamOffset
    upstreamOffset := l.upstreamOffset
    ringStride := l.ringStride
    cmdStride := l.cmdStride
    lastHeartbeatNs := now
  }

/-- The configuration a header echoes, under a placeholder name. -/
def LLHeader.config (h : LLHeader) : LLConfig where
  name := "x".toUTF8.toList
  maxWidth := h.maxWidth
  maxHeight := h.maxHeight
  bytesPerPixel := h.bytesPerPixel
  slotCount := h.slotCount
  commandSlots := h.commandSlots
  maxCommandBytes := h.maxCommandBytes

/-- Re-derives the layout from the echoed configuration and compares it with the stored
offsets; none where the source returns a null pointer.
-/
def validateHeader (size : UInt64) (h : LLHeader) : Option LLLayout :=
  if size < sizeofLLHeader then none
  else if h.magic ≠ kMagic then none
  else if h.version ≠ kVersion then none
  else if !configValid h.config then none
  else
    let cl := computeLayout h.config
    if cl.slotsOffset ≠ h.slotsOffset || cl.slotStride ≠ h.slotStride
        || cl.downstreamOffset ≠ h.downstreamOffset || cl.upstreamOffset ≠ h.upstreamOffset
        || cl.ringStride ≠ h.ringStride || cl.cmdStride ≠ h.cmdStride
        || cl.totalSize ≠ h.totalSize then none
    else if size < cl.totalSize then none
    else some cl

/-- Validation depends on the name only through its length. -/
theorem configValid_rename {cfg : LLConfig} (valid : configValid cfg = true)
    {name : Name} (named : name ≠ [] ∧ name.length ≤ 200) (stale : UInt32)
    : configValid { cfg with name, staleProducerMs := stale } = true := by
  have fits : ¬ (name.isEmpty || name.length > 200) = true := by
    simpa using named
  unfold configValid at valid ⊢
  split at valid
  · cases valid
  · rw [if_neg fits]
    exact valid

/-- The part of a header that nobody changes once `create` has returned is that of a
freshly initialised one.
-/
def LLHeader.Describes (h : LLHeader) (cfg : LLConfig) : Prop :=
  ∃ session,
    h = {
      LLHeader.initialise cfg session h.lastHeartbeatNs with
      magic := kMagic
      latest := h.latest
      shutdown := h.shutdown
      commandOwnerGen := h.commandOwnerGen
      commandOwnerHeartbeatNs := h.commandOwnerHeartbeatNs
    }

/-- A new heartbeat leaves the description alone. -/
theorem LLHeader.Describes.beat {h : LLHeader} {cfg : LLConfig} (describes : h.Describes cfg)
    (now : UInt64)
    : { h with lastHeartbeatNs := now }.Describes cfg := by
  obtain ⟨session, written⟩ := describes
  refine ⟨session, ?_⟩
  rw [written]
  rfl

/-- Such a header passes validation in every mapping the layout fits in. -/
theorem LLHeader.Describes.validates_in {h : LLHeader} {cfg : LLConfig} {size : UInt64}
    (describes : h.Describes cfg) (accepted : cfg.accepted = true)
    (fits : (computeLayout cfg).totalSize ≤ size)
    : validateHeader size h = some (computeLayout cfg) := by
  have large : ¬ size < sizeofLLHeader :=
    UInt64.not_lt.mpr (UInt64.le_trans (LLConfig.accepted_bounded accepted).header_fits fits)
  have named : "x".toUTF8.toList ≠ [] ∧ "x".toUTF8.toList.length ≤ 200 := by decide +kernel
  have valid := configValid_rename (LLConfig.accepted_valid accepted) named 2000
  obtain ⟨session, written⟩ := describes
  have config : h.config = { cfg with name := "x".toUTF8.toList, staleProducerMs := 2000 } := by
    rw [written]
    rfl
  have same : computeLayout h.config = computeLayout cfg := by
    rw [config]
    rfl
  unfold validateHeader
  rw [same, config, valid, written]
  simp [large, fits, LLHeader.initialise]

/-- Such a header passes validation in a segment of the computed size. -/
theorem LLHeader.Describes.validates {h : LLHeader} {cfg : LLConfig}
    (describes : h.Describes cfg) (accepted : cfg.accepted = true)
    : validateHeader (computeLayout cfg).totalSize h = some (computeLayout cfg) :=
  describes.validates_in accepted (UInt64.le_refl _)

/-- The offsets a header stores are those of a layout. -/
structure LLHeader.Stores (h : LLHeader) (l : LLLayout) : Prop where
  slotsOffset : h.slotsOffset = l.slotsOffset
  slotStride : h.slotStride = l.slotStride
  downstreamOffset : h.downstreamOffset = l.downstreamOffset
  upstreamOffset : h.upstreamOffset = l.upstreamOffset
  ringStride : h.ringStride = l.ringStride
  cmdStride : h.cmdStride = l.cmdStride
  totalSize : h.totalSize = l.totalSize

/-- What validation accepts is announced as complete, echoes a valid configuration, stores
the offsets of its layout, and fits in the mapping.
-/
theorem validateHeader_sound {size : UInt64} {h : LLHeader} {cl : LLLayout}
    (validated : validateHeader size h = some cl)
    : h.magic = kMagic
      ∧ configValid h.config = true
      ∧ cl = computeLayout h.config
      ∧ h.Stores (computeLayout h.config)
      ∧ (computeLayout h.config).totalSize ≤ size := by
  unfold validateHeader at validated
  split at validated
  · cases validated
  split at validated
  · cases validated
  rename_i magic
  split at validated
  · cases validated
  split at validated
  · cases validated
  rename_i valid
  dsimp only at validated
  split at validated
  · cases validated
  rename_i same
  split at validated
  · cases validated
  rename_i fits
  cases validated
  simp only [Bool.or_eq_true, decide_eq_true_eq, not_or, ne_eq, not_not] at same
  obtain ⟨⟨⟨⟨⟨⟨slots, stride⟩, down⟩, up⟩, ring⟩, cmd⟩, total⟩ := same
  exact ⟨by simpa using magic, by simpa using valid, rfl,
    ⟨slots.symm, stride.symm, down.symm, up.symm, ring.symm, cmd.symm, total.symm⟩,
    UInt64.not_lt.mp fits⟩

end ShmFrame
