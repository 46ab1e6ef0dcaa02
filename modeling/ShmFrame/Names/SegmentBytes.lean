import ShmFrame.Names.SystemCalls

/-! What `segment_bytes` says about a configuration before anything is created, and what
`create` makes of the same configuration.
-/

namespace ShmFrame.Names

/-- `segment_bytes`: the size of a segment, 0 if the configuration is invalid. -/
def segmentBytes (cfg : LLConfig) : UInt64 :=
  if !configValid cfg then 0 else (computeLayout cfg).totalSize

/-- The answer 0 means that `create` fails with `InvalidConfig`, and any other answer is the
size of the segment that `create` makes.
-/
structure SizesAgree (t : NameTable) (cfg : LLConfig) (call : CreateCall) : Prop where
  invalid
    : segmentBytes cfg = 0 ↔ (createPublisher t cfg call).2 = .error .invalidConfig
  size
    : ∀ object,
        (createPublisher t cfg call).2 = .ok object
        → ((createPublisher t cfg call).1.objects object).size = segmentBytes cfg
          ∧ ((createPublisher t cfg call).1.objects object).header.totalSize
            = segmentBytes cfg

/-- The segment of a valid configuration has at least its header. -/
theorem totalSize_ne_zero {cfg : LLConfig} (valid : configValid cfg = true)
    : (computeLayout cfg).totalSize ≠ 0 := by
  intro zero
  have layout := computeLayout_exact (configValid_bounded valid)
  have total := layout.totalSize
  have upstream := layout.upstreamOffset
  have downstream := layout.downstreamOffset
  have none_ : (computeLayout cfg).totalSize.toNat = 0 := congrArg UInt64.toNat zero
  omega

/-- `segment_bytes` is 0 for invalid configurations only. -/
theorem segmentBytes_eq_zero_iff (cfg : LLConfig)
    : segmentBytes cfg = 0 ↔ configValid cfg = false := by
  unfold segmentBytes
  cases valid : configValid cfg with
  | false => simp
  | true => simpa using totalSize_ne_zero valid

/-- A valid configuration is accepted if its segment is not too large. -/
theorem accepted_iff (cfg : LLConfig)
    : cfg.accepted = true
      ↔ configValid cfg = true ∧ (computeLayout cfg).totalSize ≤ kMaxSegment := by
  rw [LLConfig.accepted, Bool.and_eq_true]
  refine and_congr_right fun valid => ?_
  have positive := totalSize_ne_zero valid
  simp [positive]

/-- A number of bytes in whole cache lines, in unbounded arithmetic. -/
def wholeLines (bytes : Nat) : Nat := (bytes + 63) / 64 * 64

/-- The exact size of a segment, in unbounded arithmetic: the header, the slots and two rings of
command cells.
-/
def exactTotal (cfg : LLConfig) : Nat :=
  448
  + cfg.slotCount.toNat
    * wholeLines (64 + cfg.maxWidth.toNat * cfg.maxHeight.toNat * cfg.bytesPerPixel.toNat)
  + 2 * wholeLines (128 + cfg.commandSlots.toNat * wholeLines (32 + cfg.maxCommandBytes.toNat))

/-- The size the source computes for a valid configuration is exact. -/
theorem totalSize_exact {cfg : LLConfig} (valid : configValid cfg = true)
    : (computeLayout cfg).totalSize.toNat = exactTotal cfg := by
  have bounded := configValid_bounded valid
  have layout := computeLayout_exact bounded
  have payload := bounded.maxPayload_exact
  rw [layout.totalSize, layout.upstreamOffset, layout.downstreamOffset, layout.ringStride,
    layout.cmdStride, layout.slotStride, payload]
  simp only [exactTotal, wholeLines, LLConfig.exactBytes]
  omega

/-- So `create` accepts a valid configuration if it comes to two gigabytes at most. -/
theorem totalSize_le_iff {cfg : LLConfig} (valid : configValid cfg = true)
    : (computeLayout cfg).totalSize ≤ kMaxSegment ↔ exactTotal cfg ≤ 2 ^ 31 := by
  rw [UInt64.le_iff_toNat_le, totalSize_exact valid]
  exact Iff.rfl

/-- What follows the checks of the configuration fails for other reasons. -/
theorem finishCreate_ne_invalidConfig (cfg : LLConfig) (call : CreateCall)
    (attempt : NameTable × Option Nat × Bool)
    : (finishCreate cfg call attempt).2 ≠ .error .invalidConfig := by
  obtain ⟨t, segment, exists_⟩ := attempt
  cases segment with
  | none => cases exists_ <;> simp [finishCreate]
  | some segment => simp [finishCreate]

/-- `create` reports an invalid configuration exactly if it does not accept it. -/
theorem createPublisher_invalidConfig_iff (t : NameTable) (cfg : LLConfig) (call : CreateCall)
    : (createPublisher t cfg call).2 = .error .invalidConfig ↔ cfg.accepted = false := by
  unfold createPublisher
  split
  · rename_i rejected
    simpa using rejected
  rename_i accepted
  refine iff_of_false ?_ (by simpa using accepted)
  dsimp only
  split
  · split
    · simp
    · exact finishCreate_ne_invalidConfig _ _ _
  · exact finishCreate_ne_invalidConfig _ _ _

/-- The segment of a new publisher has the size of the layout. -/
theorem createPublisher_size {t : NameTable} {cfg : LLConfig} {call : CreateCall} {object : Nat}
    (created : (createPublisher t cfg call).2 = .ok object)
    : ((createPublisher t cfg call).1.objects object).size = (computeLayout cfg).totalSize
      ∧ ((createPublisher t cfg call).1.objects object).header.totalSize
        = (computeLayout cfg).totalSize := by
  have outcome := createPublisher_cases t cfg call
  generalize createPublisher t cfg call = result at outcome created
  cases outcome with
  | invalid | refused | broken | spared | stuck | removed | rebroken => cases created
  | created _ _ _ installs | recreated _ _ _ _ _ _ _ installs =>
      cases created
      have written := installs.object
      exact ⟨congrArg (·.size) written, congrArg (·.header.totalSize) written⟩

/-- For every configuration: `segment_bytes` and every call of `create` agree, whatever the
names are bound to and the system answers, if and only if the configuration is invalid or its
fields come to a segment of two gigabytes at most.
-/
theorem segmentBytes_agrees_iff (cfg : LLConfig)
    : (∀ t call, SizesAgree t cfg call)
      ↔ configValid cfg = false ∨ exactTotal cfg ≤ 2 ^ 31 := by
  have capped (valid : configValid cfg = true) := totalSize_le_iff valid
  have invalid (t : NameTable) (call : CreateCall)
      : (segmentBytes cfg = 0 ↔ (createPublisher t cfg call).2 = .error .invalidConfig)
        ↔ (configValid cfg = false ∨ exactTotal cfg ≤ 2 ^ 31) := by
    rw [createPublisher_invalidConfig_iff, segmentBytes_eq_zero_iff, ← Bool.not_eq_true,
      ← Bool.not_eq_true, accepted_iff]
    tauto
  constructor
  · intro agree
    exact (invalid {} {}).mp (agree {} {}).invalid
  · intro condition t call
    refine ⟨(invalid t call).mpr condition, fun object created => ?_⟩
    have accepted : configValid cfg = true := by
      by_contra rejected
      have reported : (createPublisher t cfg call).2 = .error .invalidConfig := by
        refine ((invalid t call).mpr condition).mp ((segmentBytes_eq_zero_iff cfg).mpr ?_)
        rwa [Bool.not_eq_true] at rejected
      rw [created] at reported
      cases reported
    have answer : segmentBytes cfg = (computeLayout cfg).totalSize := by
      simp [segmentBytes, accepted]
    rw [answer]
    exact createPublisher_size created

/-- The largest frames there may be: `segment_bytes` gives the size of a segment of twelve
gigabytes, and `create` refuses the configuration.
-/
theorem segmentBytes_oversized
    : let cfg : LLConfig := { maxWidth := 32768, maxHeight := 32768 }
      segmentBytes cfg = 12884976512
      ∧ (createPublisher {} cfg {}).2 = .error .invalidConfig
      ∧ ¬ SizesAgree {} cfg {} := by
  have size : segmentBytes { maxWidth := 32768, maxHeight := 32768 } = 12884976512 := by
    decide +kernel
  have refused
      : (createPublisher {} { maxWidth := 32768, maxHeight := 32768 } {}).2
        = .error .invalidConfig :=
    (createPublisher_invalidConfig_iff _ _ _).mpr (by decide +kernel)
  refine ⟨size, refused, fun agree => ?_⟩
  have zero := agree.invalid.mpr refused
  rw [size] at zero
  cases zero

end ShmFrame.Names
