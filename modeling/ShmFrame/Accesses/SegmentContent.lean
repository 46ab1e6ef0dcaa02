import ShmFrame.Accesses.Confined

/-! An endpoint against arbitrary contents of its segments, which may be other ones at every
single access. Only the configuration in the headers keeps its value.
-/

namespace ShmFrame.Accesses

open ShmFrame.Foundation ShmFrame.Foundation.Program LLSubscriber

-----------------------------------------------------------------------------------------
-- Contents
-----------------------------------------------------------------------------------------

/-- The answers to questions that do not concern a segment. -/
structure Reply where
  nowNs : UInt64 := 0
  opens : Option Nat := none
  spurious : Bool := false
  clockFirst : Bool := true
  patience : Nat := 0

/-- The answer to an effect, from the bytes of all segments and their sizes; none if there is
nothing more to come.
-/
def Effect.answer (size : Nat → UInt64) (bytes : Nat → Bytes) (reply : Reply)
    : (effect : Effect) → Option effect.Answer
  | .load g _ span => some (wordAt (bytes g) span)
  | .exchange g _ span _ _ => some (wordAt (bytes g) span)
  | .store .. => some ()
  | .copyOut g _ offset _ => some (bytes g offset)
  | .ask .nowNs => some reply.nowNs
  | .ask .opens => some reply.opens
  | .ask (.sizeOf g) => some (size g)
  | .ask .spurious => some reply.spurious
  | .ask .clockFirst => some reply.clockFirst
  | .ask .patience => some reply.patience
  | .stall => none

/-- What an endpoint comes across at one access. -/
structure Moment where
  bytes : Nat → Bytes
  reply : Reply := {}

/-- The environment of an endpoint whose accesses meet one moment after the other. -/
def showing (size : Nat → UInt64) (contents : Nat → Moment)
    : Environment Effect Effect.Answer Nat :=
  answering (fun time => Effect.answer size (contents time).bytes (contents time).reply)
    (· + 1)

/-- The configuration that some bytes echo. -/
def configAt (bytes : Bytes) : LLConfig where
  maxWidth := (wordAt bytes HeaderWord.maxWidth.place).toUInt32
  maxHeight := (wordAt bytes HeaderWord.maxHeight.place).toUInt32
  bytesPerPixel := (wordAt bytes HeaderWord.bytesPerPixel.place).toUInt32
  slotCount := (wordAt bytes HeaderWord.slotCount.place).toUInt32
  commandSlots := (wordAt bytes HeaderWord.commandSlots.place).toUInt32
  maxCommandBytes := (wordAt bytes HeaderWord.maxCommandBytes.place).toUInt32

/-- The configuration in every header is always the same. -/
def Settled (contents : Nat → Moment) : Prop :=
  ∀ time g, configAt ((contents time).bytes g) = configAt ((contents 0).bytes g)

/-- What is then known. -/
def knowledge (size : Nat → UInt64) (contents : Nat → Moment) : Knowledge where
  trusted := fun _ => True
  config := fun g => configAt ((contents 0).bytes g)
  size := size

/-- Some bytes say a number below the respective power. -/
theorem littleEndian_lt (bytes : List UInt8) : littleEndian bytes < 256 ^ bytes.length := by
  induction bytes with
  | nil => exact Nat.one_pos
  | cons byte rest ih =>
      have small := byte.toNat_lt
      have power : 256 ^ (rest.length + 1) = 256 * 256 ^ rest.length := Nat.pow_succ'
      rw [littleEndian, List.length_cons, power]
      omega

/-- A word of four bytes has 32 bits. -/
theorem wordAt_toUInt32 (bytes : Bytes) {span : Span} (four : span.size = 4)
    : (wordAt bytes span).toUInt32.toUInt64 = wordAt bytes span := by
  have small := littleEndian_lt ((List.range span.size).map fun index => bytes (span.first + index))
  rw [List.length_map, List.length_range, four] at small
  refine UInt64.toNat_inj.mp ?_
  rw [UInt32.toNat_toUInt64, UInt64.toNat_toUInt32, wordAt, UInt64.toNat_ofNat', four]
  omega

/-- Settled contents do not contradict what is known. -/
theorem showing_consistent {size : Nat → UInt64} {contents : Nat → Moment}
    (settled : Settled contents) {time later : Nat} {effect : Effect} {answer : effect.Answer}
    (shown : showing size contents time effect answer later)
    : (knowledge size contents).Consistent effect answer := by
  obtain ⟨given, -⟩ := shown
  cases effect with
  | load g area span =>
      obtain rfl := Option.some.inj given
      rintro - word value known rfl
      have same := settled time g
      cases word <;> try cases known
      all_goals
        refine (wordAt_toUInt32 _ rfl).symm.trans (congrArg UInt32.toUInt64 ?_)
      · exact congrArg LLConfig.maxWidth same
      · exact congrArg LLConfig.maxHeight same
      · exact congrArg LLConfig.bytesPerPixel same
      · exact congrArg LLConfig.slotCount same
      · exact congrArg LLConfig.commandSlots same
      · exact congrArg LLConfig.maxCommandBytes same
  | ask question =>
      cases question with
      | sizeOf g =>
          obtain rfl := Option.some.inj given
          exact fun _ => rfl
      | nowNs | opens | spurious | clockFirst | patience => trivial
  | store | exchange | copyOut | stall => trivial

section Settled

variable {size : Nat → UInt64} {contents : Nat → Moment}

/-- What a call ensures for all that is known, it ensures for settled contents. -/
theorem ensures_shown (settled : Settled contents) {Value : Type} {program : Access Value}
    {allowed : Effect → Prop} {required : Value → Prop}
    (ensures
      : program.Ensures (knowledge size contents).environment allowed () fun value _ =>
          required value)
    (time : Nat)
    : program.Ensures (showing size contents) allowed time fun value _ => required value := by
  exact Ensures.within (fun _ => ()) (fun _ _ _ _ shown => showing_consistent settled shown)
    ensures

variable {limit : Nat → Nat} {time g : Nat} {allowed : Effect → Prop}

/-- A load returns the word that is there at that moment. -/
theorem shown_load {area : Area} {span : Span} (fine : allowed (.load g area span))
    {required : UInt64 → Nat → Prop}
    : (access (.load g area span)).Ensures (showing size contents) allowed time required
      ↔ required (wordAt ((contents time).bytes g) span) (time + 1) :=
  (ensures_answered rfl).trans (and_iff_right fine)

/-- Copying bytes out is allowed exactly if every single byte is, by induction on their
number.
-/
theorem shown_copyOut {area : Area} {first : UInt64} {count : Nat} {holds : Prop}
    : (copyOut g area first count).Ensures (showing size contents) allowed time
        (fun _ _ => holds)
      ↔ (∀ index < count, allowed (.copyOut g area (first.toNat + index) index)) ∧ holds := by
  induction count generalizing holds with
  | zero =>
      refine Iff.trans Iff.rfl (and_iff_right ?_).symm
      intro index below
      exact absurd below (Nat.not_lt_zero index)
  | succ count ih =>
      have last (front : List UInt8) (later : Nat)
          : (do
              let byte ← copyByte g area (first.toNat + count) count
              return front ++ [byte] : Access (List UInt8)).Ensures (showing size contents) allowed
                later (fun _ _ => holds)
            ↔ allowed (.copyOut g area (first.toNat + count) count) ∧ holds :=
        ensures_bind.trans (ensures_answered rfl)
      rw [copyOut, ensures_bind]
      simp only [last]
      rw [ih, ← and_assoc]
      refine and_congr_left fun _ => ?_
      constructor
      · rintro ⟨before, here⟩ index below
        rcases Nat.lt_succ_iff_lt_or_eq.mp below with earlier | rfl
        · exact before index earlier
        · exact here
      · intro all
        exact ⟨fun index below => all index (Nat.lt_succ_of_lt below),
          all count (Nat.lt_succ_self count)⟩

/-- The words of the ring and of the cell that a `pop` at some moment comes across. -/
def RingHandle.wordShown (h : RingHandle) (contents : Nat → Moment) (g time : Nat)
    (word : RingWord)
    : UInt64 :=
  wordAt ((contents time).bytes g) (at_ (ringAt h.ring.offset) word.place)

def RingHandle.sizeShown (h : RingHandle) (contents : Nat → Moment) (g time : Nat)
    (tail : UInt64)
    : UInt32 :=
  (wordAt ((contents time).bytes g) (at_ (h.cell tail) CmdWord.size.place)).toUInt32

/-- The size of the command that `pop` finds, if it finds one, does not grow beyond the
maximum between the two moments it is looked at: the seventh access and the eighth one.
-/
def RingHandle.SizeHolds (h : RingHandle) (contents : Nat → Moment) (g time : Nat) : Prop :=
  let tail := h.wordShown contents g time .tail
  tail ≠ h.wordShown contents g (time + 1) .head
  → h.sizeShown contents g (time + 6) tail ≤ h.ring.maxBytes
  → h.sizeShown contents g (time + 7) tail ≤ h.ring.maxBytes

instance (h : RingHandle) (contents : Nat → Moment) (g time : Nat)
    : Decidable (h.SizeHolds contents g time) :=
  inferInstanceAs (Decidable (_ → _ → _))

/-- The bytes that a command may have. -/
def Knowledge.commandBytes (k : Knowledge) (g : Nat) : Nat := (k.config g).maxCommandBytes.toNat

/-- What `pop` copies is proper exactly up to the maximal size of a command. -/
theorem copies_proper_iff {h : RingHandle} (leads : h.Leads (knowledge size contents) g)
    (tail : UInt64) (n : UInt32)
    : (∀ index < n.toNat,
        Proper (knowledge size contents) (knowledge size contents).commandBytes
          (.copyOut g (h.area tail) ((cmdPayload (h.cell tail)).toNat + index) index))
      ↔ n ≤ h.ring.maxBytes := by
  rw [UInt32.le_iff_toNat_le, leads.maxBytes trivial]
  constructor
  · intro proper
    by_contra large
    have beyond := (proper ((knowledge size contents).config g).maxCommandBytes.toNat
      (Nat.not_le.mp large)).copied g _ _ _ rfl trivial
    exact Nat.lt_irrefl _ beyond
  · intro small index below
    exact {
      place := fun _ _ _ written => by cases written
      within := fun _ _ _ target trusted => by
        cases target
        exact leads.payload tail trusted (below.trans_le small)
      copied := fun _ _ _ _ copies _ => by
        cases copies
        exact below.trans_le small
    }

/-- The rest of `pop` after it has settled on a size. -/
theorem popRest_iff {h : RingHandle} (leads : h.Leads (knowledge size contents) g)
    (tail : UInt64) (n : UInt32) (command : List UInt8 → Commands.LLShmCommand)
    : (do
        let data ← copyOut g (h.area tail) (cmdPayload (h.cell tail)) n.toNat
        h.store g .tail (tail + 1)
        return some (command data) : Access (Option Commands.LLShmCommand)).Ensures
          (showing size contents)
          (Proper (knowledge size contents) (knowledge size contents).commandBytes) time
          (fun _ _ => True)
      ↔ n ≤ h.ring.maxBytes := by
  have stores (data : List UInt8) (later : Nat)
      : (do
          h.store g .tail (tail + 1)
          return some (command data) : Access (Option Commands.LLShmCommand)).Ensures
            (showing size contents)
            (Proper (knowledge size contents) (knowledge size contents).commandBytes) later
            (fun _ _ => True)
        ↔ True :=
    iff_true_intro
      ⟨.store trivial (leads.header .tail), fun _ _ _ => trivial⟩
  rw [ensures_bind]
  simp only [stores]
  rw [shown_copyOut, and_true]
  exact copies_proper_iff leads tail n

/-- A word of the ring header is what is shown there. -/
theorem RingHandle.shown_load {h : RingHandle} (leads : h.Leads (knowledge size contents) g)
    (word : RingWord) {required : UInt64 → Nat → Prop}
    : (h.load g word).Ensures (showing size contents) (Proper (knowledge size contents) limit)
        time required
      ↔ required (h.wordShown contents g time word) (time + 1) :=
  Accesses.shown_load (.load (leads.header word))

/-- So is a word of a cell. -/
theorem RingHandle.shown_cmd {h : RingHandle} (leads : h.Leads (knowledge size contents) g)
    (tail : UInt64) (word : CmdWord) {required : UInt64 → Nat → Prop}
    : (h.loadCmd g tail word).Ensures (showing size contents)
        (Proper (knowledge size contents) limit) time required
      ↔ required (wordAt ((contents time).bytes g) (at_ (h.cell tail) word.place)) (time + 1) :=
  Accesses.shown_load (.load (leads.cmd tail word))

/-- The clamped size is in range exactly if the second look is not larger than the first one
allows.
-/
theorem RingHandle.clampedSize_iff {h : RingHandle}
    (leads : h.Leads (knowledge size contents) g) (tail : UInt64)
    : (h.clampedSize g tail).Ensures (showing size contents)
        (Proper (knowledge size contents) limit) time (fun n _ => n ≤ h.ring.maxBytes)
      ↔ h.sizeShown contents g time tail ≤ h.ring.maxBytes
        → h.sizeShown contents g (time + 1) tail ≤ h.ring.maxBytes := by
  unfold clampedSize
  rw [ensures_bind, shown_cmd leads]
  change Ensures _ _ (if h.sizeShown contents g time tail > h.ring.maxBytes then _ else _) _ _
    ↔ _
  split
  · rename_i large
    refine iff_of_true (UInt32.le_refl _) fun small => ?_
    exact absurd small (UInt32.not_le.mpr large)
  · rename_i fits
    rw [ensures_bind, shown_cmd leads]
    exact (imp_iff_right (UInt32.not_lt.mp fits)).symm

/-- `pop` is proper exactly if the size it goes by is still in range when it looks again. -/
theorem RingHandle.pop_ensures_iff {h : RingHandle}
    (leads : h.Leads (knowledge size contents) g)
    : h.pop.Ensures (showing size contents)
        (Proper (knowledge size contents) (knowledge size contents).commandBytes) time
        (fun _ _ => True)
      ↔ h.SizeHolds contents g time := by
  unfold pop SizeHolds
  rw [leads.base]
  dsimp only
  rw [ensures_bind, shown_load leads, ensures_bind, shown_load leads]
  generalize h.wordShown contents g time .tail = tail
  split
  · rename_i empty
    exact iff_of_true trivial fun other => absurd empty other
  · rename_i filled
    rw [ensures_bind, shown_cmd leads, ensures_bind, shown_cmd leads, ensures_bind,
      shown_cmd leads, ensures_bind, shown_cmd leads, ensures_bind]
    simp only [popRest_iff leads]
    exact (clampedSize_iff leads tail).trans (imp_iff_right filled).symm

end Settled

-----------------------------------------------------------------------------------------
-- Both endpoints
-----------------------------------------------------------------------------------------

/-- A ring handle of a publisher: its segment and its configuration. -/
def publisherHandle (g : Nat) (cfg : LLConfig) (direction : Direction) : RingHandle where
  direction := direction
  ring := {
    base := some g
    offset := (computeLayout cfg).ringOffset direction
    slots := cfg.commandSlots
    maxBytes := cfg.maxCommandBytes
  }
  layout := computeLayout cfg

/-- A valid configuration is still valid when it is read back from a header. -/
theorem configValid_echoed {cfg : LLConfig} (valid : configValid cfg = true)
    : configValid (echoed cfg) = true :=
  configValid_rename valid (by decide +kernel) ({} : LLConfig).staleProducerMs

/-- The handles of a publisher lead to its segment. -/
theorem publisherHandle_leads {k : Knowledge} {g : Nat} {cfg : LLConfig}
    (valid : configValid cfg = true) (echoes : echoed (k.config g) = echoed cfg)
    (mapped : (computeLayout cfg).totalSize.toNat ≤ (k.size g).toNat) (direction : Direction)
    : (publisherHandle g cfg direction).Leads k g := by
  have same {Part : Type} (part : LLConfig → Part)
      : part (echoed (k.config g)) = part (echoed cfg) :=
    congrArg part echoes
  have layout : computeLayout (k.config g) = computeLayout cfg := same computeLayout
  exact {
    base := rfl
    valid := fun _ => by
      rw [echoes]
      exact configValid_echoed valid
    size := fun _ => by
      rw [layout]
      exact mapped
    layout := fun _ => layout.symm
    offset := fun _ => by
      rw [layout]
      rfl
    slots := fun _ => (same LLConfig.commandSlots).symm
    maxBytes := fun _ => (same LLConfig.maxCommandBytes).symm
  }

/-- Whatever the segments show at every single access, as long as the configurations in the
headers keep their values: a subscriber that attaches works on a segment that fits, `read_latest`
and `push` only access what they are meant to, and `pop` does so if and only if the size of
the command is in range both times it looks.
-/
theorem content_confined_iff {size : Nat → UInt64} {contents : Nat → Moment}
    (settled : Settled contents)
    : (∀ name time,
        (openSubscriber name).Ensures (showing size contents)
          (Proper (knowledge size contents) fun _ => 0) time
          fun m _ => Attached (knowledge size contents) m)
      ∧ (∀ m capacity info time,
          Attached (knowledge size contents) m
          → (readLatest m capacity info).Ensures (showing size contents)
              (Proper (knowledge size contents) ((knowledge size contents).readable capacity))
              time
              fun outcome _ => Attached (knowledge size contents) outcome.1)
      ∧ (∀ m g,
          Attached (knowledge size contents) m
          → m.hdr = some g
          → (txHandle m).Leads (knowledge size contents) g
            ∧ (rxHandle m).Leads (knowledge size contents) g)
      ∧ (∀ cfg g direction,
          configValid cfg = true
          → echoed ((knowledge size contents).config g) = echoed cfg
          → (computeLayout cfg).totalSize.toNat ≤ (size g).toNat
          → (publisherHandle g cfg direction).Leads (knowledge size contents) g)
      ∧ ∀ (h : RingHandle) (g time : Nat),
          h.Leads (knowledge size contents) g
          → (∀ call,
              (h.push call).Ensures (showing size contents)
                (Proper (knowledge size contents) fun _ => 0) time fun _ _ => True)
            ∧ (h.pop.Ensures (showing size contents)
                  (Proper (knowledge size contents) (knowledge size contents).commandBytes) time
                  (fun _ _ => True)
                ↔ h.SizeHolds contents g time) := by
  refine ⟨fun name time => ?_, fun m capacity info time attached => ?_,
    fun m g attached there => attached.leads there,
    fun cfg g direction valid echoes mapped => publisherHandle_leads valid echoes mapped direction,
    fun h g time leads => ⟨fun call => ?_, RingHandle.pop_ensures_iff leads⟩⟩
  · exact ensures_shown settled (openSubscriber_ensures name) time
  · exact ensures_shown settled (readLatest_ensures attached capacity info) time
  · exact ensures_shown settled (RingHandle.push_ensures leads call) time

/-- The smallest configuration. -/
def smallest : LLConfig where
  maxWidth := 1
  maxHeight := 1
  bytesPerPixel := 1
  commandSlots := 1
  maxCommandBytes := 1

/-- Its segment with one command in the upstream ring, whose size word changes from one byte
to two between the seventh access and the eighth one.
-/
def growing (time : Nat) : Moment where
  bytes := fun _ offset =>
    if offset ∈ [24, 28, 32, 40, 44, 1024] then 1
    else if offset = 36 then 3
    else if offset = 1180 then if time < 7 then 1 else 2
    else 0

/-- The size is not part of the configuration. -/
theorem growing_settled : Settled growing := by
  intro time g
  have same (word : HeaderWord)
      : wordAt ((growing time).bytes g) word.place
        = wordAt ((growing 0).bytes g) word.place := by
    refine wordAt_congr fun offset holds => ?_
    have below : offset < 448 := holds.2.trans_le word.place_inside
    have other : offset ≠ 1180 := by omega
    simp only [growing, if_neg other]
  simp only [configAt, same]

/-- The publisher of that segment. -/
theorem growing_leads (direction : Direction)
    : (publisherHandle 0 smallest direction).Leads (knowledge (fun _ => 1216) growing) 0 :=
  publisherHandle_leads (by decide +kernel) rfl (by decide +kernel) direction

/-- Pushing to the other ring of that segment. -/
theorem content_confined_iff_push
    : ((publisherHandle 0 smallest .downstream).push { size := 1, data := some fun _ => 7 }).Ensures
        (showing (fun _ => 1216) growing) (Proper (knowledge (fun _ => 1216) growing) fun _ => 0) 0
        fun _ _ => True :=
  ((content_confined_iff growing_settled).2.2.2.2 _ 0 0 (growing_leads .downstream)).1 _

/-- The publisher's `pop` copies two bytes of a cell that has room for one. -/
theorem pop_beyondCell
    : Settled growing
      ∧ (publisherHandle 0 smallest .upstream).Leads (knowledge (fun _ => 1216) growing) 0
      ∧ ¬ (publisherHandle 0 smallest .upstream).pop.Ensures (showing (fun _ => 1216) growing)
          (Proper (knowledge (fun _ => 1216) growing)
            (knowledge (fun _ => 1216) growing).commandBytes) 0
          fun _ _ => True := by
  refine ⟨growing_settled, growing_leads .upstream, ?_⟩
  rw [RingHandle.pop_ensures_iff (growing_leads .upstream)]
  decide +kernel

end ShmFrame.Accesses
