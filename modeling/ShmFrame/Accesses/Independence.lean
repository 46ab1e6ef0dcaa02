import ShmFrame.Accesses.FramePath

/-! Subscribers cannot influence the frame path: what they may store to is apart from all
bytes that the publisher's frame calls load.
-/

namespace ShmFrame.Accesses

open ShmFrame.Foundation ShmFrame.Foundation.Program

variable {cfg : LLConfig} {size : Nat → UInt64}

-----------------------------------------------------------------------------------------
-- Bytes
-----------------------------------------------------------------------------------------

/-- A byte of `latest`, of a slot header or of a slot's payload. -/
def FrameByte (cfg : LLConfig) (offset : Nat) : Prop :=
  HeaderWord.latest.place.Holds offset
  ∨ ∃ index < cfg.slotCount,
      ((Area.slotHeader index).span cfg).Holds offset
      ∨ ((Area.slotPayload index).span cfg).Holds offset

/-- A byte of the configuration in the header. -/
def ConfigByte (offset : Nat) : Prop := 24 ≤ offset ∧ offset < 48

/-- The header echoes the configuration. -/
def Laid (cfg : LLConfig) (bytes : Bytes) : Prop :=
  ∀ word value, configWord cfg word = some value → wordAt bytes word.place = value

/-- The configuration words consist of configuration bytes. -/
theorem configWord_bytes {word : HeaderWord} {value : UInt64}
    (known : configWord cfg word = some value) {offset : Nat} (holds : word.place.Holds offset)
    : ConfigByte offset := by
  obtain ⟨begins, ends⟩ := holds
  cases word <;> cases known
  all_goals
    simp only [HeaderWord.place, Span.last] at begins ends
    constructor <;> omega

/-- A header whose configuration bytes stay as they are echoes the same configuration. -/
theorem Laid.keep {bytes next : Bytes} (laid : Laid cfg bytes)
    (same : ∀ offset, ConfigByte offset → next offset = bytes offset)
    : Laid cfg next := by
  intro word value known
  rw [← laid word value known]
  exact wordAt_congr fun offset holds => same offset (configWord_bytes known holds)

/-- The slots, and the words of the header that are neither owner words nor anything else
subscribers may store to, are apart from all that subscribers may store to.
-/
theorem Subscribable.misses {area : Area} {span : Span} (bounded : cfg.Bounded)
    (subscribable : Subscribable area span) (within : Within cfg (size 0) area span)
    {offset : Nat} (kept : FrameByte cfg offset ∨ ConfigByte offset)
    : ¬ span.Holds offset := by
  intro holds
  have inArea : (area.span cfg).Holds offset := within.inside.holds holds
  have elsewhere (other : Area) (there : other.Exists cfg) (distinct : area ≠ other)
      : ¬ (other.span cfg).Holds offset :=
    (Area.span_apart bounded within.there there distinct).not_holds inArea
  have inHeader (low : offset < 448) : (Area.header.span cfg).Holds offset := by
    refine ⟨Nat.zero_le _, low.trans_le ?_⟩
    exact Nat.le_add_left _ _
  have slots (index : UInt32) (below : index < cfg.slotCount)
      (isSlot : area ≠ .slotHeader index ∧ area ≠ .slotPayload index)
      : ¬ (((Area.slotHeader index).span cfg).Holds offset
          ∨ ((Area.slotPayload index).span cfg).Holds offset) := by
    rintro (header | payload)
    · exact elsewhere (.slotHeader index) below isSlot.1 header
    · exact elsewhere (.slotPayload index) below isSlot.2 payload
  cases area with
  | slotHeader index => exact subscribable
  | slotPayload index => exact subscribable
  | header =>
      have owner : 320 ≤ offset := by
        rcases subscribable with rfl | rfl
        · exact holds.1
        · exact (by decide : 320 ≤ 384).trans holds.1
      rcases kept with (⟨-, latest⟩ | ⟨index, below, slot⟩) | ⟨-, config⟩
      · exact absurd (owner.trans_lt latest) (by decide)
      · exact slots index below (by simp) slot
      · omega
  | ringHeader direction =>
      have high : ¬ offset < 448 := fun low => elsewhere .header trivial (by simp) (inHeader low)
      rcases kept with (⟨-, latest⟩ | ⟨index, below, slot⟩) | ⟨-, config⟩
      · exact high (latest.trans (by decide))
      · exact slots index below (by simp) slot
      · omega
  | cell direction index =>
      have high : ¬ offset < 448 := fun low => elsewhere .header trivial (by simp) (inHeader low)
      rcases kept with (⟨-, latest⟩ | ⟨index, below, slot⟩) | ⟨-, config⟩
      · exact high (latest.trans (by decide))
      · exact slots index below (by simp) slot
      · omega

/-- What is known of the publisher's segment. -/
def frameKnowledge (cfg : LLConfig) (size : Nat → UInt64) : Knowledge where
  trusted := (· = 0)
  config := fun _ => cfg
  size := size

/-- Harmless effects leave the frame path and the configuration alone. -/
theorem Harmless.keeps {effect : Effect} (bounded : cfg.Bounded)
    (harmless : Harmless (frameKnowledge cfg size) effect) (bytes : Nat → Bytes) {offset : Nat}
    (kept : FrameByte cfg offset ∨ ConfigByte offset)
    : effect.apply bytes 0 offset = bytes 0 offset := by
  have stored {g : Nat} {area : Area} {span : Span} (value : UInt64)
      (written : effect.written = some (g, area, span))
      : assign bytes g (storeAt (bytes g) span value) 0 offset = bytes 0 offset := by
    by_cases own : g = 0
    · subst own
      have misses :=
        (harmless.place 0 area span written).misses bounded
          (harmless.within 0 area span written rfl) kept
      rw [assign_same]
      exact storeAt_outside misses
    · rw [assign_apart _ _ (Ne.symm own)]
  cases effect with
  | store g area span value => exact stored value rfl
  | exchange g area span expected desired =>
      by_cases found : wordAt (bytes g) span = expected
      · simp only [Effect.apply, if_pos found]
        exact stored desired rfl
      · simp only [Effect.apply, if_neg found]
  | load | copyOut | ask | stall => rfl

-----------------------------------------------------------------------------------------
-- The publisher's calls
-----------------------------------------------------------------------------------------

/-- What the publisher's frame calls do: load bytes of the frame path, store anywhere but to
the configuration, and read the clock.
-/
def FrameWork (cfg : LLConfig) : Effect → Prop
  | .load g _ span => g = 0 ∧ ∀ offset, span.Holds offset → FrameByte cfg offset
  | .store g _ span _ => g = 0 ∧ ∀ offset, span.Holds offset → ¬ ConfigByte offset
  | .ask .nowNs => True
  | _ => False

/-- An environment of which nothing is known. -/
def anything : Environment Effect Effect.Answer Unit := fun _ _ _ _ => True

/-- The publisher's private state fits its segment. -/
structure Ready (cfg : LLConfig) (m : LLPublisher.Impl) : Prop where
  config : m.cfg = cfg
  slot : m.writeSlot < cfg.slotCount
  pending : ∀ index, m.pending = some index → index < cfg.slotCount

/-- Slots lie behind the header. -/
theorem slot_behind (bounded : cfg.Bounded) {index : UInt32} (below : index < cfg.slotCount)
    : 448 ≤ (slotAt (computeLayout cfg) index).toNat
      ∧ 448 ≤ (slotPayload (computeLayout cfg) index).toNat := by
  have layout := computeLayout_exact bounded
  have inside := UInt32.lt_iff_toNat_lt.mp below
  have header := (slotAt_computes bounded inside.le).2
  have payload := (slotPayload_computes bounded inside).2
  constructor <;> omega

/-- A word of a slot header is loaded. -/
theorem loadSlot_frameWork {index : UInt32} (below : index < cfg.slotCount) (word : SlotWord)
    : (loadSlot 0 (computeLayout cfg) index word).Ensures anything (FrameWork cfg) ()
        fun _ _ => True := by
  refine ⟨⟨rfl, fun offset holds => .inr ⟨index, below, .inl ?_⟩⟩, fun _ _ _ => trivial⟩
  exact (at_inside rfl word.place_inside).holds holds

section FrameCalls

variable (bounded : cfg.Bounded) {index : UInt32} (below : index < cfg.slotCount)
include bounded below

/-- A word of a slot header is stored. -/
theorem storeSlot_frameWork (word : SlotWord) (value : UInt64)
    : (storeSlot 0 (computeLayout cfg) index word value).Ensures anything (FrameWork cfg) ()
        fun _ _ => True := by
  have behind := (slot_behind bounded below).1
  refine ⟨⟨rfl, fun offset holds config => ?_⟩, fun _ _ _ => trivial⟩
  have begins : (slotAt (computeLayout cfg) index).toNat + word.place.first ≤ offset := holds.1
  have ends := config.2
  omega

/-- The sequence word makes a step. -/
theorem stepSeq_frameWork
    : (stepSeq 0 (computeLayout cfg) index).Ensures anything (FrameWork cfg) ()
        fun _ _ => True :=
  Ensures.bind (loadSlot_frameWork below _) fun _ _ _ =>
    storeSlot_frameWork bounded below _ _

/-- Bytes are stored behind the header, by induction on their number. -/
theorem copyIn_frameWork (first : Nat) (source : Nat → UInt8) (count : Nat)
    : (copyIn 0 (.slotPayload index)
        ((slotPayload (computeLayout cfg) index).toNat + first) source count).Ensures anything
          (FrameWork cfg) () fun _ _ => True := by
  have behind := (slot_behind bounded below).2
  induction count with
  | zero => exact trivial
  | succ count ih =>
      refine Ensures.bind ih fun _ _ _ => ⟨⟨rfl, fun offset holds config => ?_⟩,
        fun _ _ _ => trivial⟩
      have begins : (slotPayload (computeLayout cfg) index).toNat + first + count ≤ offset :=
        holds.1
      have ends := config.2
      omega

/-- So are all copies of `publish`, by induction on them. -/
theorem copyRows_frameWork (src : Nat → UInt8) (copies : List Calls.RowCopy)
    : (copyRows 0 index (slotPayload (computeLayout cfg) index) src copies).Ensures anything
        (FrameWork cfg) () fun _ _ => True := by
  induction copies with
  | nil => exact trivial
  | cons copy rest ih =>
      exact Ensures.bind (copyIn_frameWork bounded below _ _ _) fun _ _ _ => ih

end FrameCalls

/-- The clock is read. -/
theorem nowNs_frameWork : nowNs.Ensures anything (FrameWork cfg) () fun _ _ => True :=
  ⟨trivial, fun _ _ _ => trivial⟩

/-- `latest` or the heartbeat is stored. -/
theorem storeHeader_frameWork {word : HeaderWord} (apart : 48 ≤ word.place.first)
    (value : UInt64)
    : (storeHeader 0 word value).Ensures anything (FrameWork cfg) () fun _ _ => True := by
  refine ⟨⟨rfl, fun offset holds config => ?_⟩, fun _ _ _ => trivial⟩
  have begins := holds.1
  have ends := config.2
  omega

/-- `begin_write` keeps the publisher ready, and hands out the slot it has advanced to. -/
theorem beginWrite_frameWork (bounded : cfg.Bounded) {m : LLPublisher.Impl} (ready : Ready cfg m)
    (width height : UInt32)
    : (beginWrite 0 m width height).Ensures anything (FrameWork cfg) () fun begun _ =>
        Ready cfg begun.1
        ∧ ∀ payload,
            begun.2 = some payload
            → payload = slotPayload (computeLayout cfg) begun.1.writeSlot := by
  have refused {impl : LLPublisher.Impl} (ready : Ready cfg impl)
      : Ready cfg (impl, (none : Option UInt64)).1
        ∧ ∀ payload,
            (impl, (none : Option UInt64)).2 = some payload
            → payload = slotPayload (computeLayout cfg) impl.writeSlot :=
    ⟨ready, fun _ never => by cases never⟩
  refine Ensures.ite (fun _ => refused ready) fun _ => ?_
  have clock : (gateClock m).Ensures anything (FrameWork cfg) () fun _ _ => True :=
    Ensures.ite (fun _ => trivial) fun _ => nowNs_frameWork
  refine Ensures.bind clock fun now _ _ => ?_
  have slots : 0 < cfg.slotCount.toNat := Nat.lt_of_lt_of_le (by decide) bounded.slots.1
  have advanced : (m.writeSlot + 1) % m.cfg.slotCount < cfg.slotCount := by
    rw [ready.config, UInt32.lt_iff_toNat_lt, UInt32.toNat_mod]
    exact Nat.mod_lt _ slots
  have kept : Ready cfg (m.admitWrite width height now).1 := by
    rcases m.admitWrite_cases width height now with same | same | ⟨-, same⟩
    · rw [same]
      exact ready
    · rw [same]
      exact ⟨ready.config, ready.slot, ready.pending⟩
    · rw [same]
      exact ⟨ready.config, advanced, ready.pending⟩
  refine Ensures.ite (fun _ => refused kept) fun _ => ?_
  dsimp only
  rw [kept.config]
  have below := kept.slot
  refine Ensures.bind (stepSeq_frameWork bounded below) fun _ _ _ => ?_
  refine Ensures.bind (storeSlot_frameWork bounded below _ _) fun _ _ _ => ?_
  refine Ensures.bind (storeSlot_frameWork bounded below _ _) fun _ _ _ => ?_
  refine Ensures.bind (storeSlot_frameWork bounded below _ _) fun _ _ _ => ?_
  refine Ensures.bind (storeSlot_frameWork bounded below _ _) fun _ _ _ => ?_
  refine ⟨⟨rfl, kept.slot, fun index chosen => ?_⟩, fun payload handed => ?_⟩
  · obtain rfl := Option.some.inj chosen
    exact below
  · exact (Option.some.inj handed).symm

/-- `cancel_write` keeps the publisher ready. -/
theorem cancelWrite_frameWork (bounded : cfg.Bounded) {m : LLPublisher.Impl}
    (ready : Ready cfg m)
    : (cancelWrite 0 m).Ensures anything (FrameWork cfg) () fun next _ => Ready cfg next := by
  obtain rfl := ready.config
  unfold cancelWrite
  split
  · rename_i index pending
    refine Ensures.bind (stepSeq_frameWork bounded (ready.pending index pending)) fun _ _ _ => ?_
    exact ⟨ready.config, ready.slot, fun _ never => by cases never⟩
  · exact ready

/-- `commit` keeps the publisher ready. -/
theorem commit_frameWork (bounded : cfg.Bounded) {m : LLPublisher.Impl} (ready : Ready cfg m)
    (timestampNs : UInt64)
    : (commit 0 m timestampNs).Ensures anything (FrameWork cfg) () fun next _ =>
        Ready cfg next := by
  obtain rfl := ready.config
  unfold commit
  split
  · rename_i index pending
    have below := ready.pending index pending
    refine Ensures.bind (storeSlot_frameWork bounded below _ _) fun _ _ _ => ?_
    have stamp : (stampOf timestampNs).Ensures anything (FrameWork m.cfg) () fun _ _ => True :=
      Ensures.ite (fun _ => nowNs_frameWork) fun _ => trivial
    refine Ensures.bind stamp fun _ _ _ => ?_
    refine Ensures.bind (storeSlot_frameWork bounded below _ _) fun _ _ _ => ?_
    refine Ensures.bind (stepSeq_frameWork bounded below) fun _ _ _ => ?_
    refine Ensures.bind (storeHeader_frameWork (by decide) _) fun _ _ _ => ?_
    refine Ensures.bind nowNs_frameWork fun published _ _ => ?_
    refine Ensures.bind (storeHeader_frameWork (by decide) _) fun _ _ _ => ?_
    exact ⟨ready.config, ready.slot, fun _ never => by cases never⟩
  · exact ready

/-- `publish` keeps the publisher ready. -/
theorem publish_frameWork (bounded : cfg.Bounded) {m : LLPublisher.Impl} (ready : Ready cfg m)
    (src : Option (Nat → UInt8)) (width height srcStride : UInt32)
    : (publish 0 m src width height srcStride).Ensures anything (FrameWork cfg) ()
        fun outcome _ => Ready cfg outcome.1 := by
  cases src with
  | none => exact ready
  | some src =>
      refine Ensures.bind (beginWrite_frameWork bounded ready width height) fun begun _ known => ?_
      obtain ⟨kept, handed⟩ := known
      split
      · rename_i payload returned
        rw [handed payload returned]
        refine Ensures.bind (copyRows_frameWork bounded kept.slot src _) fun _ _ _ => ?_
        exact Ensures.bind (commit_frameWork bounded kept 0) fun next _ committed => committed
      · exact kept

/-- Every call on the frame path keeps the publisher ready. -/
theorem PublisherCall.program_frameWork (bounded : cfg.Bounded) {m : LLPublisher.Impl}
    (ready : Ready cfg m) (call : PublisherCall)
    : (call.program m).Ensures anything (FrameWork cfg) () fun outcome _ =>
        Ready cfg outcome.1 := by
  cases call with
  | beginWrite width height =>
      exact Ensures.bind (beginWrite_frameWork bounded ready width height)
        fun _ _ known => known.1
  | cancelWrite => exact Ensures.bind (cancelWrite_frameWork bounded ready) fun _ _ known => known
  | commit timestampNs =>
      exact Ensures.bind (commit_frameWork bounded ready timestampNs) fun _ _ known => known
  | publish src width height srcStride =>
      exact Ensures.bind (publish_frameWork bounded ready src width height srcStride)
        fun _ _ known => known
  | setMaxPublish intervalNs => exact ⟨ready.config, ready.slot, ready.pending⟩

-----------------------------------------------------------------------------------------
-- Single steps
-----------------------------------------------------------------------------------------

/-- Every call of an attached subscriber is harmless and leaves it attached. -/
theorem SubscriberCall.program_harmless {k : Knowledge} {m : LLSubscriber.Impl}
    (attached : Attached k m) (call : SubscriberCall)
    : (call.program m).Ensures k.environment (Harmless k) () fun next _ => Attached k next := by
  cases call with
  | open_ name => exact ensures_harmless (openSubscriber_ensures name)
  | poll =>
      exact Ensures.bind (ensures_harmless (poll_ensures attached)) fun _ _ known => known
  | readLatest capacity info =>
      exact Ensures.bind ((readLatest_ensures attached capacity info).mono
        (fun _ => Proper.harmless) fun _ _ => id) fun _ _ known => known
  | readLatestVector size info =>
      exact Ensures.bind ((readLatestVector_ensures attached size info).mono
        (fun _ => Proper.harmless) fun _ _ => id) fun _ _ known => known
  | send call =>
      exact Ensures.bind (ensures_harmless (send_ensures attached call)) fun _ _ known => known
  | receive => exact Ensures.bind (receive_ensures attached) fun _ _ known => known
  | close =>
      exact Ensures.bind (ensures_harmless (close_ensures attached)) fun _ _ _ => .detached rfl
  | configure staleNs retryNs minReadNs => exact attached.keep ⟨rfl, rfl, rfl, rfl, rfl⟩

/-- A program that goes on has performed its next effect. -/
theorem advance_cases {Value : Type} {bytes next : Nat → Bytes} {reply : Reply}
    {program rest : Access Value}
    (advanced : advance size bytes reply program = some (rest, next))
    : ∃ (effect : Effect) (later : effect.Answer → Access Value) (answer : effect.Answer),
        program = .perform effect later
        ∧ effect.answer size bytes reply = some answer
        ∧ rest = later answer
        ∧ next = effect.apply bytes := by
  cases program with
  | done value => cases advanced
  | perform effect later =>
      obtain ⟨answer, answered, same⟩ := Option.map_eq_some_iff.mp advanced
      obtain ⟨rfl, rfl⟩ := Prod.mk.inj same
      exact ⟨effect, later, answer, rfl, answered, rfl, rfl⟩

/-- The answers of a segment that echoes its configuration do not contradict it. -/
theorem Laid.consistent {bytes : Nat → Bytes} {reply : Reply} (laid : Laid cfg (bytes 0))
    {effect : Effect} {answer : effect.Answer}
    (answered : effect.answer size bytes reply = some answer)
    : (frameKnowledge cfg size).Consistent effect answer := by
  cases effect with
  | load g area span =>
      obtain rfl := Option.some.inj answered
      rintro own word value known rfl
      obtain rfl : g = 0 := own
      exact laid word value known
  | ask question =>
      cases question with
      | sizeOf g =>
          obtain rfl := Option.some.inj answered
          exact fun _ => rfl
      | nowNs | opens | spurious | clockFirst | patience => trivial
  | store | exchange | copyOut | stall => trivial

/-- The publisher's effects leave the configuration alone. -/
theorem FrameWork.keeps {effect : Effect} (work : FrameWork cfg effect) (bytes : Nat → Bytes)
    {offset : Nat} (config : ConfigByte offset)
    : effect.apply bytes 0 offset = bytes 0 offset := by
  cases effect with
  | store g area span value =>
      obtain ⟨rfl, misses⟩ := work
      simp only [Effect.apply, assign_same]
      exact storeAt_outside fun holds => misses offset holds config
  | exchange g area span expected desired => exact work.elim
  | load | copyOut | ask | stall => rfl

/-- On segments that agree on the frame path the publisher's effects have the same answer, and
lead to segments that agree on it.
-/
theorem FrameWork.same {effect : Effect} (work : FrameWork cfg effect)
    {left right : Nat → Bytes}
    (same : ∀ offset, FrameByte cfg offset → left 0 offset = right 0 offset) (reply : Reply)
    : effect.answer size left reply = effect.answer size right reply
      ∧ ∀ offset,
          FrameByte cfg offset → effect.apply left 0 offset = effect.apply right 0 offset := by
  cases effect with
  | load g area span =>
      obtain ⟨rfl, inside⟩ := work
      refine ⟨congrArg some ?_, same⟩
      exact wordAt_congr fun offset holds => same offset (inside offset holds)
  | store g area span value =>
      obtain ⟨rfl, -⟩ := work
      refine ⟨rfl, fun offset frame => ?_⟩
      simp only [Effect.apply, assign_same]
      exact storeAt_congr (same offset frame)
  | ask question =>
      cases question with
      | nowNs => exact ⟨rfl, same⟩
      | opens | sizeOf | spurious | clockFirst | patience => exact work.elim
  | exchange | copyOut | stall => exact work.elim

-----------------------------------------------------------------------------------------
-- Whole runs
-----------------------------------------------------------------------------------------

/-- The header keeps its configuration, and everybody is in the middle of calls that are
harmless, or on the frame path.
-/
structure FrameInv (cfg : LLConfig) (size : Nat → UInt64) (s : Shared) : Prop where
  laid : Laid cfg (s.bytes 0)
  ready : Ready cfg s.publisher.impl
  working
    : ∀ program,
        s.publisher.running = some program
        → program.Ensures anything (FrameWork cfg) () fun outcome _ => Ready cfg outcome.1
  attached : ∀ who, Attached (frameKnowledge cfg size) (s.subscribers who).impl
  busy
    : ∀ who program,
        (s.subscribers who).running = some program
        → program.Ensures (frameKnowledge cfg size).environment
            (Harmless (frameKnowledge cfg size)) ()
            fun next _ => Attached (frameKnowledge cfg size) next

/-- The publisher's side and the bytes of the frame path are the same. -/
structure SameFrames (cfg : LLConfig) (s t : Shared) : Prop where
  publisher : t.publisher = s.publisher
  frames : ∀ offset, FrameByte cfg offset → t.bytes 0 offset = s.bytes 0 offset

/-- To have the same frames is an equivalence. -/
theorem SameFrames.equivalence : Equivalence (SameFrames cfg) where
  refl := fun _ => ⟨rfl, fun _ _ => rfl⟩
  symm := fun same => ⟨same.publisher.symm, fun offset frame => (same.frames offset frame).symm⟩
  trans := fun first second =>
    ⟨second.publisher.trans first.publisher,
      fun offset frame => (second.frames offset frame).trans (first.frames offset frame)⟩

variable {s next : Shared}

/-- A new publisher, and nobody attached. -/
theorem FrameInv.create (bounded : cfg.Bounded) {bytes : Nat → Bytes} (laid : Laid cfg (bytes 0))
    : FrameInv cfg size (Shared.create cfg bytes) where
  laid := laid
  ready :=
    {
      config := rfl
      slot := UInt32.lt_iff_toNat_lt.mpr (Nat.lt_of_lt_of_le (Nat.succ_pos 2) bounded.slots.1)
      pending := fun _ never => by cases never
    }
  working := fun _ never => by cases never
  attached := fun _ => .detached rfl
  busy := fun _ _ never => by cases never

/-- Replacing a subscriber's side by one that is attached or busy keeps the invariant. -/
theorem FrameInv.setSubscriber (inv : FrameInv cfg size s) (who : Nat) {p : SubscriberSide}
    (attached : Attached (frameKnowledge cfg size) p.impl)
    (busy
      : ∀ program,
          p.running = some program
          → program.Ensures (frameKnowledge cfg size).environment
              (Harmless (frameKnowledge cfg size)) ()
              fun next _ => Attached (frameKnowledge cfg size) next)
    : FrameInv cfg size (s.setSubscriber who p) :=
  {
    inv with
    attached := @forall_assign _ _ _ s.subscribers who p
      (fun _ p => Attached (frameKnowledge cfg size) p.impl) attached
      fun other _ => inv.attached other
    busy := @forall_assign _ _ _ s.subscribers who p
      (fun _ p => ∀ program, p.running = some program → Ensures _ _ program () _) busy
      fun other _ => inv.busy other
  }

/-- Bytes may change as long as the configuration does not. -/
theorem FrameInv.setBytes (inv : FrameInv cfg size s) {bytes : Nat → Bytes}
    (same : ∀ offset, ConfigByte offset → bytes 0 offset = s.bytes 0 offset)
    : FrameInv cfg size { s with bytes } :=
  { inv with laid := inv.laid.keep same }

/-- A step of a subscriber keeps the invariant and the frame path. -/
theorem FrameInv.subscriberStep (bounded : cfg.Bounded) (inv : FrameInv cfg size s) {who : Nat}
    {move : SubscriberMove} (stepped : s.subscriberStep size who move = some next)
    : FrameInv cfg size next ∧ SameFrames cfg s next := by
  have still (p : SubscriberSide) : SameFrames cfg s (s.setSubscriber who p) :=
    ⟨rfl, fun _ _ => rfl⟩
  cases move with
  | call call =>
      simp only [Shared.subscriberStep] at stepped
      split at stepped <;> cases stepped
      refine ⟨inv.setSubscriber who (inv.attached who) fun program running => ?_, still _⟩
      obtain rfl := Option.some.inj running
      exact call.program_harmless (inv.attached who)
  | access reply =>
      simp only [Shared.subscriberStep] at stepped
      split at stepped
      · cases stepped
      rename_i program running
      obtain ⟨⟨rest, bytes⟩, advanced, rfl⟩ := Option.map_eq_some_iff.mp stepped
      obtain ⟨effect, later, answer, rfl, answered, rfl, rfl⟩ := advance_cases advanced
      have busy := inv.busy who _ running
      have goes := busy.2 answer () (inv.laid.consistent answered)
      have replaced :=
        inv.setSubscriber who (inv.attached who)
          (p := { s.subscribers who with running := some (later answer) })
          fun program running => by
            obtain rfl := Option.some.inj running
            exact goes
      constructor
      · exact replaced.setBytes fun offset config => busy.1.keeps bounded s.bytes (.inr config)
      · exact ⟨rfl, fun offset frame => busy.1.keeps bounded s.bytes (.inl frame)⟩
  | finish =>
      simp only [Shared.subscriberStep] at stepped
      split at stepped <;> cases stepped
      rename_i impl running
      have attached : Attached (frameKnowledge cfg size) impl := inv.busy who _ running
      exact ⟨inv.setSubscriber who attached (fun _ never => by cases never), still _⟩
  | crash =>
      cases stepped
      exact ⟨inv.setSubscriber who (.detached rfl) (fun _ never => by cases never), still _⟩

/-- A step of the publisher's side keeps the invariant. -/
theorem FrameInv.publisherStep (bounded : cfg.Bounded) (inv : FrameInv cfg size s)
    {move : PublisherMove} (stepped : s.publisherStep size move = some next)
    : FrameInv cfg size next := by
  cases move with
  | call call =>
      simp only [Shared.publisherStep] at stepped
      split at stepped <;> cases stepped
      refine { inv with working := fun program running => ?_ }
      obtain rfl := Option.some.inj running
      exact call.program_frameWork bounded inv.ready
  | access nowNs =>
      simp only [Shared.publisherStep] at stepped
      split at stepped
      · cases stepped
      rename_i program running
      obtain ⟨⟨rest, bytes⟩, advanced, rfl⟩ := Option.map_eq_some_iff.mp stepped
      obtain ⟨effect, later, answer, rfl, answered, rfl, rfl⟩ := advance_cases advanced
      have working := inv.working _ running
      have goes := working.2 answer () trivial
      exact {
        laid := inv.laid.keep fun offset config => working.1.keeps s.bytes config
        ready := inv.ready
        working := fun program running => by
          obtain rfl := Option.some.inj running
          exact goes
        attached := inv.attached
        busy := inv.busy
      }
  | finish =>
      simp only [Shared.publisherStep] at stepped
      split at stepped <;> cases stepped
      rename_i impl value running
      have ready : Ready cfg impl := inv.working _ running
      exact { inv with ready, working := fun _ never => by cases never }
  | storeByte index byte =>
      simp only [Shared.publisherStep] at stepped
      split at stepped
      · rename_i slot _ pending
        split at stepped <;> cases stepped
        refine inv.setBytes fun offset config => ?_
        have behind := (slot_behind bounded (inv.ready.pending slot pending)).2
        have ends := config.2
        rw [assign_same, inv.ready.config]
        refine storeAt_outside fun holds => ?_
        have begins : (slotPayload (computeLayout cfg) slot).toNat + index ≤ offset := holds.1
        omega
      · cases stepped

/-- The same step of the publisher's side from states with the same frames leads to states with
the same frames.
-/
theorem FrameInv.publisherStep_same {t sNext tNext : Shared} (inv : FrameInv cfg size s)
    (same : SameFrames cfg s t) {move : PublisherMove}
    (left : s.publisherStep size move = some sNext)
    (right : t.publisherStep size move = some tNext)
    : SameFrames cfg sNext tNext := by
  obtain ⟨publisher, frames⟩ := same
  cases move with
  | call call =>
      simp only [Shared.publisherStep, publisher] at left right
      cases running : s.publisher.running with
      | some program => simp [running] at left
      | none =>
          simp only [running, Option.some.injEq] at left right
          subst left right
          exact ⟨rfl, frames⟩
  | access nowNs =>
      simp only [Shared.publisherStep, publisher] at left right
      cases running : s.publisher.running with
      | none => simp [running] at left
      | some program =>
          simp only [running] at left right
          obtain ⟨⟨rest, bytes⟩, advanced, rfl⟩ := Option.map_eq_some_iff.mp left
          obtain ⟨⟨other, otherBytes⟩, otherAdvanced, rfl⟩ := Option.map_eq_some_iff.mp right
          obtain ⟨effect, later, answer, rfl, answered, rfl, rfl⟩ := advance_cases advanced
          have work := (inv.working _ running).1
          obtain ⟨sameAnswer, sameBytes⟩ := work.same (fun o f => (frames o f).symm) { nowNs }
          rw [advance, ← sameAnswer, answered] at otherAdvanced
          cases otherAdvanced
          exact ⟨rfl, fun offset frame => (sameBytes offset frame).symm⟩
  | finish =>
      simp only [Shared.publisherStep, publisher] at left right
      split at left
      · rename_i impl value running
        simp only [running, Option.some.injEq] at left right
        subst left right
        exact ⟨rfl, frames⟩
      · cases left
  | storeByte index byte =>
      simp only [Shared.publisherStep, publisher] at left right
      split at left
      · rename_i slot running pending
        simp only [running, pending] at left right
        split at left
        · rename_i inside
          rw [if_pos inside] at right
          cases left
          cases right
          refine ⟨rfl, fun offset frame => ?_⟩
          dsimp only
          rw [assign_same, assign_same]
          exact storeAt_congr (frames offset frame)
        · cases left
      · cases left

/-- The publisher's side is independent of everybody else. -/
theorem frames_independent (bounded : cfg.Bounded)
    : (sharedMachine size).Independent SharedAction.ofPublisher (FrameInv cfg size)
        (SameFrames cfg) where
  equivalence := SameFrames.equivalence
  preserved := fun state action next inv stepped => by
    cases action with
    | publisher move => exact inv.publisherStep bounded stepped
    | subscriber who move => exact (inv.subscriberStep bounded stepped).1
    | elsewhere g offset byte =>
        simp only [sharedMachine, Shared.step] at stepped
        split at stepped <;> cases stepped
        rename_i other
        refine inv.setBytes fun offset _ => ?_
        rw [assign_apart _ _ (Ne.symm other)]
  hidden := fun state action next inv unseen stepped => by
    cases action with
    | publisher move => cases unseen
    | subscriber who move => exact (inv.subscriberStep bounded stepped).2
    | elsewhere g offset byte =>
        simp only [sharedMachine, Shared.step] at stepped
        split at stepped <;> cases stepped
        rename_i other
        refine ⟨rfl, fun offset _ => ?_⟩
        dsimp only
        rw [assign_apart _ _ (Ne.symm other)]
  shown := fun left right action leftNext rightNext inv same seen leftStep rightStep => by
    cases action with
    | publisher move => exact inv.publisherStep_same same leftStep rightStep
    | subscriber who move => cases seen
    | elsewhere g offset byte => cases seen

/-- For every valid configuration, every two runs from segments that agree on the frame path
and echo the configuration, in which the publisher's side does the same: whatever subscribers
do in between, its calls return the same, and the bytes of `latest`, of the slot headers and of
the payloads are equal. The runs are arbitrary, so this holds after every step of the
publisher.
-/
theorem subscribers_cannotInfluence (valid : configValid cfg = true)
    {leftBytes rightBytes : Nat → Bytes}
    (leftLaid : Laid cfg (leftBytes 0)) (rightLaid : Laid cfg (rightBytes 0))
    (start : ∀ offset, FrameByte cfg offset → rightBytes 0 offset = leftBytes 0 offset)
    {first second : List SharedAction}
    (samePublisher
      : first.filter SharedAction.ofPublisher = second.filter SharedAction.ofPublisher)
    {s t : Shared}
    (left : (sharedMachine size).run (.create cfg leftBytes) first = some s)
    (right : (sharedMachine size).run (.create cfg rightBytes) second = some t)
    : t.publisher.returns = s.publisher.returns
      ∧ ∀ offset, FrameByte cfg offset → t.bytes 0 offset = s.bytes 0 offset := by
  have bounded := configValid_bounded valid
  have same : SameFrames cfg s t :=
    (frames_independent bounded).run_alike samePublisher (.create bounded leftLaid)
      (.create bounded rightLaid) ⟨rfl, start⟩ left right
  exact ⟨congrArg PublisherSide.returns same.publisher, same.frames⟩

/-- The header of a fresh session with the smallest configuration, byte by byte. -/
def smallestHeader : Bytes
  | 0 => 0x34 | 1 => 0x46 | 2 => 0x4D | 3 => 0x53
  | 4 => 5 | 8 => 77
  | 16 => 0xC0 | 17 => 0x04
  | 24 => 1 | 28 => 1 | 32 => 1 | 36 => 3 | 40 => 1 | 44 => 1
  | 48 => 0xC0 | 49 => 0x01
  | 56 => 0x80
  | 64 => 0x40 | 65 => 0x03
  | 73 => 0x04
  | 80 => 0xC0
  | 88 => 0x40
  | _ => 0

/-- It echoes the configuration. -/
theorem smallestHeader_laid : Laid smallest smallestHeader := by
  intro word value known
  cases word <;> cases known <;> decide +kernel

/-- The publisher publishes a frame of one pixel. -/
def publishPixel : List SharedAction :=
  .publisher (.call (.publish (some fun _ => 9) 1 1 0))
  :: List.replicate 15 (.publisher (.access 9000000000)) ++ [.publisher .finish]

/-- A subscriber attaches, claims the channel and sends a command of one byte. -/
def attachAndSend : List SharedAction :=
  .subscriber 0 (.call (.open_ []))
  :: List.replicate 32 (.subscriber 0 (.access { nowNs := 5, opens := some 0, patience := 1 }))
  ++ [.subscriber 0 .finish, .subscriber 0 (.call (.send { size := 1, data := some fun _ => 7 }))]
  ++ List.replicate 13 (.subscriber 0 (.access { nowNs := 6 })) ++ [.subscriber 0 .finish]

/-- The publisher publishes the same frame alone, and after a subscriber has claimed the
channel and sent a command.
-/
theorem subscribers_cannotInfluence_send
    : ∃ s t : Shared,
        (sharedMachine fun _ => 1216).run (.create smallest fun _ => smallestHeader) publishPixel
          = some s
        ∧ (sharedMachine fun _ => 1216).run (.create smallest fun _ => smallestHeader)
            (attachAndSend ++ publishPixel)
          = some t
        ∧ s.publisher.returns = [.published true]
        ∧ t.bytes 0 1024 = 1
        ∧ t.publisher.returns = s.publisher.returns
        ∧ ∀ offset, FrameByte smallest offset → t.bytes 0 offset = s.bytes 0 offset := by
  have alone
      : ((sharedMachine fun _ => 1216).run (.create smallest fun _ => smallestHeader)
            publishPixel).any
          (fun s => s.publisher.returns = [.published true])
        = true := by
    decide +kernel
  have together
      : ((sharedMachine fun _ => 1216).run (.create smallest fun _ => smallestHeader)
            (attachAndSend ++ publishPixel)).any
          (fun t => t.bytes 0 1024 = 1)
        = true := by
    decide +kernel
  obtain ⟨s, left, returned⟩ := Machine.reaches_of_any alone
  obtain ⟨t, right, sent⟩ := Machine.reaches_of_any together
  rw [decide_eq_true_eq] at returned sent
  have valid : configValid smallest = true := by decide +kernel
  have sameCalls
      : publishPixel.filter SharedAction.ofPublisher
        = (attachAndSend ++ publishPixel).filter SharedAction.ofPublisher :=
    rfl
  exact ⟨s, t, left, right, returned, sent,
    subscribers_cannotInfluence valid smallestHeader_laid smallestHeader_laid (fun _ _ => rfl)
      sameCalls left right⟩

end ShmFrame.Accesses
