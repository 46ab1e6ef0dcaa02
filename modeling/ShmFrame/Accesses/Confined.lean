import ShmFrame.Accesses.Areas

/-! What the subscriber's calls do to shared memory, one lemma for each of them: all their
accesses are proper, and they keep the mapping they work on.
-/

namespace ShmFrame.Accesses

open ShmFrame.Foundation ShmFrame.Foundation.Program LLSubscriber

variable {k : Knowledge} {limit : Nat → Nat} {g : Nat}

-----------------------------------------------------------------------------------------
-- Single accesses
-----------------------------------------------------------------------------------------

/-- The segment is large enough for a header. -/
def Knowledge.Large (k : Knowledge) (g : Nat) : Prop :=
  k.trusted g → sizeofLLHeader.toNat ≤ (k.size g).toNat

/-- What performs proper accesses only is harmless, however much it may copy. -/
theorem ensures_harmless {Value : Type} {program : Access Value}
    {required : Value → Unit → Prop}
    (proper : program.Ensures k.environment (Proper k fun _ => 0) () required)
    : program.Ensures k.environment (Harmless k) () required :=
  proper.mono (fun _ => Proper.harmless) fun _ _ => id

/-- A load that lies in its area is proper. -/
theorem Proper.load {area : Area} {span : Span}
    (within : k.trusted g → Within (k.config g) (k.size g) area span)
    : Proper k limit (.load g area span) where
  place := fun _ _ _ written => by cases written
  within := fun _ _ _ target trusted => by
    cases target
    exact within trusted
  copied := fun _ _ _ _ copies => by cases copies

/-- So is a store to where subscribers may store. -/
theorem Proper.store {area : Area} {span : Span} {value : UInt64}
    (subscribable : Subscribable area span)
    (within : k.trusted g → Within (k.config g) (k.size g) area span)
    : Proper k limit (.store g area span value) where
  place := fun _ _ _ written => by
    cases written
    exact subscribable
  within := fun _ _ _ target trusted => by
    cases target
    exact within trusted
  copied := fun _ _ _ _ copies => by cases copies

/-- A question is no access. -/
theorem Proper.ask (question : Question) : Proper k limit (.ask question) where
  place := fun _ _ _ written => by cases written
  within := fun _ _ _ target => by cases target
  copied := fun _ _ _ _ copies => by cases copies

/-- Some question to the outside. -/
theorem ask_ensures (question : Question)
    : (access (.ask question)).Ensures k.environment (Proper k limit) () fun answer _ =>
        k.Consistent (.ask question) answer :=
  ⟨.ask question, fun _ _ consistent => consistent⟩

/-- A word of the header. -/
theorem loadHeader_ensures (large : k.Large g) (word : HeaderWord)
    : (loadHeader g word).Ensures k.environment (Proper k limit) () fun value _ =>
        k.Consistent (.load g .header word.place) value :=
  ⟨.load fun trusted => .header (large trusted) word, fun _ _ consistent => consistent⟩

/-- A configuration word of the header has its known value. -/
theorem loadHeader_known {word : HeaderWord} {value : UInt64}
    (known : configWord (k.config g) word = some value) (large : k.Large g)
    : (loadHeader g word).Ensures k.environment (Proper k limit) () fun found _ =>
        k.trusted g → found = value :=
  (loadHeader_ensures large word).mono (fun _ => id) fun _ _ consistent trusted =>
    consistent trusted word value known rfl

/-- An owner word is stored. -/
theorem storeHeader_ensures (large : k.Large g) {word : HeaderWord}
    (owner : Subscribable .header word.place) (value : UInt64)
    : (storeHeader g word value).Ensures k.environment (Proper k limit) () fun _ _ => True :=
  ⟨.store owner fun trusted => .header (large trusted) word, fun _ _ _ => trivial⟩

/-- The owner word is exchanged. -/
theorem exchangeHeader_ensures (large : k.Large g) (expected desired : UInt64)
    : (exchangeHeader g .commandOwnerGen expected desired).Ensures k.environment
        (Proper k limit) () fun _ _ => True :=
  ⟨
    {
      place := fun _ _ _ written => by
        cases written
        exact .inl rfl
      within := fun _ _ _ target trusted => by
        cases target
        exact .header (large trusted) .commandOwnerGen
      copied := fun _ _ _ _ copies => by cases copies
    },
    fun _ _ _ => trivial
  ⟩

/-- Bytes of an area are copied out, by induction on their number. -/
theorem copyOut_ensures {area : Area} {first : UInt64} {count : Nat}
    (within
      : ∀ index < count,
          k.trusted g → Within (k.config g) (k.size g) area ⟨first.toNat + index, 1⟩)
    (room : k.trusted g → count ≤ limit g)
    : (copyOut g area first count).Ensures k.environment (Proper k limit) () fun _ _ => True := by
  induction count with
  | zero => exact trivial
  | succ count ih =>
      refine Ensures.bind (ih (fun index below => within index (Nat.lt_succ_of_lt below))
        fun trusted => Nat.le_of_succ_le (room trusted)) fun front _ _ => ?_
      refine ⟨{
        place := fun _ _ _ written => by cases written
        within := fun _ _ _ target trusted => ?_
        copied := fun _ _ _ _ copies trusted => ?_
      }, fun _ _ _ => trivial⟩
      · cases target
        exact within count (Nat.lt_succ_self count) trusted
      · cases copies
        exact room trusted

/-- Bytes are copied to an area, by induction on their number. -/
theorem copyIn_ensures {area : Area} {first : Nat} {source : Nat → UInt8} {count : Nat}
    (subscribable : ∀ span, Subscribable area span)
    (within
      : ∀ index < count, k.trusted g → Within (k.config g) (k.size g) area ⟨first + index, 1⟩)
    : (copyIn g area first source count).Ensures k.environment (Proper k limit) () fun _ _ =>
        True := by
  induction count with
  | zero => exact trivial
  | succ count ih =>
      refine Ensures.bind (ih fun index below => within index (Nat.lt_succ_of_lt below))
        fun _ _ _ => ?_
      exact ⟨.store (subscribable _) (within count (Nat.lt_succ_self count)),
        fun _ _ _ => trivial⟩

-----------------------------------------------------------------------------------------
-- Attaching
-----------------------------------------------------------------------------------------

/-- What `try_connect` has made sure of in a segment whose configuration is known. -/
structure Fits (k : Knowledge) (g : Nat) (m : Impl) : Prop where
  valid : configValid (echoed (k.config g)) = true
  size : (computeLayout (k.config g)).totalSize.toNat ≤ (k.size g).toNat
  layout : m.layout = computeLayout (k.config g)
  slots : m.remote.slotCount = (k.config g).slotCount
  payload : m.remote.maxPayload = (k.config g).maxPayload
  tx : m.tx = { (k.config g).upstreamRing with base := some g }
  rx : m.rx = { (k.config g).downstreamRing with base := some g }

/-- If the subscriber is attached, it is so to the segment its ring handles lead to. -/
structure Attached (k : Knowledge) (m : Impl) : Prop where
  tx : ∀ g, m.hdr = some g → m.tx.base = some g
  rx : ∀ g, m.hdr = some g → m.rx.base = some g
  fits : ∀ g, m.hdr = some g → k.trusted g → Fits k g m

/-- A subscriber that is not attached. -/
theorem Attached.detached {m : Impl} (detached : m.hdr = none) : Attached k m where
  tx := fun g attached => by
    rw [detached] at attached
    cases attached
  rx := fun g attached => by
    rw [detached] at attached
    cases attached
  fits := fun g attached => by
    rw [detached] at attached
    cases attached

/-- The part of the private state that says where a subscriber is attached. -/
structure SameMapping (m next : Impl) : Prop where
  hdr : next.hdr = m.hdr
  layout : next.layout = m.layout
  remote : next.remote = m.remote
  tx : next.tx = m.tx
  rx : next.rx = m.rx

theorem SameMapping.refl (m : Impl) : SameMapping m m := ⟨rfl, rfl, rfl, rfl, rfl⟩

/-- A subscriber stays attached while that part stays as it is. -/
theorem Attached.keep {m next : Impl} (attached : Attached k m) (same : SameMapping m next)
    : Attached k next where
  tx := fun g there => by
    rw [same.tx]
    exact attached.tx g (same.hdr ▸ there)
  rx := fun g there => by
    rw [same.rx]
    exact attached.rx g (same.hdr ▸ there)
  fits := fun g there trusted => by
    have fits := attached.fits g (same.hdr ▸ there) trusted
    exact ⟨fits.valid, fits.size, same.layout.trans fits.layout, same.remote ▸ fits.slots,
      same.remote ▸ fits.payload, same.tx.trans fits.tx, same.rx.trans fits.rx⟩

/-- A mapping that fits its configuration has room for a header. -/
theorem Attached.large {m : Impl} (attached : Attached k m) (there : m.hdr = some g)
    : k.Large g := by
  intro trusted
  have fits := attached.fits g there trusted
  have exists_ : Area.header.Exists (k.config g) := trivial
  have inside := (Area.span_inside (bounded_of_echoed fits.valid) exists_).2
  simp only [Area.span, Span.last, Nat.zero_add] at inside
  exact inside.trans fits.size

/-- The configuration of a known segment is what is loaded from it. -/
theorem loadConfig_ensures (large : k.Large g)
    : (loadConfig g).Ensures k.environment (Proper k limit) () fun c _ =>
        k.trusted g → c = echoed (k.config g) := by
  refine Ensures.bind (loadHeader_known rfl large) fun width _ widthKnown => ?_
  refine Ensures.bind (loadHeader_known rfl large) fun height _ heightKnown => ?_
  refine Ensures.bind (loadHeader_known rfl large) fun depth _ depthKnown => ?_
  refine Ensures.bind (loadHeader_known rfl large) fun slots _ slotsKnown => ?_
  refine Ensures.bind (loadHeader_known rfl large) fun commands _ commandsKnown => ?_
  refine Ensures.bind (loadHeader_known rfl large) fun bytes _ bytesKnown => ?_
  intro trusted
  simp only [widthKnown trusted, heightKnown trusted, depthKnown trusted, slotsKnown trusted,
    commandsKnown trusted, bytesKnown trusted, UInt32.toUInt32_toUInt64, echoed]

/-- Comparing words of the header is proper, by induction on the comparisons. -/
theorem agrees_ensures (large : k.Large g) (words : List (HeaderWord × UInt64))
    : (agrees g words).Ensures k.environment (Proper k limit) () fun _ _ => True := by
  induction words with
  | nil => exact trivial
  | cons head rest ih =>
      obtain ⟨word, value⟩ := head
      refine Ensures.bind (loadHeader_ensures large word) fun found _ _ => ?_
      exact Ensures.ite (fun _ => trivial) fun _ => ih

/-- Validation only succeeds where the segment fits. -/
theorem validateHeader_ensures
    : (validateHeader g).Ensures k.environment (Proper k limit) () fun result _ =>
        ∀ cl,
          result = some cl
          → k.Large g
            ∧ (k.trusted g
                → cl = computeLayout (k.config g)
                  ∧ configValid (echoed (k.config g)) = true
                  ∧ (computeLayout (k.config g)).totalSize.toNat ≤ (k.size g).toNat) := by
  have refused
      : (pure none : Access (Option LLLayout)).Ensures k.environment (Proper k limit) ()
          fun result _ =>
            ∀ cl,
              result = some cl
              → k.Large g
                ∧ (k.trusted g
                    → cl = computeLayout (k.config g)
                      ∧ configValid (echoed (k.config g)) = true
                      ∧ (computeLayout (k.config g)).totalSize.toNat ≤ (k.size g).toNat) :=
    fun cl none_ => by cases none_
  refine Ensures.bind (ask_ensures (.sizeOf g)) fun size _ sized => ?_
  refine Ensures.ite (fun _ => refused) fun notSmall => ?_
  have large : k.Large g := fun trusted => by
    rw [← sized trusted]
    exact UInt64.le_iff_toNat_le.mp (UInt64.not_lt.mp notSmall)
  refine Ensures.bind (loadHeader_ensures large _) fun magic _ _ => ?_
  refine Ensures.ite (fun _ => refused) fun _ => ?_
  refine Ensures.bind (loadHeader_ensures large _) fun version _ _ => ?_
  refine Ensures.ite (fun _ => refused) fun _ => ?_
  refine Ensures.bind (loadConfig_ensures large) fun c _ loaded => ?_
  refine Ensures.ite (fun _ => refused) fun valid => ?_
  refine Ensures.bind (agrees_ensures large _) fun agree _ _ => ?_
  refine Ensures.ite (fun _ => refused) fun _ => ?_
  refine Ensures.ite (fun _ => refused) fun fits => ?_
  rintro cl validated
  obtain rfl := Option.some.inj validated
  refine ⟨large, fun trusted => ?_⟩
  rw [loaded trusted] at valid fits ⊢
  rw [sized trusted] at fits
  exact ⟨rfl, by simpa using valid, UInt64.le_iff_toNat_le.mp (UInt64.not_lt.mp fits)⟩

/-- An age is the difference of two reads. -/
theorem ageOf_ensures (large : k.Large g) (word : HeaderWord)
    : (ageOf g word).Ensures k.environment (Proper k limit) () fun _ _ => True := by
  refine Ensures.bind (ask_ensures .clockFirst) fun first _ _ => ?_
  refine Ensures.ite (fun _ => ?_) fun _ => ?_
  · refine Ensures.bind (ask_ensures .nowNs) fun now _ _ => ?_
    exact Ensures.bind (loadHeader_ensures large word) fun beat _ _ => trivial
  · refine Ensures.bind (loadHeader_ensures large word) fun beat _ _ => ?_
    exact Ensures.bind (ask_ensures .nowNs) fun now _ _ => trivial

/-- Judging the present claim is proper. -/
theorem genuinelyHeld_ensures (large : k.Large g) (existing : UInt64)
    : (genuinelyHeld g existing).Ensures k.environment (Proper k limit) () fun _ _ => True := by
  refine Ensures.ite (fun _ => trivial) fun _ => ?_
  exact Ensures.bind (ageOf_ensures large _) fun age _ _ => trivial

/-- So is the exchange. -/
theorem exchangeWeak_ensures (large : k.Large g) (existing claim : UInt64)
    : (exchangeWeak g existing claim).Ensures k.environment (Proper k limit) () fun _ _ =>
        True := by
  refine Ensures.bind (ask_ensures .spurious) fun fails _ _ => ?_
  refine Ensures.ite (fun _ => ?_) fun _ => ?_
  · exact Ensures.bind (loadHeader_ensures large _) fun found _ _ => trivial
  · exact Ensures.bind (exchangeHeader_ensures large _ _) fun found _ _ => trivial

/-- The claim loop keeps the mapping, by induction on its rounds. -/
theorem claimLoop_ensures (large : k.Large g) (m : Impl) (existing : UInt64) (rounds : Nat)
    : (claimLoop g m existing rounds).Ensures k.environment (Proper k limit) () fun next _ =>
        SameMapping m next := by
  induction rounds generalizing existing with
  | zero =>
      refine ⟨?_, fun never => nomatch never⟩
      exact
        {
          place := fun _ _ _ written => by cases written
          within := fun _ _ _ target => by cases target
          copied := fun _ _ _ _ copies => by cases copies
        }
  | succ rounds ih =>
      refine Ensures.bind (genuinelyHeld_ensures large existing) fun held _ _ => ?_
      refine Ensures.ite (fun _ => .refl m) fun _ => ?_
      refine Ensures.bind (ask_ensures .nowNs) fun now _ _ => ?_
      refine Ensures.bind (exchangeWeak_ensures large _ _) fun outcome _ _ => ?_
      refine Ensures.ite (fun _ => ?_) fun _ => ih outcome.1
      refine Ensures.bind (ask_ensures .nowNs) fun beat _ _ => ?_
      refine Ensures.bind (storeHeader_ensures large (.inr rfl) _) fun _ _ _ => ?_
      exact ⟨rfl, rfl, rfl, rfl, rfl⟩

/-- After the adoption of a validated segment the subscriber is attached to it. -/
theorem adopt_ensures {m : Impl} {cl : LLLayout} (large : k.Large g)
    (validated
      : k.trusted g
        → cl = computeLayout (k.config g)
          ∧ configValid (echoed (k.config g)) = true
          ∧ (computeLayout (k.config g)).totalSize.toNat ≤ (k.size g).toNat)
    : (adopt m g cl).Ensures k.environment (Proper k limit) () fun next _ =>
        Attached k next := by
  refine Ensures.bind (loadConfig_ensures large) fun c _ loaded => ?_
  refine Ensures.bind (loadHeader_ensures large _) fun session _ _ => ?_
  refine Ensures.bind (loadHeader_ensures large _) fun existing _ _ => ?_
  refine Ensures.bind (ask_ensures .patience) fun rounds _ _ => ?_
  refine Ensures.bind (claimLoop_ensures large _ _ _) fun claimed _ same => ?_
  have here : ∀ other, claimed.hdr = some other → other = g := fun other there => by
    rw [same.hdr] at there
    exact (Option.some.inj there).symm
  refine ⟨fun other there => ?_, fun other there => ?_, fun other there trusted => ?_⟩
  · rw [here other there]
  · rw [here other there]
  · obtain rfl := here other there
    obtain ⟨rfl, valid, size⟩ := validated trusted
    obtain rfl := loaded trusted
    have remote : claimed.remote = { echoed (k.config other) with name := m.name } := same.remote
    refine ⟨valid, size, same.layout, ?_, ?_, rfl, rfl⟩
    · change claimed.remote.slotCount = _
      rw [remote]
      rfl
    · change claimed.remote.maxPayload = _
      rw [remote]
      rfl

/-- An attempt to connect leaves the subscriber attached, to the old segment or to a new one. -/
theorem tryConnect_ensures {m : Impl} (attached : Attached k m)
    : (tryConnect m).Ensures k.environment (Proper k limit) () fun next _ =>
        Attached k next := by
  refine Ensures.bind (ask_ensures .opens) fun found _ _ => ?_
  cases found with
  | none => exact attached
  | some g =>
      refine Ensures.bind validateHeader_ensures fun result _ validated => ?_
      cases result with
      | none => exact attached
      | some cl =>
          obtain ⟨large, known⟩ := validated cl rfl
          have compared
              : (sameSession m g).Ensures k.environment (Proper k limit) () fun _ _ => True := by
            refine Ensures.ite (fun _ => trivial) fun _ => ?_
            exact Ensures.bind (loadHeader_ensures large _) fun session _ _ => trivial
          refine Ensures.bind compared fun same _ _ => ?_
          exact Ensures.ite (fun _ => attached) fun _ => adopt_ensures large known

/-- A new subscriber is attached, if it is. -/
theorem openSubscriber_ensures (name : Name)
    : (openSubscriber name).Ensures k.environment (Proper k limit) () fun m _ =>
        Attached k m :=
  Ensures.bind (ask_ensures .nowNs) fun _ _ _ => tryConnect_ensures (.detached rfl)

-----------------------------------------------------------------------------------------
-- Polling
-----------------------------------------------------------------------------------------

/-- Refreshing the claim keeps the mapping. -/
theorem stillOwnsCommands_ensures (large : k.Large g) (m : Impl)
    : (stillOwnsCommands m g).Ensures k.environment (Proper k limit) () fun next _ =>
        SameMapping m next := by
  refine Ensures.ite (fun _ => .refl m) fun _ => ?_
  refine Ensures.bind (loadHeader_ensures large _) fun gen _ _ => ?_
  refine Ensures.ite (fun _ => ⟨rfl, rfl, rfl, rfl, rfl⟩) fun _ => ?_
  refine Ensures.bind (ask_ensures .nowNs) fun now _ _ => ?_
  exact Ensures.bind (storeHeader_ensures large (.inr rfl) _) fun _ _ _ => .refl m

/-- Asking for the heartbeat is proper. -/
theorem producerResponsive_ensures {m : Impl} (attached : Attached k m)
    : (producerResponsive m).Ensures k.environment (Proper k limit) () fun _ _ => True := by
  unfold producerResponsive
  split
  · rename_i g there
    exact Ensures.bind (ageOf_ensures (attached.large there) _) fun age _ _ => trivial
  · exact trivial

/-- The first thing `poll` does keeps the mapping. -/
theorem refreshClaim_ensures {m : Impl} (attached : Attached k m)
    : (refreshClaim m).Ensures k.environment (Proper k limit) () fun next _ =>
        SameMapping m next := by
  unfold refreshClaim
  split
  · rename_i g there
    exact stillOwnsCommands_ensures (attached.large there) m
  · exact .refl m

/-- `poll` leaves the subscriber attached. -/
theorem poll_ensures {m : Impl} (attached : Attached k m)
    : (poll m).Ensures k.environment (Proper k limit) () fun polled _ =>
        Attached k polled.1 := by
  refine Ensures.bind (ask_ensures .nowNs) fun now _ _ => ?_
  refine Ensures.bind (refreshClaim_ensures attached) fun refreshed _ same => ?_
  have kept := attached.keep same
  refine Ensures.ite (fun _ => kept) fun _ => ?_
  refine Ensures.bind (producerResponsive_ensures kept) fun responsive _ _ => ?_
  refine Ensures.ite (fun _ => kept) fun _ => ?_
  refine Ensures.ite (fun _ => kept) fun _ => ?_
  have noted : Attached k { refreshed with lastAttempt := now } :=
    kept.keep ⟨rfl, rfl, rfl, rfl, rfl⟩
  refine Ensures.bind (tryConnect_ensures noted) fun connected _ again => ?_
  have progressed : Attached k { connected with lastProgress := now } :=
    again.keep ⟨rfl, rfl, rfl, rfl, rfl⟩
  exact Ensures.bind (producerResponsive_ensures progressed) fun _ _ _ => progressed

-----------------------------------------------------------------------------------------
-- Reading frames
-----------------------------------------------------------------------------------------

/-- The words of a slot that exists. -/
theorem loadSlot_ensures {m : Impl} (fits : k.trusted g → Fits k g m) {slot : UInt32}
    (there : k.trusted g → slot < (k.config g).slotCount) (word : SlotWord)
    : (loadSlot g m.layout slot word).Ensures k.environment (Proper k limit) () fun _ _ =>
        True := by
  refine ⟨.load fun trusted => ?_, fun _ _ _ => trivial⟩
  have known := fits trusted
  rw [known.layout]
  exact .of_valid known.valid known.size (there trusted) (at_inside rfl word.place_inside)

/-- The metadata of a slot that exists. -/
theorem loadInfo_ensures {m : Impl} (fits : k.trusted g → Fits k g m) {slot : UInt32}
    (there : k.trusted g → slot < (k.config g).slotCount)
    : (loadInfo g m.layout slot).Ensures k.environment (Proper k limit) () fun _ _ => True := by
  refine Ensures.bind (loadSlot_ensures fits there _) fun frameId _ _ => ?_
  refine Ensures.bind (loadSlot_ensures fits there _) fun timestampNs _ _ => ?_
  refine Ensures.bind (loadSlot_ensures fits there _) fun width _ _ => ?_
  refine Ensures.bind (loadSlot_ensures fits there _) fun height _ _ => ?_
  refine Ensures.bind (loadSlot_ensures fits there _) fun stride _ _ => ?_
  exact Ensures.bind (loadSlot_ensures fits there _) fun payloadBytes _ _ => trivial

/-- The bytes that `read_latest` may copy from a segment into a buffer. -/
def Knowledge.readable (k : Knowledge) (capacity : UInt64) (g : Nat) : Nat :=
  min capacity.toNat (k.config g).maxPayload.toNat

/-- One attempt on a slot that exists. -/
theorem readSlot_ensures {m : Impl} (fits : k.trusted g → Fits k g m) {slot : UInt32}
    (there : k.trusted g → slot < (k.config g).slotCount) (capacity : UInt64)
    (info : LLFrameInfo) (before : UInt64)
    : (readSlot m g capacity info slot before).Ensures k.environment
        (Proper k (k.readable capacity)) () fun result _ =>
          ∀ outcome, result = some outcome → SameMapping m outcome.1 := by
  have again {kept : Access (Option (Impl × ReadReturn))}
      (here
        : kept.Ensures k.environment (Proper k (k.readable capacity)) () fun result _ =>
            ∀ outcome, result = some outcome → SameMapping m outcome.1)
      : (do
          if (← loadSlot g m.layout slot .seq) ≠ before then return none
          kept : Access (Option (Impl × ReadReturn))).Ensures k.environment
            (Proper k (k.readable capacity)) () fun result _ =>
              ∀ outcome, result = some outcome → SameMapping m outcome.1 := by
    refine Ensures.bind (loadSlot_ensures fits there _) fun seq _ _ => ?_
    exact Ensures.ite (fun _ _ none_ => by cases none_) fun _ => here
  have unmoved (result : ReadReturn) (outcome : Impl × ReadReturn)
      (same : some (m, result) = some outcome)
      : SameMapping m outcome.1 := by
    cases same
    exact .refl m
  refine Ensures.bind (loadInfo_ensures fits there) fun fi _ _ => ?_
  refine Ensures.ite (fun _ => again fun outcome same => unmoved _ outcome same) fun sized => ?_
  refine Ensures.ite (fun _ => again fun outcome same => unmoved _ outcome same) fun room => ?_
  simp only [Bool.or_eq_true, decide_eq_true_eq, not_or, gt_iff_lt, UInt64.not_lt] at sized room
  have small (trusted : k.trusted g)
      : fi.payloadBytes.toUInt64.toNat ≤ (k.config g).maxPayload.toNat := by
    rw [← (fits trusted).payload]
    exact UInt64.le_iff_toNat_le.mp sized.2
  refine Ensures.bind (copyOut_ensures (fun index below trusted => ?_) fun trusted => ?_)
    fun dst _ _ => again ?_
  · have known := fits trusted
    rw [known.layout]
    have bytes := small trusted
    refine .of_valid known.valid known.size (there trusted) ⟨?_, ?_⟩
    · exact Nat.le_add_right _ _
    · simp only [Span.last, Area.span]
      omega
  · exact Nat.le_min.mpr ⟨UInt64.le_iff_toNat_le.mp room, small trusted⟩
  · refine Ensures.bind (ask_ensures .nowNs) fun now _ _ => ?_
    rintro outcome same
    cases same
    exact ⟨rfl, rfl, rfl, rfl, rfl⟩

/-- The attempts of `read_latest` keep the mapping, by induction on their number. -/
theorem readAttempts_ensures {m : Impl} (attached : Attached k m) (there : m.hdr = some g)
    (capacity : UInt64) (info : LLFrameInfo) (attempts : Nat)
    : (readAttempts m g capacity info attempts).Ensures k.environment
        (Proper k (k.readable capacity)) () fun outcome _ => SameMapping m outcome.1 := by
  have large := attached.large there
  have fits := attached.fits g there
  induction attempts with
  | zero => exact .refl m
  | succ attempts ih =>
      refine Ensures.bind (loadHeader_ensures large _) fun packed _ _ => ?_
      refine Ensures.ite (fun _ => ?_) fun _ => ?_
      · refine Ensures.bind (loadHeader_ensures large _) fun shutdown _ _ => ?_
        exact Ensures.ite (fun _ => ⟨rfl, rfl, rfl, rfl, rfl⟩) fun _ => .refl m
      refine Ensures.ite (fun _ => .refl m) fun exists_ => ?_
      have slot (trusted : k.trusted g) : latestSlot packed < (k.config g).slotCount := by
        rw [← (fits trusted).slots]
        exact UInt32.not_le.mp exists_
      refine Ensures.bind (loadSlot_ensures fits slot _) fun before _ _ => ?_
      refine Ensures.ite (fun _ => ih) fun _ => ?_
      refine Ensures.bind (readSlot_ensures fits slot capacity info before)
        fun result _ same => ?_
      cases result with
      | none => exact ih
      | some outcome => exact same outcome rfl

/-- The rate gate keeps the mapping. -/
theorem readGate_same (m : Impl) (now : UInt64) : SameMapping m (m.readGate now).1 := by
  by_cases limited : m.minReadNs ≠ 0
  · rw [Impl.readGate, if_pos limited]
    split
    · exact ⟨rfl, rfl, rfl, rfl, rfl⟩
    · exact ⟨rfl, rfl, rfl, rfl, rfl⟩
  · rw [Impl.readGate, if_neg limited]
    exact .refl m

/-- `read_latest` leaves the subscriber attached, and its copies fit the buffer and a frame. -/
theorem readLatest_ensures {m : Impl} (attached : Attached k m) (capacity : UInt64)
    (info : LLFrameInfo)
    : (readLatest m capacity info).Ensures k.environment (Proper k (k.readable capacity)) ()
        fun outcome _ => Attached k outcome.1 := by
  refine Ensures.bind (poll_ensures attached) fun polled _ kept => ?_
  refine Ensures.ite (fun _ => kept) fun _ => ?_
  have gate
      : (rateGate polled.1).Ensures k.environment (Proper k (k.readable capacity)) ()
          fun gated _ => SameMapping polled.1 gated.1 := by
    refine Ensures.ite (fun _ => .refl _) fun _ => ?_
    refine Ensures.bind (ask_ensures .nowNs) fun now _ _ => ?_
    exact readGate_same polled.1 now
  refine Ensures.bind gate fun gated _ same => ?_
  have passed := kept.keep same
  refine Ensures.ite (fun _ => passed) fun _ => ?_
  split
  · rename_i g there
    exact (readAttempts_ensures passed there capacity info 4).mono (fun _ => id)
      fun outcome _ same => passed.keep same
  · exact passed

/-- The vector overload leaves the subscriber attached. -/
theorem readLatestVector_ensures {m : Impl} (attached : Attached k m) (size : UInt64)
    (info : LLFrameInfo)
    : (readLatestVector m size info).Ensures k.environment
        (Proper k fun g => (k.config g).maxPayload.toNat) () fun outcome _ =>
          Attached k outcome.1 := by
  refine Ensures.bind (poll_ensures attached) fun polled _ kept => ?_
  refine Ensures.ite (fun _ => kept) fun _ => ?_
  have gate
      : (cheapGate polled.1).Ensures k.environment
          (Proper k fun g => (k.config g).maxPayload.toNat) () fun gated _ =>
            SameMapping polled.1 gated.1 := by
    refine Ensures.ite (fun _ => .refl _) fun _ => ?_
    refine Ensures.bind (ask_ensures .nowNs) fun now _ _ => ?_
    exact Ensures.ite (fun _ => ⟨rfl, rfl, rfl, rfl, rfl⟩) fun _ => .refl _
  refine Ensures.bind gate fun gated _ same => ?_
  have passed := kept.keep same
  refine Ensures.ite (fun _ => passed) fun _ => ?_
  exact (readLatest_ensures passed _ info).mono
    (fun _ => Proper.mono fun _ _ => Nat.min_le_right _ _) fun _ _ => id

-----------------------------------------------------------------------------------------
-- Commands
-----------------------------------------------------------------------------------------

/-- A handle of a ring in some segment: where the configuration is known it is the one that
the configuration leads to.
-/
structure RingHandle.Leads (k : Knowledge) (g : Nat) (h : RingHandle) : Prop where
  base : h.ring.base = some g
  valid : k.trusted g → configValid (echoed (k.config g)) = true
  size : k.trusted g → (computeLayout (k.config g)).totalSize.toNat ≤ (k.size g).toNat
  layout : k.trusted g → h.layout = computeLayout (k.config g)
  offset : k.trusted g → h.ring.offset = (computeLayout (k.config g)).ringOffset h.direction
  slots : k.trusted g → h.ring.slots = (k.config g).commandSlots
  maxBytes : k.trusted g → h.ring.maxBytes = (k.config g).maxCommandBytes

namespace RingHandle

variable {h : RingHandle}

/-- A word of the ring header is within it. -/
theorem Leads.header (leads : h.Leads k g) (word : RingWord) (trusted : k.trusted g)
    : Within (k.config g) (k.size g) (.ringHeader h.direction)
        (at_ (ringAt h.ring.offset) word.place) := by
  rw [leads.offset trusted]
  exact .of_valid (leads.valid trusted) (leads.size trusted) trivial
    (at_inside rfl word.place_inside)

/-- The cell of a counter exists, and is where the accessor says. -/
theorem Leads.cell (leads : h.Leads k g) (counter : UInt64) (trusted : k.trusted g)
    : (h.area counter).Exists (k.config g)
      ∧ ((h.area counter).span (k.config g)).first = (h.cell counter).toNat
      ∧ ((h.area counter).span (k.config g)).size
        = sizeofLLCmdHeader.toNat + (k.config g).maxCommandBytes.toNat := by
  have slots := leads.slots trusted
  have some_ : h.ring.slots ≠ 0 := by
    have positive := (bounded_of_echoed (leads.valid trusted)).commands.1
    rw [slots]
    rintro zero
    rw [zero] at positive
    exact absurd positive (by decide)
  refine ⟨?_, ?_, rfl⟩
  · have below := index_below some_ counter
    rw [slots] at below
    exact below
  · rw [RingHandle.cell, leads.offset trusted, leads.layout trusted]
    rfl

/-- A word of the cell header is within the cell. -/
theorem Leads.cmd (leads : h.Leads k g) (counter : UInt64) (word : CmdWord)
    (trusted : k.trusted g)
    : Within (k.config g) (k.size g) (h.area counter) (at_ (h.cell counter) word.place) := by
  obtain ⟨there, first, size⟩ := leads.cell counter trusted
  refine .of_valid (leads.valid trusted) (leads.size trusted) there (at_inside first ?_)
  rw [size]
  exact word.place_inside.trans (Nat.le_add_right _ _)

/-- A byte behind the cell header is within the cell, up to the maximal size. -/
theorem Leads.payload (leads : h.Leads k g) (counter : UInt64) {index : Nat}
    (trusted : k.trusted g) (below : index < (k.config g).maxCommandBytes.toNat)
    : Within (k.config g) (k.size g) (h.area counter)
        ⟨(cmdPayload (h.cell counter)).toNat + index, 1⟩ := by
  obtain ⟨there, first, size⟩ := leads.cell counter trusted
  have valid := leads.valid trusted
  have follows
      : (cmdPayload (h.cell counter)).toNat
        = ((h.area counter).span (k.config g)).first + 32 := by
    have collision := (layout_collisionFree valid).2.2.2 h.direction (h.index counter) there
    rw [RingHandle.cell, leads.offset trusted, leads.layout trusted]
    exact collision
  have header : sizeofLLCmdHeader.toNat = 32 := rfl
  refine .of_valid valid (leads.size trusted) there ⟨?_, ?_⟩
  · rw [follows]
    exact (Nat.le_add_right _ _).trans (Nat.le_add_right _ _)
  · simp only [Span.last]
    omega

/-- A word of the ring header is loaded. -/
theorem load_ensures (leads : h.Leads k g) (word : RingWord)
    : (h.load g word).Ensures k.environment (Proper k limit) () fun _ _ => True :=
  ⟨.load (leads.header word), fun _ _ _ => trivial⟩

/-- A word of the ring header is stored. -/
theorem store_ensures (leads : h.Leads k g) (word : RingWord) (value : UInt64)
    : (h.store g word value).Ensures k.environment (Proper k limit) () fun _ _ => True :=
  ⟨.store trivial (leads.header word), fun _ _ _ => trivial⟩

/-- A word of a cell is loaded. -/
theorem loadCmd_ensures (leads : h.Leads k g) (counter : UInt64) (word : CmdWord)
    : (h.loadCmd g counter word).Ensures k.environment (Proper k limit) () fun _ _ => True :=
  ⟨.load (leads.cmd counter word), fun _ _ _ => trivial⟩

/-- A word of a cell is stored. -/
theorem storeCmd_ensures (leads : h.Leads k g) (counter : UInt64) (word : CmdWord)
    (value : UInt64)
    : (h.storeCmd g counter word value).Ensures k.environment (Proper k limit) () fun _ _ =>
        True :=
  ⟨.store trivial (leads.cmd counter word), fun _ _ _ => trivial⟩

/-- `push` is proper, whatever it finds in the ring. -/
theorem push_ensures (leads : h.Leads k g) (call : Commands.PushCall)
    : (h.push call).Ensures k.environment (Proper k limit) () fun _ _ => True := by
  unfold push
  rw [leads.base]
  refine Ensures.ite (fun _ => trivial) fun small => ?_
  refine Ensures.bind (load_ensures leads _) fun head _ _ => ?_
  refine Ensures.bind (load_ensures leads _) fun tail _ _ => ?_
  refine Ensures.ite (fun _ => trivial) fun _ => ?_
  refine Ensures.bind (storeCmd_ensures leads head _ _) fun _ _ _ => ?_
  refine Ensures.bind (storeCmd_ensures leads head _ _) fun _ _ _ => ?_
  refine Ensures.bind (storeCmd_ensures leads head _ _) fun _ _ _ => ?_
  refine Ensures.bind (storeCmd_ensures leads head _ _) fun _ _ _ => ?_
  refine Ensures.bind (storeCmd_ensures leads head _ _) fun _ _ _ => ?_
  have advance
      : (do
          h.store g .head (head + 1)
          return true : Access Bool).Ensures k.environment (Proper k limit) () fun _ _ =>
            True :=
    Ensures.bind (store_ensures leads _ _) fun _ _ _ => trivial
  split
  · refine Ensures.bind (copyIn_ensures (fun _ => trivial) fun index below trusted => ?_)
      fun _ _ _ => advance
    refine leads.payload head trusted (below.trans_le ?_)
    rw [← leads.maxBytes trusted]
    exact UInt32.le_iff_toNat_le.mp (UInt32.not_lt.mp small)
  · exact advance

/-- What `pop` stores is its `tail`, whatever it copies before. -/
theorem pop_harmless (leads : h.Leads k g)
    : h.pop.Ensures k.environment (Harmless k) () fun _ _ => True := by
  have copies (area : Area) (first : UInt64) (count : Nat)
      : (copyOut g area first count).Ensures k.environment (Harmless k) () fun _ _ => True := by
    induction count with
    | zero => exact trivial
    | succ count ih =>
        refine Ensures.bind ih fun front _ _ => ⟨⟨?_, ?_⟩, fun _ _ _ => trivial⟩
        · rintro _ _ _ written
          cases written
        · rintro _ _ _ written
          cases written
  unfold pop
  rw [leads.base]
  refine Ensures.bind (ensures_harmless (load_ensures leads _)) fun tail _ _ => ?_
  refine Ensures.bind (ensures_harmless (load_ensures leads _)) fun head _ _ => ?_
  refine Ensures.ite (fun _ => trivial) fun _ => ?_
  refine Ensures.bind (ensures_harmless (loadCmd_ensures leads tail _)) fun id _ _ => ?_
  refine Ensures.bind (ensures_harmless (loadCmd_ensures leads tail _)) fun replyTo _ _ => ?_
  refine Ensures.bind (ensures_harmless (loadCmd_ensures leads tail _)) fun timestampNs _ _ => ?_
  refine Ensures.bind (ensures_harmless (loadCmd_ensures leads tail _)) fun type _ _ => ?_
  have sized
      : (h.clampedSize g tail).Ensures k.environment (Proper k fun _ => 0) () fun _ _ =>
          True := by
    refine Ensures.bind (loadCmd_ensures leads tail _) fun size _ _ => ?_
    refine Ensures.ite (fun _ => trivial) fun _ => ?_
    exact Ensures.bind (loadCmd_ensures leads tail _) fun again _ _ => trivial
  refine Ensures.bind (ensures_harmless sized) fun n _ _ => ?_
  refine Ensures.bind (copies _ _ _) fun data _ _ => ?_
  exact Ensures.bind (ensures_harmless (store_ensures leads _ _)) fun _ _ _ => trivial

end RingHandle

/-- The handles of an attached subscriber lead to its segment. -/
theorem Attached.leads {m : Impl} (attached : Attached k m) (there : m.hdr = some g)
    : (txHandle m).Leads k g ∧ (rxHandle m).Leads k g := by
  have fits := attached.fits g there
  constructor
  · exact {
      base := attached.tx g there
      valid := fun trusted => (fits trusted).valid
      size := fun trusted => (fits trusted).size
      layout := fun trusted => (fits trusted).layout
      offset := fun trusted => congrArg LLRing.offset (fits trusted).tx
      slots := fun trusted => congrArg LLRing.slots (fits trusted).tx
      maxBytes := fun trusted => congrArg LLRing.maxBytes (fits trusted).tx
    }
  · exact {
      base := attached.rx g there
      valid := fun trusted => (fits trusted).valid
      size := fun trusted => (fits trusted).size
      layout := fun trusted => (fits trusted).layout
      offset := fun trusted => congrArg LLRing.offset (fits trusted).rx
      slots := fun trusted => congrArg LLRing.slots (fits trusted).rx
      maxBytes := fun trusted => congrArg LLRing.maxBytes (fits trusted).rx
    }

/-- `send` keeps the mapping. -/
theorem send_ensures {m : Impl} (attached : Attached k m) (call : Commands.PushCall)
    : (send m call).Ensures k.environment (Proper k limit) () fun outcome _ =>
        Attached k outcome.1 := by
  unfold send
  split
  · rename_i g there
    refine Ensures.bind (stillOwnsCommands_ensures (attached.large there) m)
      fun next _ same => ?_
    have kept := attached.keep same
    refine Ensures.ite (fun _ => kept) fun _ => ?_
    refine Ensures.bind (ask_ensures .nowNs) fun now _ _ => ?_
    refine Ensures.bind (RingHandle.push_ensures (kept.leads (same.hdr.trans there)).1 _)
      fun pushed _ _ => ?_
    exact Ensures.ite (fun _ => kept.keep ⟨rfl, rfl, rfl, rfl, rfl⟩)
      fun _ => kept.keep ⟨rfl, rfl, rfl, rfl, rfl⟩
  · exact attached

/-- `receive` keeps the mapping, and what it stores is harmless. -/
theorem receive_ensures {m : Impl} (attached : Attached k m)
    : (receive m).Ensures k.environment (Harmless k) () fun outcome _ =>
        Attached k outcome.1 := by
  unfold receive
  split
  · rename_i g there
    refine Ensures.bind (ensures_harmless (stillOwnsCommands_ensures (attached.large there) m))
      fun next _ same => ?_
    have kept := attached.keep same
    refine Ensures.ite (fun _ => kept) fun _ => ?_
    refine Ensures.bind (RingHandle.pop_harmless (kept.leads (same.hdr.trans there)).2)
      fun popped _ _ => ?_
    cases popped with
    | none => exact kept
    | some command =>
        refine Ensures.bind (ensures_harmless (ask_ensures .nowNs)) fun now _ _ => ?_
        exact kept.keep ⟨rfl, rfl, rfl, rfl, rfl⟩
  · exact attached

/-- The destructor releases the claim, and does nothing else. -/
theorem close_ensures {m : Impl} (attached : Attached k m)
    : (close m).Ensures k.environment (Proper k limit) () fun _ _ => True := by
  unfold close
  split
  · rename_i g there
    refine Ensures.ite (fun _ => ?_) fun _ => trivial
    exact Ensures.bind (exchangeHeader_ensures (attached.large there) _ _) fun _ _ _ => trivial
  · exact trivial

end ShmFrame.Accesses
