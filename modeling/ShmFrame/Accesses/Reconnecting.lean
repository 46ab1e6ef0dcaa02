import ShmFrame.Accesses.Independence

/-! A subscriber's calls while time passes and publishers come and go under its name: what a
`poll` does to the session that is read from, and which sessions it may end up in.
-/

namespace ShmFrame.Accesses

open ShmFrame.Foundation ShmFrame.Foundation.Program LLSubscriber

-----------------------------------------------------------------------------------------
-- Publishers
-----------------------------------------------------------------------------------------

/-- The clock never goes back. -/
def Rising (clock : Nat → UInt64) : Prop := ∀ time later, time ≤ later → clock time ≤ clock later

/-- The sessions that publishers create, each in a segment of its own, and from when on the
header is complete. The heartbeat of a session is a reading of the clock, and never goes back
either.
-/
structure Sessions (clock : Nat → UInt64) where
  config : Nat → LLConfig
  session : Nat → UInt64
  complete : Nat → Nat → Bool
  beat : Nat → Nat → UInt64
  accepted : ∀ g, (config g).accepted = true
  stays : ∀ g time later, time ≤ later → complete g time = true → complete g later = true
  rising : ∀ g, Rising (beat g)
  read : ∀ g time, beat g time ≤ clock time

namespace Sessions

variable {clock : Nat → UInt64}

/-- The words of a header that are not stored to again once it is complete. -/
def word (s : Sessions clock) (g : Nat) : HeaderWord → Option UInt64
  | .magic => some kMagic.toUInt64
  | .version => some kVersion.toUInt64
  | .sessionId => some (s.session g)
  | .totalSize => some (computeLayout (s.config g)).totalSize
  | .maxWidth => some (s.config g).maxWidth.toUInt64
  | .maxHeight => some (s.config g).maxHeight.toUInt64
  | .bytesPerPixel => some (s.config g).bytesPerPixel.toUInt64
  | .slotCount => some (s.config g).slotCount.toUInt64
  | .commandSlots => some (s.config g).commandSlots.toUInt64
  | .maxCommandBytes => some (s.config g).maxCommandBytes.toUInt64
  | .slotsOffset => some (computeLayout (s.config g)).slotsOffset
  | .slotStride => some (computeLayout (s.config g)).slotStride
  | .downstreamOffset => some (computeLayout (s.config g)).downstreamOffset
  | .upstreamOffset => some (computeLayout (s.config g)).upstreamOffset
  | .ringStride => some (computeLayout (s.config g)).ringStride
  | .cmdStride => some (computeLayout (s.config g)).cmdStride
  | .latest | .shutdown | .lastHeartbeatNs | .commandOwnerGen | .commandOwnerHeartbeatNs => none

/-- A word that may be found in a header at some time. Until the header is complete, which is
when the magic number is stored, all other words may have any value.
-/
structure Holds (s : Sessions clock) (time g : Nat) (span : Span) (found : UInt64) : Prop where
  fixed
    : s.complete g time = true
      → ∀ word value, s.word g word = some value → span = word.place → found = value
  magic : s.complete g time = false → span = HeaderWord.magic.place → found.toUInt32 ≠ kMagic
  beat : span = HeaderWord.lastHeartbeatNs.place → found = s.beat g time

/-- An answer that these sessions and the clock allow at some time. Everything else that
publishers and other subscribers store to may have any value at every single access, and the
name may lead to any session, or to none.
-/
def Consistent (s : Sessions clock) (time : Nat) : (effect : Effect) → effect.Answer → Prop
  | .load g _ span, answer => s.Holds time g span answer
  | .ask (.sizeOf g), answer => answer = (computeLayout (s.config g)).totalSize
  | .ask .nowNs, answer => answer = clock time
  | _, _ => True

/-- All headers are complete. -/
def Complete (s : Sessions clock) : Prop := ∀ g time, s.complete g time = true

/-- Time passes by any amount before an access is answered. -/
def environment (s : Sessions clock) : Environment Effect Effect.Answer Nat :=
  fun time effect answer later => time ≤ later ∧ s.Consistent later effect answer

end Sessions

/-- All effects are allowed. -/
def Allowed : Effect → Prop := fun _ => True

section Ensured

variable {clock : Nat → UInt64} {s : Sessions clock} {time : Nat} {g : Nat}

/-- No program goes back in time. -/
theorem ensures_later {Value : Type} (program : Access Value)
    : program.Ensures s.environment Allowed time fun _ later => time ≤ later :=
  ensures_forward (fun _ => trivial) (fun _ _ _ _ answered => answered.1) program

/-- Whatever it returns. -/
theorem ensures_any {Value : Type} (program : Access Value)
    : program.Ensures s.environment Allowed time fun _ _ => True :=
  (ensures_later program).mono (fun _ => id) fun _ _ _ => trivial

/-- The clock is read at some time. -/
theorem nowNs_later
    : nowNs.Ensures s.environment Allowed time fun now later =>
        time ≤ later ∧ now = clock later :=
  ⟨trivial, fun _ _ answered => answered⟩

/-- A word of a header that is complete. -/
theorem loadHeader_word (complete : s.complete g time = true) {word : HeaderWord}
    {value : UInt64} (known : s.word g word = some value)
    : (loadHeader g word).Ensures s.environment Allowed time fun found later =>
        found = value ∧ s.complete g later = true := by
  refine ⟨trivial, fun found later answered => ?_⟩
  have still := s.stays g time later answered.1 complete
  exact ⟨answered.2.fixed still word value known rfl, still⟩

/-- Who finds the magic number finds a header that is complete. -/
theorem loadHeader_magic
    : (loadHeader g .magic).Ensures s.environment Allowed time fun found later =>
        found.toUInt32 = kMagic → s.complete g later = true := by
  refine ⟨trivial, fun found later answered announced => ?_⟩
  by_contra early
  exact answered.2.magic (Bool.not_eq_true _ ▸ early) rfl announced

/-- The configuration that is loaded is the one the session was created with. -/
theorem loadConfig_word (complete : s.complete g time = true)
    : (loadConfig g).Ensures s.environment Allowed time fun c _ =>
        c = echoed (s.config g) := by
  refine Ensures.bind (loadHeader_word complete rfl) fun width _ widthKnown => ?_
  refine Ensures.bind (loadHeader_word widthKnown.2 rfl) fun height _ heightKnown => ?_
  refine Ensures.bind (loadHeader_word heightKnown.2 rfl) fun depth _ depthKnown => ?_
  refine Ensures.bind (loadHeader_word depthKnown.2 rfl) fun slots _ slotsKnown => ?_
  refine Ensures.bind (loadHeader_word slotsKnown.2 rfl) fun commands _ commandsKnown => ?_
  refine Ensures.bind (loadHeader_word commandsKnown.2 rfl) fun bytes _ bytesKnown => ?_
  simp only [widthKnown.1, heightKnown.1, depthKnown.1, slotsKnown.1, commandsKnown.1,
    bytesKnown.1]
  simp only [Ensures, pure, UInt32.toUInt32_toUInt64, echoed]

/-- Only a header that is complete is validated. -/
theorem validateHeader_complete
    : (validateHeader g).Ensures s.environment Allowed time fun validated later =>
        validated.isSome → s.complete g later = true := by
  refine Ensures.bind (ensures_any _) fun size _ _ => ?_
  refine Ensures.ite (fun _ => nofun) fun _ => ?_
  refine Ensures.bind loadHeader_magic fun magic announced complete => ?_
  refine Ensures.ite (fun _ => nofun) fun found => ?_
  have complete := complete (not_not.mp found)
  exact (ensures_later _).mono (fun _ => id) fun _ later after _ =>
    s.stays g announced later after complete

/-- The timers and limits of a subscriber. -/
structure SameTimers (m next : Impl) : Prop where
  stale : next.staleNs = m.staleNs
  retry : next.retryNs = m.retryNs
  minRead : next.minReadNs = m.minReadNs
  lastRead : next.lastReadNs = m.lastReadNs

theorem SameTimers.refl (m : Impl) : SameTimers m m := ⟨rfl, rfl, rfl, rfl⟩

/-- The state of a subscriber but for its claim to the command channel. -/
structure SameReading (m next : Impl) : Prop where
  timers : SameTimers m next
  hdr : next.hdr = m.hdr
  remote : next.remote = m.remote
  progress : next.lastProgress = m.lastProgress
  attempt : next.lastAttempt = m.lastAttempt

theorem SameReading.refl (m : Impl) : SameReading m m := ⟨.refl m, rfl, rfl, rfl, rfl⟩

/-- Claiming the channel changes nothing else, by induction on the rounds. -/
theorem claimLoop_reading (m : Impl) (existing : UInt64) (rounds : Nat)
    : (claimLoop g m existing rounds).Ensures s.environment Allowed time fun next _ =>
        SameReading m next := by
  induction rounds generalizing time existing with
  | zero => exact ⟨trivial, fun never => nomatch never⟩
  | succ rounds ih =>
      refine Ensures.bind (ensures_any _) fun held _ _ => ?_
      refine Ensures.ite (fun _ => .refl m) fun _ => ?_
      refine Ensures.bind (ensures_any _) fun now _ _ => ?_
      refine Ensures.bind (ensures_any _) fun outcome _ _ => ?_
      refine Ensures.ite (fun _ => ?_) fun _ => ih outcome.1
      refine Ensures.bind (ensures_any _) fun beat _ _ => ?_
      refine Ensures.bind (ensures_any _) fun _ _ _ => ?_
      exact ⟨⟨rfl, rfl, rfl, rfl⟩, rfl, rfl, rfl, rfl⟩

/-- The session that is read from: the same one, or one of those that publishers create. -/
inductive Session (s : Sessions clock) (m next : Impl) : Prop
  | kept (hdr : next.hdr = m.hdr) (remote : next.remote = m.remote)
  | changed (g : Nat) (hdr : next.hdr = some g)
    (payload : next.remote.maxPayload = (s.config g).maxPayload)

/-- An attempt to connect keeps the timers. -/
theorem tryConnect_session (m : Impl)
    : (tryConnect m).Ensures s.environment Allowed time fun next _ =>
        SameTimers m next
        ∧ next.lastProgress = m.lastProgress
        ∧ next.lastAttempt = m.lastAttempt
        ∧ Session s m next := by
  have kept
      : SameTimers m m
        ∧ m.lastProgress = m.lastProgress
        ∧ m.lastAttempt = m.lastAttempt
        ∧ Session s m m :=
    ⟨.refl m, rfl, rfl, .kept rfl rfl⟩
  refine Ensures.bind (ensures_any _) fun found _ _ => ?_
  cases found with
  | none => exact kept
  | some g =>
      refine Ensures.bind validateHeader_complete fun validated checked known => ?_
      cases validated with
      | none => exact kept
      | some cl =>
          refine Ensures.bind (ensures_later _) fun same compared after => ?_
          refine Ensures.ite (fun _ => kept) fun _ => ?_
          have complete := s.stays g checked compared after (known rfl)
          refine Ensures.bind (loadConfig_word complete) fun c _ loaded => ?_
          refine Ensures.bind (ensures_any _) fun session _ _ => ?_
          refine Ensures.bind (ensures_any _) fun existing _ _ => ?_
          refine Ensures.bind (ensures_any _) fun rounds _ _ => ?_
          refine Ensures.bind (claimLoop_reading _ _ _) fun claimed _ same => ?_
          obtain rfl := loaded
          have timers := same.timers
          refine ⟨⟨timers.stale, timers.retry, timers.minRead, timers.lastRead⟩, same.progress,
            same.attempt, ?_⟩
          refine .changed g same.hdr ?_
          change claimed.remote.maxPayload = _
          rw [same.remote]
          rfl

/-- Keeping the claim alive changes nothing else. -/
theorem refreshClaim_reading (m : Impl)
    : (refreshClaim m).Ensures s.environment Allowed time fun next _ =>
        SameReading m next := by
  unfold refreshClaim
  split
  · refine Ensures.ite (fun _ => .refl m) fun _ => ?_
    refine Ensures.bind (ensures_any _) fun gen _ _ => ?_
    refine Ensures.ite (fun _ => ⟨⟨rfl, rfl, rfl, rfl⟩, rfl, rfl, rfl, rfl⟩) fun _ => ?_
    refine Ensures.bind (ensures_any _) fun now _ _ => ?_
    exact Ensures.bind (ensures_any _) fun _ _ _ => .refl m
  · exact .refl m

/-- At a reading of the clock, `poll` tries to connect if the producer does not respond. -/
structure Retries (m : Impl) (now : UInt64) : Prop where
  quiet : ¬ (m.hdr.isSome ∧ now - m.lastProgress < m.staleNs)
  due : ¬ now - m.lastAttempt < m.retryNs

/-- Between two times the heartbeat of the mapped session has been found to be young. The clock
need not be read at the moment at which the heartbeat is loaded.
-/
def Responded (s : Sessions clock) (m : Impl) (began ended : Nat) : Prop :=
  ∃ g, m.hdr = some g
    ∧ ∃ read ∈ Set.Icc began ended, ∃ loaded ∈ Set.Icc began ended,
        clock read - s.beat g loaded < m.staleNs

/-- Or it has been found to be old, if there is one. -/
def Silent (s : Sessions clock) (m : Impl) (began ended : Nat) : Prop :=
  ∀ g, m.hdr = some g
    → ∃ read ∈ Set.Icc began ended, ∃ loaded ∈ Set.Icc began ended,
        ¬ clock read - s.beat g loaded < m.staleNs

/-- Judged over a longer time. -/
theorem Responded.widen {m : Impl} {began ended early late : Nat}
    (responded : Responded s m began ended) (before : early ≤ began) (after : ended ≤ late)
    : Responded s m early late := by
  obtain ⟨g, there, read, inRead, loaded, inLoaded, young⟩ := responded
  exact ⟨g, there, read, ⟨before.trans inRead.1, inRead.2.trans after⟩, loaded,
    ⟨before.trans inLoaded.1, inLoaded.2.trans after⟩, young⟩

theorem Silent.widen {m : Impl} {began ended early late : Nat} (silent : Silent s m began ended)
    (before : early ≤ began) (after : ended ≤ late)
    : Silent s m early late := by
  intro g there
  obtain ⟨read, inRead, loaded, inLoaded, old⟩ := silent g there
  exact ⟨read, ⟨before.trans inRead.1, inRead.2.trans after⟩, loaded,
    ⟨before.trans inLoaded.1, inLoaded.2.trans after⟩, old⟩

/-- The heartbeat is what it is at that time. -/
theorem loadHeader_beat
    : (loadHeader g .lastHeartbeatNs).Ensures s.environment Allowed time fun found later =>
        time ≤ later ∧ found = s.beat g later :=
  ⟨trivial, fun _ _ answered => ⟨answered.1, answered.2.beat rfl⟩⟩

/-- The age of the heartbeat. -/
theorem ageOf_beat
    : (ageOf g .lastHeartbeatNs).Ensures s.environment Allowed time fun age later =>
        ∃ read ∈ Set.Icc time later, ∃ loaded ∈ Set.Icc time later,
          age = clock read - s.beat g loaded := by
  refine Ensures.bind (ensures_later _) fun first asked after => ?_
  refine Ensures.ite (fun _ => ?_) fun _ => ?_
  · refine Ensures.bind nowNs_later fun now read known => ?_
    obtain ⟨later, rfl⟩ := known
    refine Ensures.bind loadHeader_beat fun beat loaded known => ?_
    obtain ⟨last, rfl⟩ := known
    exact ⟨read, ⟨after.trans later, last⟩, loaded, ⟨after.trans (later.trans last), le_rfl⟩, rfl⟩
  · refine Ensures.bind loadHeader_beat fun beat loaded known => ?_
    obtain ⟨later, rfl⟩ := known
    refine Ensures.bind nowNs_later fun now read known => ?_
    obtain ⟨last, rfl⟩ := known
    exact ⟨read, ⟨after.trans (later.trans last), le_rfl⟩, loaded, ⟨after.trans later, last⟩, rfl⟩

/-- What the answer of `producer_responsive` says of the heartbeat. -/
theorem producerResponsive_seen (m : Impl)
    : (producerResponsive m).Ensures s.environment Allowed time fun responsive later =>
        if responsive then Responded s m time later else Silent s m time later := by
  unfold producerResponsive
  split
  · rename_i g there
    refine Ensures.bind ageOf_beat fun age later aged => ?_
    obtain ⟨read, inRead, loaded, inLoaded, rfl⟩ := aged
    change if decide _ = true then _ else _
    split
    · rename_i young
      exact ⟨g, there, read, inRead, loaded, inLoaded, of_decide_eq_true young⟩
    · rename_i old
      intro other here
      obtain rfl := Option.some.inj (there.symm.trans here)
      exact ⟨read, inRead, loaded, inLoaded, by simpa using old⟩
  · rename_i detached
    exact fun g there => (detached g there).elim

/-- Something has responded that is mapped, and there has been some patience with it. -/
theorem Responded.mapped {m : Impl} {began ended : Nat} (responded : Responded s m began ended)
    : m.hdr.isSome ∧ m.staleNs ≠ 0 := by
  obtain ⟨g, there, read, -, loaded, -, young⟩ := responded
  refine ⟨by rw [there]; rfl, fun zero => ?_⟩
  rw [zero] at young
  exact UInt64.not_lt_zero young

/-- The producer was productive at some reading of the clock, or has responded. -/
def Vouched (s : Sessions clock) (m : Impl) (began ended : Nat) : Prop :=
  (m.hdr.isSome ∧ ∃ read ∈ Set.Icc began ended, clock read - m.lastProgress < m.staleNs)
  ∨ Responded s m began ended

/-- A `poll` that began with private state `m` has kept what is read from, or it has tried to
connect at some time, after the producer has not responded. What it returns says whether the
producer responds in the end.
-/
inductive Polled (s : Sessions clock) (began : Nat) (m : Impl) (polled : Impl × Bool) (ended : Nat)
    : Prop
  | stayed (same : SameReading m polled.1)
    (vouched : polled.2 = true → Vouched s m began ended)
  | tried (at_ : Nat) (during : at_ ∈ Set.Icc began ended) (retries : Retries m (clock at_))
    (silent : Silent s m at_ ended) (timers : SameTimers m polled.1)
    (session : Session s m polled.1) (progress : polled.1.lastProgress = clock at_)
    (attempt : polled.1.lastAttempt = clock at_)
    (responded : polled.2 = true → Responded s polled.1 at_ ended)

/-- A `poll` that returns true leaves a session mapped. -/
theorem Polled.mapped {m : Impl} {polled : Impl × Bool} {began ended : Nat}
    (polls : Polled s began m polled ended) (returned : polled.2 = true)
    : polled.1.hdr.isSome ∧ m.staleNs ≠ 0 := by
  cases polls with
  | stayed same vouched =>
      rw [same.hdr]
      rcases vouched returned with ⟨mapped, read, -, recent⟩ | responded
      · refine ⟨mapped, fun zero => ?_⟩
        rw [zero] at recent
        exact UInt64.not_lt_zero recent
      · exact responded.mapped
  | tried at_ during retries silent timers session progress attempt responded =>
      obtain ⟨mapped, patient⟩ := (responded returned).mapped
      exact ⟨mapped, timers.stale ▸ patient⟩

/-- Only what is read from matters to whether the producer responds. -/
theorem Responded.same {m next : Impl} {began ended : Nat}
    (responded : Responded s next began ended) (same : SameReading m next)
    : Responded s m began ended := by
  rwa [Responded, same.hdr, same.timers.stale] at responded

theorem Silent.same {m next : Impl} {began ended : Nat} (silent : Silent s next began ended)
    (same : SameReading m next)
    : Silent s m began ended := by
  rwa [Silent, same.hdr, same.timers.stale] at silent

/-- What a `poll` does to the private state. -/
theorem poll_polled (m : Impl)
    : (poll m).Ensures s.environment Allowed time fun polled later =>
        Polled s time m polled later := by
  refine Ensures.bind nowNs_later fun now read known => ?_
  obtain ⟨after, rfl⟩ := known
  refine Ensures.bind ((refreshClaim_reading m).and (ensures_later _))
    fun refreshed noted known => ?_
  obtain ⟨same, readFirst⟩ := known
  refine Ensures.ite (fun recent => ?_) fun quiet => ?_
  · simp only [Bool.and_eq_true, decide_eq_true_eq, same.timers.stale, same.hdr, same.progress]
      at recent
    exact .stayed same fun _ => .inl ⟨recent.1, read, ⟨after, readFirst⟩, recent.2⟩
  refine Ensures.bind ((producerResponsive_seen refreshed).and (ensures_later _))
    fun responsive asked known => ?_
  obtain ⟨seen, notedFirst⟩ := known
  refine Ensures.ite (fun answered => ?_) fun unanswered => ?_
  · rw [if_pos answered] at seen
    exact .stayed same fun _ => .inr ((seen.same same).widen (after.trans readFirst) le_rfl)
  rw [if_neg unanswered] at seen
  refine Ensures.ite (fun _ => .stayed same fun never => by cases never) fun due => ?_
  have retries : Retries m (clock read) := by
    refine ⟨fun early => quiet ?_, ?_⟩
    · rw [same.hdr, same.progress, same.timers.stale]
      simpa only [Bool.and_eq_true, decide_eq_true_eq] using early
    · rwa [same.attempt, same.timers.retry] at due
  refine Ensures.bind ((tryConnect_session _).and (ensures_later _)) fun connected tried known => ?_
  obtain ⟨⟨timers, -, attempt, session⟩, askedFirst⟩ := known
  have kept : SameTimers m connected :=
    ⟨timers.stale.trans same.timers.stale, timers.retry.trans same.timers.retry,
      timers.minRead.trans same.timers.minRead, timers.lastRead.trans same.timers.lastRead⟩
  have found : Session s m { connected with lastProgress := clock read } := by
    cases session with
    | kept hdr remote => exact .kept (hdr.trans same.hdr) (remote.trans same.remote)
    | changed g hdr payload => exact .changed g hdr payload
  refine Ensures.bind ((producerResponsive_seen _).and (ensures_later _))
    fun responds ended known => ?_
  obtain ⟨judged, triedFirst⟩ := known
  have readToTried : read ≤ tried := readFirst.trans (notedFirst.trans askedFirst)
  refine .tried read ⟨after, readToTried.trans triedFirst⟩ retries
    ((seen.same same).widen readFirst (askedFirst.trans triedFirst))
    ⟨kept.stale, kept.retry, kept.minRead, kept.lastRead⟩ found rfl attempt fun responded => ?_
  rw [if_pos responded] at judged
  exact judged.widen readToTried le_rfl

end Ensured

-----------------------------------------------------------------------------------------
-- Attaching to a session
-----------------------------------------------------------------------------------------

/-- No two words of the header are in the same place. -/
theorem HeaderWord.place_injective {left right : HeaderWord} (same : left.place = right.place)
    : left = right := by
  by_contra distinct
  have apart := HeaderWord.place_apart distinct
  have some_ : 0 < right.place.size := by
    cases right <;> decide
  rw [same] at apart
  simp only [Span.Apart, Span.last] at apart
  omega

/-- The private state of a subscriber that has attached to a session, where another one holds
the command channel.
-/
def attachedTo {clock : Nat → UInt64} (s : Sessions clock) (m : Impl) (g : Nat) : Impl :=
  {
    m.adopt g (echoed (s.config g)) (computeLayout (s.config g)) (s.session g) with
    tx := {
      base := some g
      offset := (computeLayout (s.config g)).upstreamOffset
      slots := (s.config g).commandSlots
      maxBytes := (s.config g).maxCommandBytes
    }
    rx := {
      base := some g
      offset := (computeLayout (s.config g)).downstreamOffset
      slots := (s.config g).commandSlots
      maxBytes := (s.config g).maxCommandBytes
    }
  }

section Returned

variable {clock : Nat → UInt64} {s : Sessions clock} {time later : Nat} {g : Nat} {m : Impl}

/-- A question to the outside, which may take some time. -/
theorem ask_returns (question : Question) (answer : question.Answer)
    (consistent : s.Consistent later (.ask question) answer) (after : time ≤ later)
    : (access (.ask question)).Returns s.environment time answer later :=
  Returns.single ⟨after, consistent⟩

/-- A word of the header has its value, if that is known, or any value. -/
theorem loadHeader_returns (complete : s.Complete) {word : HeaderWord} (value : UInt64)
    (known : ∀ fixed, s.word g word = some fixed → value = fixed)
    (beat : word = .lastHeartbeatNs → value = s.beat g time)
    : (loadHeader g word).Returns s.environment time value time := by
  refine Returns.single ⟨le_rfl, fun _ other fixed stays same => ?_, fun early => ?_,
    fun same => beat (HeaderWord.place_injective same)⟩
  · obtain rfl := HeaderWord.place_injective same
    exact known fixed stays
  · rw [complete g time] at early
    cases early

/-- A word that is not stored to again. -/
theorem loadHeader_fixed (complete : s.Complete) {word : HeaderWord} {value : UInt64}
    (known : s.word g word = some value)
    : (loadHeader g word).Returns s.environment time value time := by
  refine loadHeader_returns complete value (fun _ stays => ?_) ?_
  · exact Option.some.inj (known.symm.trans stays)
  · rintro rfl
    cases known

/-- The configuration the session was created with. -/
theorem loadConfig_returns (complete : s.Complete)
    : (loadConfig g).Returns s.environment time (echoed (s.config g)) time := by
  refine Returns.bind (loadHeader_fixed complete rfl) ?_
  refine Returns.bind (loadHeader_fixed complete rfl) ?_
  refine Returns.bind (loadHeader_fixed complete rfl) ?_
  refine Returns.bind (loadHeader_fixed complete rfl) ?_
  refine Returns.bind (loadHeader_fixed complete rfl) ?_
  refine Returns.bind (loadHeader_fixed complete rfl) ?_
  simp only [UInt32.toUInt32_toUInt64]
  exact Returns.done _

/-- Words that have the values they are compared with, by induction on the comparisons. -/
theorem agrees_returns (complete : s.Complete) {words : List (HeaderWord × UInt64)}
    (known : ∀ pair ∈ words, s.word g pair.1 = some pair.2)
    : (agrees g words).Returns s.environment time true time := by
  induction words with
  | nil => exact Returns.done true
  | cons pair rest ih =>
      obtain ⟨word, value⟩ := pair
      refine Returns.bind (loadHeader_fixed complete (known _ List.mem_cons_self)) ?_
      rw [if_neg (not_not.mpr rfl)]
      exact ih fun pair member => known pair (List.mem_cons_of_mem _ member)

/-- Every session that publishers create is validated. -/
theorem validateHeader_returns (complete : s.Complete)
    : (validateHeader g).Returns s.environment time (some (computeLayout (s.config g)))
        time := by
  have valid := configValid_echoed (LLConfig.accepted_valid (s.accepted g))
  have large : ¬ (computeLayout (s.config g)).totalSize < sizeofLLHeader :=
    UInt64.not_lt.mpr (LLConfig.accepted_bounded (s.accepted g)).header_fits
  refine Returns.bind (ask_returns (.sizeOf g) _ rfl le_rfl) ?_
  rw [if_neg large]
  refine Returns.bind (loadHeader_fixed complete rfl) ?_
  rw [if_neg (by decide)]
  refine Returns.bind (loadHeader_fixed complete rfl) ?_
  rw [if_neg (by decide)]
  refine Returns.bind (loadConfig_returns complete) ?_
  rw [if_neg (by rw [valid]; decide)]
  have words
      : ∀ pair ∈ comparisons (computeLayout (s.config g)),
          s.word g pair.1 = some pair.2 := by
    intro pair member
    simp only [comparisons, List.mem_cons, List.not_mem_nil, or_false] at member
    rcases member with rfl | rfl | rfl | rfl | rfl | rfl | rfl <;> rfl
  refine Returns.bind (agrees_returns complete words) ?_
  rw [if_neg (by decide)]
  have fits
      : ¬ (computeLayout (s.config g)).totalSize
          < (computeLayout (echoed (s.config g))).totalSize :=
    UInt64.lt_irrefl _
  rw [if_neg fits]
  exact Returns.done _

/-- The age of a heartbeat, where the clock is read at the same moment. -/
theorem ageOf_returns (complete : s.Complete) {word : HeaderWord} (beat : UInt64)
    (after : time ≤ later) (free : s.word g word = none)
    (known : word = .lastHeartbeatNs → beat = s.beat g later)
    : (ageOf g word).Returns s.environment time (clock later - beat) later := by
  refine Returns.bind (ask_returns .clockFirst true trivial after) ?_
  rw [if_pos rfl]
  refine Returns.bind (ask_returns .nowNs _ rfl le_rfl) ?_
  refine Returns.bind (loadHeader_returns complete beat (fun fixed stays => ?_) known)
    (Returns.done _)
  rw [free] at stays
  cases stays

/-- A session is adopted whose channel another subscriber holds. -/
theorem adopt_returns (complete : s.Complete)
    : (adopt m g (computeLayout (s.config g))).Returns s.environment time (attachedTo s m g)
        time := by
  have held : (genuinelyHeld g 1).Returns s.environment time true time := by
    refine Returns.bind (ageOf_returns complete (clock time) le_rfl rfl nofun) ?_
    rw [UInt64.sub_self]
    exact Returns.done true
  have refused {adopted : Impl}
      : (claimLoop g adopted 1 1).Returns s.environment time adopted time := by
    refine Returns.bind held ?_
    rw [if_pos rfl]
    exact Returns.done adopted
  refine Returns.bind (loadConfig_returns complete) ?_
  refine Returns.bind (loadHeader_fixed complete rfl) ?_
  refine Returns.bind (loadHeader_returns complete 1 nofun nofun) ?_
  refine Returns.bind (ask_returns .patience (1 : Nat) trivial le_rfl) ?_
  exact Returns.bind refused (Returns.done _)

/-- The name leads to a session that is not the one that is read from. -/
theorem tryConnect_returns (complete : s.Complete)
    (other : m.hdr = none ∨ s.session g ≠ m.session) (after : time ≤ later)
    : (tryConnect m).Returns s.environment time (attachedTo s m g) later := by
  have differs : (sameSession m g).Returns s.environment later false later := by
    unfold sameSession
    split
    · exact Returns.done false
    · rename_i attached
      refine Returns.bind (loadHeader_fixed complete rfl) ?_
      rcases other with detached | distinct
      · rw [detached] at attached
        exact absurd rfl attached
      · rw [decide_eq_false distinct]
        exact Returns.done false
  refine Returns.bind (ask_returns .opens (some g) trivial after) ?_
  refine Returns.bind (validateHeader_returns complete) ?_
  refine Returns.bind differs ?_
  rw [if_neg (by decide)]
  exact adopt_returns complete

/-- The private state without the claim to the command channel. -/
def unclaimed (m : Impl) : Impl := { m with ownsCommands := false }

/-- Another subscriber has taken over the channel, if it has been ours. -/
theorem refreshClaim_returns (complete : s.Complete) (there : m.hdr = some g)
    : (refreshClaim m).Returns s.environment time (unclaimed m) time := by
  rw [refreshClaim, there]
  change (stillOwnsCommands m g).Returns _ _ _ _
  unfold stillOwnsCommands
  cases owned : m.ownsCommands with
  | false =>
      have same : unclaimed m = m := by rw [unclaimed, ← owned]
      rw [same]
      exact Returns.done m
  | true =>
      refine Returns.bind (loadHeader_returns complete (m.ownerGen + 1) nofun nofun) ?_
      have taken : m.ownerGen + 1 ≠ m.ownerGen := by
        intro same
        have range := m.ownerGen.toNat_lt
        have next := congrArg UInt64.toNat same
        rw [UInt64.toNat_add, UInt64.toNat_one] at next
        omega
      rw [if_pos taken]
      exact Returns.done _

/-- The producer responds while its heartbeat is young. -/
theorem producerResponsive_young (complete : s.Complete) (there : m.hdr = some g)
    (after : time ≤ later) (young : clock later - s.beat g later < m.staleNs)
    : (producerResponsive m).Returns s.environment time true later := by
  rw [producerResponsive, there]
  refine Returns.bind (ageOf_returns complete (s.beat g later) after rfl fun _ => rfl) ?_
  rw [decide_eq_true young]
  exact Returns.done true

/-- It does not when that is old. -/
theorem producerResponsive_old (complete : s.Complete) (there : m.hdr = some g)
    (after : time ≤ later) (old : ¬ clock later - s.beat g later < m.staleNs)
    : (producerResponsive m).Returns s.environment time false later := by
  rw [producerResponsive, there]
  refine Returns.bind (ageOf_returns complete (s.beat g later) after rfl fun _ => rfl) ?_
  rw [decide_eq_false old]
  exact Returns.done false

/-- A `poll` may leave a subscriber where it is while its producer is productive or responds. -/
theorem poll_stays (complete : s.Complete) (there : m.hdr = some g)
    (vouched
      : clock time - m.lastProgress < m.staleNs ∨ clock time - s.beat g time < m.staleNs)
    : (poll m).Returns s.environment time (unclaimed m, true) time := by
  refine Returns.bind (ask_returns .nowNs _ rfl le_rfl) ?_
  refine Returns.bind (refreshClaim_returns complete there) ?_
  split
  · exact Returns.done _
  · rename_i quiet
    have old : ¬ clock time - m.lastProgress < m.staleNs := by
      intro recent
      refine quiet (Bool.and_eq_true_iff.mpr ⟨?_, decide_eq_true recent⟩)
      exact Option.isSome_iff_exists.mpr ⟨g, there⟩
    have responds := producerResponsive_young complete there le_rfl (vouched.resolve_left old)
    refine Returns.bind responds ?_
    rw [if_pos rfl]
    exact Returns.done _

/-- The private state of a subscriber after a `poll` that has attached it to a session. -/
def reattachedAt (s : Sessions clock) (m : Impl) (g : Nat) (now : UInt64) : Impl :=
  { attachedTo s { m with lastAttempt := now } g with lastProgress := now }

/-- What a `poll` does that tries to connect, from what it has found out so far. -/
theorem poll_connects (complete : s.Complete) {refreshed : Impl} {asked ended : Nat}
    (after : time ≤ later)
    (claim : (refreshClaim m).Returns s.environment later refreshed later)
    (quiet : ¬ (refreshed.hdr.isSome && clock later - refreshed.lastProgress < refreshed.staleNs))
    (silent : (producerResponsive refreshed).Returns s.environment later false asked)
    (due : ¬ clock later - refreshed.lastAttempt < refreshed.retryNs)
    (other : refreshed.hdr = none ∨ s.session g ≠ refreshed.session) (waits : asked ≤ ended)
    (alive : clock ended - s.beat g ended < refreshed.staleNs)
    : (poll m).Returns s.environment time
        (reattachedAt s refreshed g (clock later), true) ended := by
  refine Returns.bind (ask_returns .nowNs _ rfl after) ?_
  refine Returns.bind claim ?_
  rw [if_neg quiet]
  refine Returns.bind silent ?_
  rw [if_neg (by decide), if_neg due]
  refine Returns.bind (tryConnect_returns complete other waits) ?_
  exact Returns.bind (producerResponsive_young complete rfl le_rfl alive) (Returns.done _)

/-- A `poll` that tries to connect may attach the subscriber to any other session that is
alive, once the session that is read from does not respond.
-/
theorem poll_reattaches (complete : s.Complete) {ended : Nat} (after : time ≤ later)
    (retries : Retries m (clock later)) (waits : later ≤ ended)
    (silent : ∀ old, m.hdr = some old → ¬ clock ended - s.beat old ended < m.staleNs)
    (other : m.hdr = none ∨ s.session g ≠ m.session)
    (alive : clock ended - s.beat g ended < m.staleNs)
    : (poll m).Returns s.environment time (reattachedAt s m g (clock later), true) ended := by
  rcases there : m.hdr with - | old
  · have claim : (refreshClaim m).Returns s.environment later m later := by
      rw [refreshClaim, there]
      exact Returns.done m
    have asked : (producerResponsive m).Returns s.environment later false later := by
      rw [producerResponsive, there]
      exact Returns.done false
    exact poll_connects complete after claim (by rw [there]; nofun) asked retries.due other waits
      alive
  · have recent : ¬ clock later - m.lastProgress < m.staleNs :=
      fun recent => retries.quiet ⟨by rw [there]; rfl, recent⟩
    have quiet : ¬ ((unclaimed m).hdr.isSome && clock later - m.lastProgress < m.staleNs) := by
      rw [decide_eq_false recent, Bool.and_false]
      decide
    have asked : (producerResponsive (unclaimed m)).Returns s.environment later false ended :=
      producerResponsive_old complete there waits (silent old there)
    have connects :=
      poll_connects complete after (refreshClaim_returns complete there) quiet asked retries.due
        other le_rfl alive
    exact connects

end Returned
end ShmFrame.Accesses
