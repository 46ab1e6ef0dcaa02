import ShmFrame.Accesses.Reconnecting

/-! The vector overload of `read_latest` polls, sizes the vector, and then calls the raw
overload, which polls once more: when the vector may be too small for the session that is
read from in the end.
-/

namespace ShmFrame.Accesses

open ShmFrame.Foundation ShmFrame.Foundation.Program LLSubscriber

-----------------------------------------------------------------------------------------
-- When the vector is outgrown
-----------------------------------------------------------------------------------------

/-- Both gates refuse at such a reading of the clock. -/
def TooEarly (m : Impl) (now : UInt64) : Prop :=
  m.minReadNs ≠ 0 ∧ m.lastReadNs ≠ 0 ∧ now - m.lastReadNs < m.minReadNs

/-- The size of a vector after it has been sized to a session. -/
def roomFor (remote : LLConfig) (size : UInt64) : UInt64 :=
  if size < remote.maxPayload then remote.maxPayload else size

/-- Some session a publisher can create has frames of more bytes. -/
def Outgrown (room : UInt64) : Prop :=
  ∃ cfg : LLConfig, cfg.accepted = true ∧ room < cfg.maxPayload

/-- Times at which a call may size the vector, poll once more and read a frame: there is
patience with the producer, and no gate refuses.
-/
structure Admitted (m : Impl) (clock : Nat → UInt64) (start sized polled read : Nat) : Prop where
  patient : m.staleNs ≠ 0
  sizing : start ≤ sized
  polling : sized ≤ polled
  reading : polled ≤ read
  cheapGate : ¬ TooEarly m (clock sized)
  rateGate : ¬ TooEarly m (clock read)

/-- A call that starts with some private state, vector and time may meet, before some other time,
a second `poll` that tries to connect after the vector has been sized: to the session that was
read from before, which has fallen silent during the call, or to whatever a first `poll` that
also tried to connect had found.
-/
def Exposed (m : Impl) (size : UInt64) (clock : Nat → UInt64) (start finish : Nat) : Prop :=
  ∃ sized polled read,
    read ≤ finish
    ∧ Admitted m clock start sized polled read
    ∧ (m.hdr.isSome
          ∧ clock start < clock read
          ∧ Retries m (clock polled)
          ∧ Outgrown (roomFor m.remote size)
        ∨ ∃ first,
            start ≤ first
            ∧ first ≤ sized
            ∧ Retries m (clock first)
            ∧ ¬ clock polled - clock first < m.staleNs
            ∧ ¬ clock polled - clock first < m.retryNs
            ∧ Outgrown size)

/-- A call that takes longer is exposed no less. -/
theorem Exposed.mono {m : Impl} {size : UInt64} {clock : Nat → UInt64} {start finish later : Nat}
    (exposed : Exposed m size clock start finish) (after : finish ≤ later)
    : Exposed m size clock start later := by
  obtain ⟨sized, polled, read, ended, polls⟩ := exposed
  exact ⟨sized, polled, read, ended.trans after, polls⟩

/-- A vector is never made smaller, and has room for the session it has been sized to. -/
theorem roomFor_size (remote : LLConfig) (size : UInt64) : size ≤ roomFor remote size := by
  unfold roomFor
  split
  · rename_i small
    exact UInt64.le_of_lt small
  · exact UInt64.le_refl size

theorem roomFor_payload (remote : LLConfig) (size : UInt64)
    : remote.maxPayload ≤ roomFor remote size := by
  unfold roomFor
  split
  · exact UInt64.le_refl _
  · rename_i large
    exact UInt64.not_lt.mp large

-----------------------------------------------------------------------------------------
-- The vector suffices
-----------------------------------------------------------------------------------------

section Suffices

variable {clock : Nat → UInt64} {s : Sessions clock} {time : Nat}

/-- The result of a read. -/
def Fitting (outcome : Impl × ReadReturn) : Prop := outcome.2.result ≠ .bufferTooSmall

/-- What attempts to read come to: another one is needed, or they conclude without progress,
where a report that there is too little room means that some frame of the session does not fit,
or a frame has been delivered at some time.
-/
inductive Attempted (clock : Nat → UInt64) (m : Impl) (capacity : UInt64) (began ended : Nat)
    : Option (Impl × ReadReturn) → Prop
  | again : Attempted clock m capacity began ended none
  | concluded (next : Impl) (outcome : ReadReturn) (progress : next.lastProgress = m.lastProgress)
    (room : outcome.result = .bufferTooSmall → capacity < m.remote.maxPayload)
    : Attempted clock m capacity began ended (some (next, outcome))
  | delivered (info : LLFrameInfo) (dst : List UInt8) (read : Nat)
    (during : read ∈ Set.Icc began ended)
    : Attempted clock m capacity began ended
        (some (m.deliver info (clock read), { result := .ok, info, dst }))

/-- Attempts may begin earlier. -/
theorem Attempted.widen {m : Impl} {capacity : UInt64} {early began ended : Nat}
    {outcome : Option (Impl × ReadReturn)}
    (attempted : Attempted clock m capacity began ended outcome) (before : early ≤ began)
    : Attempted clock m capacity early ended outcome := by
  cases attempted with
  | again => exact .again
  | concluded next outcome progress room => exact .concluded next outcome progress room
  | delivered info dst read during =>
      exact .delivered info dst read ⟨before.trans during.1, during.2⟩

/-- A single attempt, whatever is found in the segment. -/
theorem readSlot_attempted {m : Impl} {g : Nat} {capacity : UInt64} {info : LLFrameInfo}
    {slot : UInt32} {before : UInt64}
    : (readSlot m g capacity info slot before).Ensures s.environment Allowed time
        fun outcome later => Attempted clock m capacity time later outcome := by
  refine Ensures.bind (ensures_later _) fun fi _ loaded => ?_
  refine Ensures.ite (fun _ => ?_) fun known => ?_
  · refine Ensures.bind (ensures_any _) fun after _ _ => ?_
    exact Ensures.ite (fun _ => .again) fun _ => .concluded _ _ rfl nofun
  refine Ensures.ite (fun large => ?_) fun _ => ?_
  · simp only [Bool.or_eq_true, decide_eq_true_eq, not_or] at known
    have room := UInt64.lt_of_lt_of_le large (UInt64.not_lt.mp known.2)
    refine Ensures.bind (ensures_any _) fun after _ _ => ?_
    exact Ensures.ite (fun _ => .again) fun _ => .concluded _ _ rfl fun _ => room
  refine Ensures.bind (ensures_later _) fun dst _ copied => ?_
  refine Ensures.bind (ensures_later _) fun after _ checked => ?_
  refine Ensures.ite (fun _ => .again) fun _ => ?_
  refine Ensures.bind nowNs_later fun now read known => ?_
  obtain ⟨noted, rfl⟩ := known
  exact .delivered fi dst read ⟨loaded.trans (copied.trans (checked.trans noted)), le_rfl⟩

/-- All attempts together, by induction on them. -/
theorem readAttempts_attempted {m : Impl} {g : Nat} {capacity : UInt64} {info : LLFrameInfo}
    (attempts : Nat)
    : (readAttempts m g capacity info attempts).Ensures s.environment Allowed time
        fun outcome later => Attempted clock m capacity time later (some outcome) := by
  induction attempts generalizing time with
  | zero => exact .concluded _ _ rfl nofun
  | succ attempts ih =>
      refine Ensures.bind (ensures_later _) fun packed _ announced => ?_
      refine Ensures.ite (fun _ => ?_) fun _ => ?_
      · refine Ensures.bind (ensures_any _) fun shutdown _ _ => ?_
        exact Ensures.ite (fun _ => .concluded _ _ rfl nofun) fun _ => .concluded _ _ rfl nofun
      refine Ensures.ite (fun _ => .concluded _ _ rfl nofun) fun _ => ?_
      refine Ensures.bind (ensures_later _) fun before _ checked => ?_
      have looked := announced.trans checked
      refine Ensures.ite (fun _ => ?_) fun _ => ?_
      · exact ih.mono (fun _ => id) fun _ _ attempted => attempted.widen looked
      refine Ensures.bind (readSlot_attempted.and (ensures_later _)) fun outcome _ known => ?_
      obtain ⟨attempted, tried⟩ := known
      cases outcome with
      | none =>
          exact ih.mono (fun _ => id) fun _ _ attempted => attempted.widen (looked.trans tried)
      | some given => exact attempted.widen looked

/-- With room for every frame of its session they do not report that there is too little. -/
theorem Attempted.fitting {m : Impl} {capacity : UInt64} {began ended : Nat}
    {outcome : Impl × ReadReturn}
    (attempted : Attempted clock m capacity began ended (some outcome))
    (room : m.remote.maxPayload ≤ capacity)
    : Fitting outcome := by
  cases attempted with
  | concluded _ _ _ small => exact fun large => UInt64.not_lt.mpr room (small large)
  | delivered => exact nofun

/-- The cheap gate notes no progress. It lets a call pass at some time, and changes nothing
then.
-/
theorem cheapGate_passes (m : Impl)
    : (cheapGate m).Ensures s.environment Allowed time fun gated later =>
        gated.1.lastProgress = m.lastProgress
        ∧ (gated.2 = true
            → gated.1 = m ∧ ∃ at_ ∈ Set.Icc time later, ¬ TooEarly m (clock at_)) := by
  refine Ensures.ite (fun free => ?_) fun _ => ?_
  · simp only [Bool.or_eq_true, decide_eq_true_eq] at free
    refine ⟨rfl, fun _ => ⟨rfl, time, ⟨le_rfl, le_rfl⟩, ?_⟩⟩
    rintro ⟨limited, read, -⟩
    exact free.elim limited read
  refine Ensures.bind nowNs_later fun now read known => ?_
  obtain ⟨after, rfl⟩ := known
  refine Ensures.ite (fun _ => ⟨rfl, nofun⟩) fun late => ?_
  exact ⟨rfl, fun _ => ⟨rfl, read, ⟨after, le_rfl⟩, fun early => late early.2.2⟩⟩

/-- Nor does the gate of the raw overload, which only notes the time of the read. -/
theorem rateGate_passes (m : Impl)
    : (rateGate m).Ensures s.environment Allowed time fun gated later =>
        gated.1.lastProgress = m.lastProgress
        ∧ (gated.2 = true
            → gated.1.remote = m.remote
              ∧ ∃ at_ ∈ Set.Icc time later, ¬ TooEarly m (clock at_)) := by
  refine Ensures.ite (fun free => ?_) fun limited => ?_
  · exact ⟨rfl, fun _ => ⟨rfl, time, ⟨le_rfl, le_rfl⟩, fun early => early.1 free⟩⟩
  refine Ensures.bind nowNs_later fun now read known => ?_
  obtain ⟨after, rfl⟩ := known
  unfold Impl.readGate
  rw [if_pos limited]
  split
  · exact ⟨rfl, nofun⟩
  · rename_i late
    refine ⟨rfl, fun _ => ⟨rfl, read, ⟨after, le_rfl⟩, fun early => late ?_⟩⟩
    simp only [Bool.and_eq_true, decide_eq_true_eq]
    exact early.2

/-- A producer that was productive or responded at one time and is silent at a later one has
fallen silent because the clock has moved.
-/
theorem Vouched.moved {m next : Impl} {start ended polled later : Nat} (rising : Rising clock)
    (vouched : Vouched s m start ended) (same : SameReading m next)
    (retries : Retries next (clock polled)) (silent : Silent s next polled later)
    (order : ended ≤ polled) (last : polled ≤ later)
    : clock start < clock later := by
  rw [UInt64.lt_iff_toNat_lt]
  by_contra still
  -- Otherwise all readings since the start are the same one.
  have reading {time : Nat} (after : start ≤ time) (before : time ≤ later)
      : clock time = clock start := by
    have lower := UInt64.le_iff_toNat_le.mp (rising start time after)
    have upper := UInt64.le_iff_toNat_le.mp (rising time later before)
    exact UInt64.toNat_inj.mp (by omega)
  rcases vouched with ⟨mapped, read, during, recent⟩ | responded
  · have same_ : clock read = clock polled :=
      (reading during.1 (during.2.trans (order.trans last))).trans
        (reading (during.1.trans (during.2.trans order)) last).symm
    refine retries.quiet ⟨same.hdr ▸ mapped, ?_⟩
    rwa [same.progress, same.timers.stale, ← same_]
  · obtain ⟨g, there, read, inRead, loaded, inLoaded, young⟩ := responded
    obtain ⟨readLast, inReadLast, loadedLast, inLoadedLast, old⟩ :=
      silent g (same.hdr.trans there)
    have first : start ≤ polled := inRead.1.trans (inRead.2.trans order)
    rw [reading inRead.1 (inRead.2.trans (order.trans last))] at young
    rw [reading (first.trans inReadLast.1) inReadLast.2, same.timers.stale] at old
    have beats := s.rising g loaded loadedLast (inLoaded.2.trans (order.trans inLoadedLast.1))
    have past := s.read g loadedLast
    rw [reading (first.trans inLoadedLast.1) inLoadedLast.2] at past
    have lastAge := UInt64.toNat_sub_of_le _ _ past
    have firstAge := UInt64.toNat_sub_of_le _ _ (UInt64.le_trans beats past)
    rw [UInt64.le_iff_toNat_le] at beats past
    rw [UInt64.lt_iff_toNat_lt] at young old
    omega

/-- If the vector has been outgrown after two polls, the call has been exposed. -/
theorem exposed_of_outgrown {m : Impl} {size : UInt64} {sizedTo readFrom : Impl × Bool}
    {start polledFirst sized began polledLast read finish : Nat} (rising : Rising clock)
    (first : Polled s start m sizedTo polledFirst) (returned : sizedTo.2 = true)
    (second : Polled s began sizedTo.1 readFrom polledLast)
    (order : polledFirst ≤ sized ∧ sized ≤ began ∧ polledLast ≤ read)
    (later : start ≤ polledFirst) (ended : read ≤ finish)
    (cheapGate : ¬ TooEarly sizedTo.1 (clock sized))
    (rateGate : ¬ TooEarly readFrom.1 (clock read))
    (outgrown : ¬ readFrom.1.remote.maxPayload ≤ roomFor sizedTo.1.remote size)
    : Exposed m size clock start finish := by
  obtain ⟨sizing, polling, reading⟩ := order
  obtain ⟨mapped, patient⟩ := first.mapped returned
  cases second with
  | stayed same =>
      rw [same.remote] at outgrown
      exact absurd (roomFor_payload _ _) outgrown
  | tried polled during retries silent timers session progress attempt =>
      cases session with
      | kept hdr remote =>
          rw [remote] at outgrown
          exact absurd (roomFor_payload _ _) outgrown
      | changed g hdr payload =>
          rw [payload, UInt64.not_le] at outgrown
          have admitted (same : SameTimers m sizedTo.1)
              : Admitted m clock start sized polled read := by
            refine ⟨patient, later.trans sizing, polling.trans during.1,
              during.2.trans reading, fun early => cheapGate ?_, fun early => rateGate ?_⟩
            · rwa [TooEarly, same.minRead, same.lastRead]
            · rwa [TooEarly, timers.minRead, timers.lastRead, same.minRead, same.lastRead]
          refine ⟨sized, polled, read, ended, ?_⟩
          cases first with
          | stayed same vouched =>
              have order : polledFirst ≤ polled := sizing.trans (polling.trans during.1)
              have moved :=
                (vouched returned).moved rising same retries silent order during.2
              have later := rising polledLast read reading
              have quiet := retries.quiet
              have due := retries.due
              rw [same.hdr, same.progress, same.timers.stale] at quiet
              rw [same.attempt, same.timers.retry] at due
              rw [same.remote] at outgrown
              exact ⟨admitted same.timers, .inl ⟨same.hdr ▸ mapped,
                UInt64.lt_of_lt_of_le moved later, ⟨quiet, due⟩, _, s.accepted g, outgrown⟩⟩
          | tried tried duringFirst retriesFirst _ same _ progress attempt =>
              have quiet := fun recent => retries.quiet ⟨mapped, recent⟩
              have due := retries.due
              rw [progress, same.stale] at quiet
              rw [attempt, same.retry] at due
              exact ⟨admitted same, .inr ⟨tried, duringFirst.1, duringFirst.2.trans sizing,
                retriesFirst, quiet, due, _, s.accepted g,
                UInt64.lt_of_le_of_lt (roomFor_size _ _) outgrown⟩⟩

/-- A call that is not exposed until it returns does not report that the vector is too small. -/
theorem readLatestVector_fitting {m : Impl} {size : UInt64} (rising : Rising clock)
    (info : LLFrameInfo)
    : (readLatestVector m size info).Ensures s.environment Allowed time fun outcome finish =>
        ¬ Exposed m size clock time finish → Fitting outcome := by
  refine Ensures.bind ((poll_polled m).and (ensures_later _)) fun polled polledFirst known => ?_
  obtain ⟨first, later⟩ := known
  refine Ensures.ite (fun _ _ => nofun) fun responded => ?_
  have responded : polled.2 = true := by simpa using responded
  refine Ensures.bind (cheapGate_passes polled.1) fun gated began passes => ?_
  refine Ensures.ite (fun _ _ => nofun) fun passed => ?_
  obtain ⟨same, sized, ⟨sizing, polling⟩, cheap⟩ := passes.2 (by simpa using passed)
  rw [same]
  refine Ensures.bind (poll_polled polled.1) fun again polledLast second => ?_
  refine Ensures.ite (fun _ _ => nofun) fun _ => ?_
  refine Ensures.bind (rateGate_passes again.1) fun rated _ passes => ?_
  refine Ensures.ite (fun _ _ => nofun) fun passed => ?_
  obtain ⟨remote, read, ⟨reading, rating⟩, rate⟩ := passes.2 (by simpa using passed)
  split
  · rename_i g there
    refine ((readAttempts_attempted 4).and (ensures_later _)).mono (fun _ => id) ?_
    rintro outcome finish ⟨attempted, after⟩ safe_
    refine attempted.fitting ?_
    rw [remote]
    by_contra outgrown
    exact safe_ (exposed_of_outgrown rising first responded second ⟨sizing, polling, reading⟩ later
      (rating.trans after) cheap rate outgrown)
  · exact fun _ => nofun

end Suffices

-----------------------------------------------------------------------------------------
-- The vector does not suffice
-----------------------------------------------------------------------------------------

section Outgrown

variable {clock : Nat → UInt64} {s : Sessions clock} {time : Nat} {g : Nat} {m : Impl}

/-- A word of the header of slot 1, where every publisher begins, has any value. -/
theorem loadSlot_returns (word : SlotWord) (value : UInt64)
    : (loadSlot g (computeLayout (s.config g)) 1 word).Returns s.environment time value
        time := by
  have bounded := LLConfig.accepted_bounded (s.accepted g)
  have there : (1 : UInt32) < (s.config g).slotCount := by
    rw [UInt32.lt_iff_toNat_lt]
    exact Nat.lt_of_lt_of_le (by decide) bounded.slots.1
  have outside (header : HeaderWord)
      : at_ (slotAt (computeLayout (s.config g)) 1) word.place ≠ header.place := by
    intro same
    have behind := (slot_behind bounded there).1
    have inside := header.place_inside
    rw [← same] at inside
    have some_ : 0 < word.place.size := by
      cases word <;> decide
    have size : sizeofLLHeader.toNat = 448 := rfl
    simp only [at_, Span.last] at inside
    omega
  refine Returns.single ⟨le_rfl, ?_⟩
  refine ⟨fun _ header fixed _ same => ?_, fun _ same => ?_, fun same => ?_⟩
  · exact absurd same (outside header)
  · exact absurd same (outside .magic)
  · exact absurd same (outside .lastHeartbeatNs)

/-- What is read of a first frame of full size. -/
def fullFrame (cfg : LLConfig) : LLFrameInfo where
  frameId := 1
  timestampNs := 1
  width := cfg.maxWidth
  height := cfg.maxHeight
  stride := cfg.maxWidth * cfg.bytesPerPixel
  payloadBytes := cfg.maxPayload.toUInt32

/-- The publisher has published a full frame. -/
theorem loadInfo_returns
    : (loadInfo g (computeLayout (s.config g)) 1).Returns s.environment time
        (fullFrame (s.config g)) time := by
  refine Returns.bind (loadSlot_returns .frameId 1) ?_
  refine Returns.bind (loadSlot_returns .timestampNs 1) ?_
  refine Returns.bind (loadSlot_returns .width (s.config g).maxWidth.toUInt64) ?_
  refine Returns.bind (loadSlot_returns .height (s.config g).maxHeight.toUInt64) ?_
  refine Returns.bind
    (loadSlot_returns .stride ((s.config g).maxWidth * (s.config g).bytesPerPixel).toUInt64) ?_
  refine Returns.bind
    (loadSlot_returns .payloadBytes (s.config g).maxPayload.toUInt32.toUInt64) ?_
  simp only [UInt32.toUInt32_toUInt64]
  exact Returns.done _

/-- The attempt to read that frame finds that there is too little room. -/
theorem readAttempts_outgrown (complete : s.Complete) {capacity : UInt64}
    (info : LLFrameInfo) (attempts : Nat) (layout : m.layout = computeLayout (s.config g))
    (payload : m.remote.maxPayload = (s.config g).maxPayload)
    (slots : m.remote.slotCount = (s.config g).slotCount) (fresh : m.lastFrame = 0)
    (small : capacity < (s.config g).maxPayload)
    : (readAttempts m g capacity info (attempts + 1)).Returns s.environment time
        (m, { result := .bufferTooSmall, info := fullFrame (s.config g) }) time := by
  have bounds := (s.config g).accepted_frameBounds (s.accepted g)
  have news : m.nothingNew 5 = false := by
    rw [Impl.nothingNew, fresh]
    rfl
  have there : ¬ latestSlot 5 ≥ m.remote.slotCount := by
    rw [slots, ge_iff_le, UInt32.le_iff_toNat_le]
    have first : (latestSlot 5).toNat = 1 := rfl
    have some_ := bounds.slots
    omega
  have bytes : (fullFrame (s.config g)).payloadBytes.toUInt64 = (s.config g).maxPayload := by
    have below := bounds.small
    refine UInt64.toNat_inj.mp ?_
    rw [UInt32.toNat_toUInt64]
    change (s.config g).maxPayload.toUInt32.toNat = _
    rw [UInt64.toNat_toUInt32]
    omega
  have found
      : (readSlot m g capacity info (latestSlot 5) 2).Returns s.environment time
          (some (m, { result := .bufferTooSmall, info := fullFrame (s.config g) })) time := by
    have known : ¬ ((s.config g).maxPayload = 0
        || (s.config g).maxPayload > m.remote.maxPayload) := by
      simp only [payload, Bool.or_eq_true, decide_eq_true_eq, not_or]
      refine ⟨fun zero => ?_, UInt64.lt_irrefl _⟩
      have positive := bounds.positive
      rw [zero] at positive
      exact absurd positive (by decide)
    unfold readSlot
    rw [layout]
    refine Returns.bind loadInfo_returns ?_
    dsimp only
    rw [bytes, if_neg known, if_pos small]
    refine Returns.bind (loadSlot_returns .seq 2) ?_
    rw [if_neg (not_not.mpr rfl)]
    exact Returns.done _
  refine Returns.bind (loadHeader_returns complete 5 nofun nofun) ?_
  rw [news, if_neg (by decide), if_neg there, layout]
  refine Returns.bind (loadSlot_returns .seq 2) ?_
  rw [if_neg (by decide)]
  exact Returns.bind found (Returns.done _)

variable {later : Nat}

/-- The cheap gate lets a call pass. -/
theorem cheapGate_returns (after : time ≤ later) (late : ¬ TooEarly m (clock later))
    : ∃ at_ ≤ later, (cheapGate m).Returns s.environment time (m, true) at_ := by
  unfold cheapGate
  split
  · exact ⟨time, after, Returns.done _⟩
  · rename_i limited
    simp only [Bool.or_eq_true, decide_eq_true_eq, not_or] at limited
    have passes : ¬ clock later - m.lastReadNs < m.minReadNs :=
      fun early => late ⟨limited.1, limited.2, early⟩
    refine ⟨later, le_rfl, Returns.bind (ask_returns .nowNs _ rfl after) ?_⟩
    rw [if_neg passes]
    exact Returns.done _

/-- So does the gate of the raw overload. -/
theorem rateGate_returns (after : time ≤ later) (late : ¬ TooEarly m (clock later))
    : ∃ noted, ∃ at_ ≤ later,
        (rateGate m).Returns s.environment time ({ m with lastReadNs := noted }, true)
          at_ := by
  unfold rateGate
  split
  · exact ⟨m.lastReadNs, time, after, Returns.done _⟩
  · rename_i limited
    have passes : ¬ (m.lastReadNs ≠ 0 && clock later - m.lastReadNs < m.minReadNs) := by
      simp only [Bool.and_eq_true, decide_eq_true_eq]
      exact fun early => late ⟨limited, early⟩
    refine ⟨clock later, later, le_rfl, Returns.bind (ask_returns .nowNs _ rfl after) ?_⟩
    rw [Impl.readGate, if_pos limited, if_neg passes]
    exact Returns.done _

/-- After a first `poll` and the sizing, a second `poll` attaches to a session with larger
frames, once the session that is read from has fallen silent.
-/
theorem readLatestVector_outgrown (complete : s.Complete) {sizedTo : Impl} {size : UInt64}
    (info : LLFrameInfo) {polledFirst sized polled read : Nat}
    (first : (poll m).Returns s.environment time (sizedTo, true) polledFirst)
    (order : polledFirst ≤ sized ∧ sized ≤ polled ∧ polled ≤ read)
    (cheap : ¬ TooEarly sizedTo (clock sized)) (rate : ¬ TooEarly sizedTo (clock read))
    (retries : Retries sizedTo (clock polled))
    (silent : ∀ old, sizedTo.hdr = some old → ¬ clock read - s.beat old read < sizedTo.staleNs)
    (other : sizedTo.hdr = none ∨ s.session g ≠ sizedTo.session)
    (alive : clock read - s.beat g read < sizedTo.staleNs)
    (outgrown : roomFor sizedTo.remote size < (s.config g).maxPayload)
    : ∃ outcome, ∃ ended ≤ read,
        (readLatestVector m size info).Returns s.environment time outcome ended
        ∧ ¬ Fitting outcome := by
  obtain ⟨sizing, polling, reading⟩ := order
  obtain ⟨began, beginning, passes⟩ := cheapGate_returns (s := s) sizing cheap
  have again :=
    poll_reattaches complete (beginning.trans polling) retries reading silent other alive
  have late : ¬ TooEarly (reattachedAt s sizedTo g (clock polled)) (clock read) := rate
  obtain ⟨noted, ended, before, rated⟩ := rateGate_returns (s := s) (le_refl read) late
  generalize here : { reattachedAt s sizedTo g (clock polled) with lastReadNs := noted } = readFrom
    at rated
  have attempts
      : (readAttempts readFrom g (roomFor sizedTo.remote size) info 4).Returns s.environment ended
          (readFrom, { result := .bufferTooSmall, info := fullFrame (s.config g) }) ended := by
    subst here
    exact readAttempts_outgrown complete info 3 rfl rfl rfl rfl outgrown
  have mapped : readFrom.hdr = some g := by rw [← here]; rfl
  have small
      : ¬ Fitting (readFrom, { result := .bufferTooSmall, info := fullFrame (s.config g) }) :=
    fun fits => fits rfl
  refine ⟨_, ended, before, Returns.bind first ?_, small⟩
  rw [if_neg (by simp)]
  refine Returns.bind passes ?_
  rw [if_neg (by simp)]
  refine Returns.bind again ?_
  rw [if_neg (by simp)]
  refine Returns.bind rated ?_
  rw [if_neg (by simp)]
  dsimp only
  rw [mapped]
  exact attempts

/-- What is larger than a vector may be larger than one that has been sized to a single pixel. -/
theorem Outgrown.pixel {size : UInt64} (outgrown : Outgrown size)
    : Outgrown (roomFor smallest size) := by
  have pixel : smallest.maxPayload = 1 := by decide +kernel
  unfold roomFor
  rw [pixel]
  split
  · exact ⟨{}, by decide +kernel, by decide +kernel⟩
  · exact outgrown

/-- The heartbeat of a publisher that dies at some reading of the clock. -/
def until_ (dies now : UInt64) : UInt64 := if dies ≤ now then dies else now

theorem until_rising (rising : Rising clock) (dies : UInt64)
    : Rising fun time => until_ dies (clock time) := by
  intro time later after
  have clocks := UInt64.le_iff_toNat_le.mp (rising time later after)
  simp only [until_, UInt64.le_iff_toNat_le]
  split
  · split
    · exact le_rfl
    · omega
  · split
    · omega
    · exact clocks

theorem until_read (dies now : UInt64) : until_ dies now ≤ now := by
  unfold until_
  split
  · assumption
  · exact UInt64.le_refl now

theorem until_alive {dies now : UInt64} (alive : dies ≤ now) : until_ dies now = dies :=
  if_pos alive

/-- A heartbeat may be young at one reading of the clock and old at a later one. -/
theorem until_silent {early late stale : UInt64} (moved : early < late) (patient : stale ≠ 0)
    (enough : stale ≤ late)
    : early - until_ (late - stale) early < stale
      ∧ ¬ late - until_ (late - stale) early < stale := by
  have positive : 0 < stale.toNat :=
    Nat.pos_of_ne_zero fun zero => patient (UInt64.toNat_inj.mp zero)
  have before := until_read (late - stale) early
  have age := UInt64.toNat_sub_of_le _ _ before
  have lateAge := UInt64.toNat_sub_of_le _ _ (UInt64.le_trans before (UInt64.le_of_lt moved))
  have dies := UInt64.toNat_sub_of_le _ _ enough
  rw [UInt64.lt_iff_toNat_lt] at moved
  rw [UInt64.le_iff_toNat_le] at enough
  rw [UInt64.lt_iff_toNat_lt, UInt64.lt_iff_toNat_lt, age, lateAge]
  unfold until_
  split
  · rename_i died
    rw [UInt64.le_iff_toNat_le] at died
    omega
  · rename_i alive
    rw [UInt64.le_iff_toNat_le] at alive
    omega

/-- A session whose publisher dies at `old`, one of a single pixel whose publisher dies at
`brief`, and sessions of some other configuration that stay alive.
-/
def takenOver (rising : Rising clock) {cfg : LLConfig} (accepted : cfg.accepted = true)
    (session : UInt64) (there : Nat) (old brief : UInt64)
    : Sessions clock where
  config := fun g => if g = there + 1 then smallest else cfg
  session := fun g => if g = there + 1 then session + 1 else session + 2
  complete := fun _ _ => true
  beat := fun g time =>
    if g = there then until_ old (clock time)
    else if g = there + 1 then until_ brief (clock time)
    else clock time
  accepted := fun g => by
    split
    · decide +kernel
    · exact accepted
  stays := fun _ _ _ _ _ => rfl
  rising := fun g => by
    split
    · exact until_rising rising old
    split
    · exact until_rising rising brief
    · exact rising
  read := fun g time => by
    split
    · exact until_read _ _
    split
    · exact until_read _ _
    · exact UInt64.le_refl _

/-- All these sessions differ from one another and from an older one. -/
theorem takenOver_differs (session : UInt64)
    : session + 1 ≠ session ∧ session + 2 ≠ session ∧ session + 2 ≠ session + 1 := by
  have range := session.toNat_lt
  have one : (session + 1).toNat = (session.toNat + 1) % 2 ^ 64 := UInt64.toNat_add _ _
  have two : (session + 2).toNat = (session.toNat + 2) % 2 ^ 64 := UInt64.toNat_add _ _
  simp only [ne_eq, ← UInt64.toNat_inj, one, two]
  omega

section Failing

variable {cfg : LLConfig} {start sized polled read : Nat} {size : UInt64} (rising : Rising clock)
  (accepted : cfg.accepted = true)

/-- The heartbeats of these sessions. -/
theorem takenOver_old {session old brief : UInt64} (alive : old ≤ clock time)
    : (takenOver rising accepted session g old brief).beat g time = old :=
  (if_pos rfl).trans (until_alive alive)

theorem takenOver_brief {session old brief : UInt64} (alive : brief ≤ clock time)
    : (takenOver rising accepted session g old brief).beat (g + 1) time = brief :=
  (if_neg (Nat.succ_ne_self g)).trans ((if_pos rfl).trans (until_alive alive))

/-- Their headers are complete. The others are new; the last of them is alive and of the
configuration that was chosen.
-/
structure Target (s : Sessions clock) (session : UInt64) (cfg : LLConfig) (g : Nat) : Prop where
  complete : s.Complete
  brief : s.config (g + 1) = smallest
  newer : s.session (g + 1) ≠ session
  config : s.config (g + 2) = cfg
  newest : s.session (g + 2) ≠ session ∧ s.session (g + 2) ≠ s.session (g + 1)
  alive : ∀ time, s.beat (g + 2) time = clock time

theorem takenOver_target (session old brief : UInt64)
    : Target (takenOver rising accepted session g old brief) session cfg g := by
  obtain ⟨newer, newest, apart⟩ := takenOver_differs session
  have last : (takenOver rising accepted session g old brief).session (g + 2) = session + 2 :=
    if_neg (by omega)
  have first : (takenOver rising accepted session g old brief).session (g + 1) = session + 1 :=
    if_pos rfl
  refine ⟨fun _ _ => rfl, if_pos rfl, ?_, if_neg (by omega), ?_, fun _ => ?_⟩
  · rwa [first]
  · rw [first, last]
    exact ⟨newest, apart⟩
  · exact (if_neg (by omega)).trans (if_neg (by omega))

variable (info : LLFrameInfo) (admitted : Admitted m clock start sized polled read)
  (past : m.lastProgress ≤ clock start)
include rising accepted admitted past

/-- The session that is read from falls silent after the vector has been sized to it. -/
theorem Admitted.fails_here (attached : m.hdr = some g) (moved : clock start < clock read)
    (retries : Retries m (clock polled)) (outgrown : roomFor m.remote size < cfg.maxPayload)
    : ∃ s : Sessions clock, ∃ outcome, ∃ ended ≤ read,
        (readLatestVector m size info).Returns s.environment start outcome ended
        ∧ ¬ Fitting outcome := by
  have patient := UInt64.pos_iff_ne_zero.mpr admitted.patient
  have quiet : ¬ clock polled - m.lastProgress < m.staleNs :=
    fun recent => retries.quiet ⟨Option.isSome_iff_exists.mpr ⟨g, attached⟩, recent⟩
  have enough : m.staleNs ≤ clock read := by
    have first := rising start polled (admitted.sizing.trans admitted.polling)
    have last := rising polled read admitted.reading
    have age := UInt64.toNat_sub_of_le _ _ (UInt64.le_trans past first)
    rw [UInt64.lt_iff_toNat_lt, age] at quiet
    rw [UInt64.le_iff_toNat_le] at last ⊢
    omega
  obtain ⟨young, silent⟩ := until_silent moved admitted.patient enough
  have before := until_read (clock read - m.staleNs) (clock start)
  generalize until_ (clock read - m.staleNs) (clock start) = dies at young silent before
  have later := UInt64.le_trans before (UInt64.le_of_lt moved)
  have beatsFirst : (takenOver rising accepted m.session g dies 0).beat g start = dies :=
    takenOver_old rising accepted before
  have beats : (takenOver rising accepted m.session g dies 0).beat g read = dies :=
    takenOver_old rising accepted later
  have target := takenOver_target (g := g) rising accepted m.session dies 0
  generalize takenOver rising accepted m.session g dies 0 = s at beatsFirst beats target
  have first : (poll m).Returns s.environment start (unclaimed m, true) start := by
    refine poll_stays target.complete attached (.inr ?_)
    rwa [beatsFirst]
  have falls
      : ∀ old, (unclaimed m).hdr = some old → ¬ clock read - s.beat old read < m.staleNs := by
    intro old there
    obtain rfl := Option.some.inj (attached.symm.trans there)
    rwa [beats]
  have alive : clock read - s.beat (g + 2) read < m.staleNs := by
    rwa [target.alive, UInt64.sub_self]
  have room : roomFor m.remote size < (s.config (g + 2)).maxPayload := by
    rwa [target.config]
  exact ⟨s, readLatestVector_outgrown target.complete info first
    ⟨admitted.sizing, admitted.polling, admitted.reading⟩ admitted.cheapGate admitted.rateGate
    ⟨retries.quiet, retries.due⟩ falls (.inr target.newest.1) alive room⟩

/-- A session of a single pixel is found first, and falls silent after the vector has been sized
to it.
-/
theorem Admitted.fails_later {first : Nat} (began : start ≤ first) (sizing : first ≤ sized)
    (retries : Retries m (clock first)) (quiet : ¬ clock polled - clock first < m.staleNs)
    (due : ¬ clock polled - clock first < m.retryNs)
    (outgrown : roomFor smallest size < cfg.maxPayload)
    : ∃ s : Sessions clock, ∃ outcome, ∃ ended ≤ read,
        (readLatestVector m size info).Returns s.environment start outcome ended
        ∧ ¬ Fitting outcome := by
  have patient := UInt64.pos_iff_ne_zero.mpr admitted.patient
  have firstRead : first ≤ read := sizing.trans (admitted.polling.trans admitted.reading)
  have beatsOld
      : (takenOver rising accepted m.session (m.hdr.getD 0) m.lastProgress (clock first)).beat
          (m.hdr.getD 0) first
        = m.lastProgress :=
    takenOver_old rising accepted (UInt64.le_trans past (rising start first began))
  have beats {time : Nat} (after : first ≤ time)
      : (takenOver rising accepted m.session (m.hdr.getD 0) m.lastProgress (clock first)).beat
          (m.hdr.getD 0 + 1) time
        = clock first :=
    takenOver_brief rising accepted (rising first time after)
  have target :=
    takenOver_target (g := m.hdr.getD 0) rising accepted m.session m.lastProgress (clock first)
  generalize takenOver rising accepted m.session (m.hdr.getD 0) m.lastProgress (clock first) = s
    at beatsOld beats target
  have attaches
      : (poll m).Returns s.environment start
          (reattachedAt s m (m.hdr.getD 0 + 1) (clock first), true) first := by
    refine poll_reattaches target.complete began retries le_rfl (fun old there => ?_)
      (.inr target.newer) ?_
    · rw [there, Option.getD_some] at beatsOld
      rw [beatsOld]
      exact fun recent => retries.quiet ⟨Option.isSome_iff_exists.mpr ⟨old, there⟩, recent⟩
    · rwa [beats le_rfl, UInt64.sub_self]
  have remote
      : (reattachedAt s m (m.hdr.getD 0 + 1) (clock first)).remote.maxPayload
        = smallest.maxPayload := by
    rw [← target.brief]
    rfl
  have again : Retries (reattachedAt s m (m.hdr.getD 0 + 1) (clock first)) (clock polled) :=
    ⟨fun recent => quiet recent.2, due⟩
  have falls
      : ∀ old,
          (reattachedAt s m (m.hdr.getD 0 + 1) (clock first)).hdr = some old
          → ¬ clock read - s.beat old read < m.staleNs := by
    intro old there
    obtain rfl := Option.some.inj there
    rw [beats firstRead]
    have order := rising first polled (sizing.trans admitted.polling)
    have last := rising polled read admitted.reading
    have age := UInt64.toNat_sub_of_le _ _ order
    have lastAge := UInt64.toNat_sub_of_le _ _ (UInt64.le_trans order last)
    rw [UInt64.lt_iff_toNat_lt, age] at quiet
    rw [UInt64.lt_iff_toNat_lt, lastAge]
    rw [UInt64.le_iff_toNat_le] at last
    omega
  have alive : clock read - s.beat (m.hdr.getD 0 + 2) read < m.staleNs := by
    rwa [target.alive, UInt64.sub_self]
  have room
      : roomFor (reattachedAt s m (m.hdr.getD 0 + 1) (clock first)).remote size
        < (s.config (m.hdr.getD 0 + 2)).maxPayload := by
    rw [target.config, roomFor, remote]
    exact outgrown
  exact ⟨s, readLatestVector_outgrown target.complete info attaches
    ⟨sizing, admitted.polling, admitted.reading⟩ admitted.cheapGate admitted.rateGate again falls
    (.inr target.newest.2) alive room⟩

end Failing
end Outgrown

-----------------------------------------------------------------------------------------
-- The last progress
-----------------------------------------------------------------------------------------

section Past

variable {clock : Nat → UInt64} {s : Sessions clock} {time : Nat} {m : Impl}

/-- The last progress is not in the future. -/
def Past (clock : Nat → UInt64) (time : Nat) (m : Impl) : Prop := m.lastProgress ≤ clock time

/-- What has been read from the clock is in the past from then on. -/
theorem Past.later {later : Nat} (past : Past clock time m) (rising : Rising clock)
    (after : time ≤ later)
    : Past clock later m :=
  UInt64.le_trans past (rising time later after)

/-- Where no progress is made. -/
theorem Past.same {next : Impl} (past : Past clock time m)
    (progress : next.lastProgress = m.lastProgress)
    : Past clock time next := by
  rwa [Past, progress]

/-- A `poll` leaves the last progress in the past. -/
theorem Polled.past {polled : Impl × Bool} {later : Nat} (polls : Polled s time m polled later)
    (rising : Rising clock) (past : Past clock later m)
    : Past clock later polled.1 := by
  cases polls with
  | stayed same _ => exact past.same same.progress
  | tried at_ during _ _ _ _ progress _ _ =>
      rw [Past, progress]
      exact rising at_ later during.2

/-- So does every program that changes nothing that is read from. -/
theorem Past.of_same {program : Access Impl} (rising : Rising clock) (past : Past clock time m)
    (same
      : program.Ensures s.environment Allowed time fun next _ =>
          next.lastProgress = m.lastProgress)
    : program.Ensures s.environment Allowed time fun next later => Past clock later next :=
  (same.and (ensures_later program)).mono (fun _ => id) fun _ _ known =>
    (past.later rising known.2).same known.1

/-- Attempts to read note the time when they deliver a frame. -/
theorem Attempted.past {capacity : UInt64} {began ended : Nat} {outcome : Impl × ReadReturn}
    (attempted : Attempted clock m capacity began ended (some outcome)) (rising : Rising clock)
    (past : Past clock ended m)
    : Past clock ended outcome.1 := by
  cases attempted with
  | concluded next outcome progress => exact past.same progress
  | delivered info dst read during => exact rising read ended during.2

/-- The raw overload. -/
theorem readLatest_past (rising : Rising clock) (past : Past clock time m) (capacity : UInt64)
    (info : LLFrameInfo)
    : (readLatest m capacity info).Ensures s.environment Allowed time fun outcome later =>
        Past clock later outcome.1 := by
  refine Ensures.bind ((poll_polled m).and (ensures_later _)) fun polled ended known => ?_
  have past := known.1.past rising (past.later rising known.2)
  refine Ensures.ite (fun _ => past) fun _ => ?_
  refine Ensures.bind ((rateGate_passes polled.1).and (ensures_later _)) fun gated _ known => ?_
  have past := (past.later rising known.2).same known.1.1
  refine Ensures.ite (fun _ => past) fun _ => ?_
  split
  · refine ((readAttempts_attempted 4).and (ensures_later _)).mono (fun _ => id) ?_
    intro outcome last known
    exact known.1.past rising (past.later rising known.2)
  · exact past

/-- The vector overload. -/
theorem readLatestVector_past (rising : Rising clock) (past : Past clock time m) (size : UInt64)
    (info : LLFrameInfo)
    : (readLatestVector m size info).Ensures s.environment Allowed time fun outcome later =>
        Past clock later outcome.1 := by
  refine Ensures.bind ((poll_polled m).and (ensures_later _)) fun polled ended known => ?_
  have past := known.1.past rising (past.later rising known.2)
  refine Ensures.ite (fun _ => past) fun _ => ?_
  refine Ensures.bind ((cheapGate_passes polled.1).and (ensures_later _)) fun gated _ known => ?_
  have past := (past.later rising known.2).same known.1.1
  exact Ensures.ite (fun _ => past) fun _ => readLatest_past rising past _ info

/-- Asking whether the channel is still ours is no progress. -/
theorem stillOwnsCommands_past (rising : Rising clock) (past : Past clock time m) (g : Nat)
    : (stillOwnsCommands m g).Ensures s.environment Allowed time fun next later =>
        Past clock later next := by
  refine Past.of_same rising past (Ensures.ite (fun _ => rfl) fun _ => ?_)
  refine Ensures.bind (ensures_any _) fun gen _ _ => ?_
  refine Ensures.ite (fun _ => rfl) fun _ => ?_
  refine Ensures.bind (ensures_any _) fun now _ _ => ?_
  exact Ensures.bind (ensures_any _) fun _ _ _ => rfl

/-- Sending is no progress either, receiving is. -/
theorem send_past (rising : Rising clock) (past : Past clock time m) (call : Commands.PushCall)
    : (send m call).Ensures s.environment Allowed time fun outcome later =>
        Past clock later outcome.1 := by
  unfold send
  split
  · refine Ensures.bind (stillOwnsCommands_past rising past _) fun m _ past => ?_
    refine Ensures.ite (fun _ => past) fun _ => ?_
    refine Ensures.bind (ensures_later _) fun now _ after => ?_
    have past := past.later rising after
    refine Ensures.bind (ensures_later _) fun pushed _ after => ?_
    exact Ensures.ite (fun _ => past.later rising after) fun _ => past.later rising after
  · exact past

theorem receive_past (rising : Rising clock) (past : Past clock time m)
    : (receive m).Ensures s.environment Allowed time fun outcome later =>
        Past clock later outcome.1 := by
  unfold receive
  split
  · refine Ensures.bind (stillOwnsCommands_past rising past _) fun m _ past => ?_
    refine Ensures.ite (fun _ => past) fun _ => ?_
    refine Ensures.bind (ensures_later _) fun popped _ after => ?_
    split
    · refine Ensures.bind nowNs_later fun now read known => ?_
      exact UInt64.le_of_eq known.2
    · exact past.later rising after
  · exact past

/-- Every call of a subscriber leaves its last progress in the past. -/
theorem SubscriberCall.program_past (rising : Rising clock) (past : Past clock time m)
    (call : SubscriberCall)
    : (call.program m).Ensures s.environment Allowed time fun next later =>
        Past clock later next := by
  cases call with
  | open_ name =>
      refine Ensures.bind nowNs_later fun now read known => ?_
      refine Past.of_same (m := { name, lastProgress := now }) rising ?_ ?_
      · exact UInt64.le_of_eq known.2
      · exact (tryConnect_session _).mono (fun _ => id) fun _ _ known => known.2.1
  | poll =>
      refine Ensures.bind ((poll_polled m).and (ensures_later _)) fun polled _ known => ?_
      exact known.1.past rising (past.later rising known.2)
  | readLatest capacity info =>
      exact Ensures.bind (readLatest_past rising past capacity info) fun _ _ known => known
  | readLatestVector size info =>
      exact Ensures.bind (readLatestVector_past rising past size info) fun _ _ known => known
  | send call => exact Ensures.bind (send_past rising past call) fun _ _ known => known
  | receive => exact Ensures.bind (receive_past rising past) fun _ _ known => known
  | close => exact Ensures.bind (ensures_any _) fun _ _ _ => UInt64.zero_le
  | configure staleNs retryNs minReadNs => exact past

end Past

-----------------------------------------------------------------------------------------
-- Exactly when it suffices
-----------------------------------------------------------------------------------------

/-- An exposed call may report that the vector is too small. -/
theorem Exposed.fails {clock : Nat → UInt64} {m : Impl} {size : UInt64} {start finish : Nat}
    (rising : Rising clock) (past : m.lastProgress ≤ clock start)
    (exposed : Exposed m size clock start finish) (info : LLFrameInfo)
    : ∃ s : Sessions clock, ∃ outcome, ∃ ended ≤ finish,
        (readLatestVector m size info).Returns s.environment start outcome ended
        ∧ ¬ Fitting outcome := by
  obtain ⟨sized, polled, read, before, admitted, polls⟩ := exposed
  rcases polls with ⟨mapped, moved, retries, cfg, accepted, outgrown⟩
    | ⟨first, began, sizing, retries, quiet, due, outgrown⟩
  · obtain ⟨g, attached⟩ := Option.isSome_iff_exists.mp mapped
    obtain ⟨s, outcome, ended, over_, fails⟩ :=
      admitted.fails_here rising accepted info past attached moved retries outgrown
    exact ⟨s, outcome, ended, over_.trans before, fails⟩
  · obtain ⟨cfg, accepted, outgrown⟩ := outgrown.pixel
    obtain ⟨s, outcome, ended, over_, fails⟩ :=
      admitted.fails_later rising accepted info past began sizing retries quiet due outgrown
    exact ⟨s, outcome, ended, over_.trans before, fails⟩

/-- For every clock that never goes back, every private state with a last progress in the past,
every vector and every time the call starts at: whatever publishers do meanwhile, no call of the
vector overload that is over by some time reports that the vector is too small, if and only if
no second `poll` may find a larger session by then, after the vector has been sized. So no call
at all does, if and only if this holds for all these times.
-/
theorem readLatestVector_fitting_iff {clock : Nat → UInt64} (rising : Rising clock)
    {m : Impl} {start : Nat} (past : Past clock start m) (size : UInt64) (info : LLFrameInfo)
    : (∀ finish,
          (∀ s : Sessions clock,
            (readLatestVector m size info).Ensures s.environment Allowed start
              fun outcome ended => ended ≤ finish → outcome.2.result ≠ .bufferTooSmall)
          ↔ ¬ Exposed m size clock start finish)
      ∧ ((∀ s : Sessions clock,
            (readLatestVector m size info).Ensures s.environment Allowed start
              fun outcome _ => outcome.2.result ≠ .bufferTooSmall)
          ↔ ∀ finish, ¬ Exposed m size clock start finish) := by
  refine ⟨fun finish => ⟨fun fitting exposed => ?_, fun safe_ s => ?_⟩,
    fun fitting finish exposed => ?_, fun safe_ s => ?_⟩
  · obtain ⟨s, outcome, ended, over_, returns, small⟩ := exposed.fails rising past info
    exact small ((fitting s).returned returns over_)
  · refine (readLatestVector_fitting rising info).mono (fun _ => id) ?_
    exact fun outcome ended fits over_ => fits fun exposed => safe_ (exposed.mono over_)
  · obtain ⟨s, outcome, ended, -, returns, small⟩ := exposed.fails rising past info
    exact small ((fitting s).returned returns)
  · refine (readLatestVector_fitting rising info).mono (fun _ => id) ?_
    exact fun outcome ended fits => fits (safe_ ended)

/-- A subscriber that is attached to a session of a single pixel. -/
def pixelReader : Impl where
  hdr := some 0
  remote := smallest
  layout := computeLayout smallest
  session := 77

/-- A clock that goes on for ten nanoseconds and is at the limit of 500 ms for a silent producer
then.
-/
def nearLimit (time : Nat) : UInt64 := UInt64.ofNat (499999990 + min time 10)

theorem nearLimit_toNat (time : Nat) : (nearLimit time).toNat = 499999990 + min time 10 := by
  simp only [nearLimit, UInt64.toNat_ofNat']
  omega

/-- A call that is over before the clock has got there never reports that its vector is too
small, and one that takes longer may.
-/
theorem readLatestVector_fitting_early
    : (∀ s : Sessions nearLimit,
          (readLatestVector pixelReader 0 {}).Ensures s.environment Allowed 0
            fun outcome ended => ended ≤ 9 → outcome.2.result ≠ .bufferTooSmall)
      ∧ ¬ ∀ s : Sessions nearLimit,
          (readLatestVector pixelReader 0 {}).Ensures s.environment Allowed 0
            fun outcome ended => ended ≤ 10 → outcome.2.result ≠ .bufferTooSmall := by
  have rising : Rising nearLimit := by
    intro time later after
    rw [UInt64.le_iff_toNat_le, nearLimit_toNat, nearLimit_toNat]
    omega
  have past : Past nearLimit 0 pixelReader := UInt64.zero_le
  have fits := (readLatestVector_fitting_iff rising past 0 {}).1
  have recent {time : Nat} (early : time ≤ 9) (retries : Retries pixelReader (nearLimit time))
      : False := by
    refine retries.quiet ⟨rfl, ?_⟩
    change nearLimit time - 0 < 500000000
    rw [UInt64.sub_zero, UInt64.lt_iff_toNat_lt, nearLimit_toNat]
    simp only [UInt64.reduceToNat]
    omega
  constructor
  · refine (fits 9).mpr ?_
    rintro ⟨sized, polled, read, over_, admitted,
      ⟨-, -, retries, -⟩ | ⟨first, -, sizing, retries, -⟩⟩
    · exact recent (admitted.reading.trans over_) retries
    · exact recent (sizing.trans (admitted.polling.trans (admitted.reading.trans over_))) retries
  · rw [fits 10, not_not]
    refine ⟨0, 10, 10, le_rfl, ⟨by decide, le_rfl, Nat.zero_le 10, le_rfl, nofun, nofun⟩, .inl ?_⟩
    exact ⟨rfl, by decide, ⟨by decide, by decide⟩, {}, by decide +kernel, by decide +kernel⟩

/-- A clock that reaches the limit of 500 ms for a silent producer after its first reading. -/
def reachingLimit (time : Nat) : UInt64 := if time = 0 then 499999999 else 500000000

/-- With that clock it may: the first `poll` finds the session recent, the vector gets a single
byte, the second `poll` finds a session of another publisher.
-/
theorem readLatestVector_tooSmall
    : Rising reachingLimit
      ∧ Past reachingLimit 0 pixelReader
      ∧ ∃ s : Sessions reachingLimit,
          ¬ (readLatestVector pixelReader 0 {}).Ensures s.environment Allowed 0
              fun outcome _ => outcome.2.result ≠ .bufferTooSmall := by
  have rising : Rising reachingLimit := by
    intro time later after
    unfold reachingLimit
    split
    · split
      · exact UInt64.le_refl _
      · decide
    · rw [if_neg (by omega)]
      exact UInt64.le_refl _
  have past : Past reachingLimit 0 pixelReader := UInt64.zero_le
  have exposed : Exposed pixelReader 0 reachingLimit 0 1 := by
    refine ⟨0, 1, 1, le_rfl, ⟨by decide, le_rfl, Nat.zero_le 1, le_rfl, nofun, nofun⟩, .inl ?_⟩
    exact ⟨rfl, by decide, ⟨by decide, by decide⟩, {}, by decide +kernel, by decide +kernel⟩
  obtain ⟨s, outcome, ended, -, returns, small⟩ := exposed.fails rising past {}
  exact ⟨rising, past, s, fun fitting => small (fitting.returned returns)⟩

end ShmFrame.Accesses
