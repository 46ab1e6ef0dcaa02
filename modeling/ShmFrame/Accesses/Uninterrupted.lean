import ShmFrame.Accesses.Alone

/-! The subscriber's calls on bytes follow those on words: a call that nobody interrupts does
to the bytes what the call on words does to the words, and returns the same.
-/

namespace ShmFrame.Accesses

open ShmFrame.Foundation ShmFrame.Foundation.Program
open LLSubscriber
open Calls (World Segment Subscriber Circumstances Call Seated)

/-- The private state is the one on words, and the bytes say the words. -/
structure Agrees (m : Impl) (later : Alone) (next : Subscriber) : Prop where
  impl : m = next.impl
  depicts : Depicts later next.world next.clock

-----------------------------------------------------------------------------------------
-- The claim
-----------------------------------------------------------------------------------------

section Claim

variable {a : Alone} {s : Subscriber} {g : Nat}

/-- The clock is read by both. -/
theorem nowNs_follows (depicts : Depicts a s.world s.clock)
    : nowNs.Follows alone a (fun _ : Unit => Call.nowNs) s fun now later reading next =>
        now = reading ∧ Depicts later next.world next.clock := by
  refine nowNs_alone.mono (fun _ => id) fun now later answered => ⟨(), ?_⟩
  obtain ⟨rfl, rfl⟩ := answered
  exact ⟨congrFun depicts.clock 0, depicts.tick⟩

/-- One of the owner words is stored. -/
theorem Depicts.setHeader (depicts : Depicts a s.world s.clock)
    (sound : (s.world.segments g).Sound) {word : HeaderWord} {value : UInt64}
    {gen beat : LLHeader → UInt64} (fits : FitsIn word.place value)
    (set
      : ∀ h other,
          headerWord { h with commandOwnerGen := gen h, commandOwnerHeartbeatNs := beat h } other
          = if other = word then value else headerWord h other)
    : let next := ((Call.setHeader g gen beat).run s).2
      Depicts { a with bytes := assign a.bytes g (storeAt (a.bytes g) word.place value) }
        next.world next.clock :=
  depicts.setSegment ((depicts.segment g).storeHeader sound fits _ rfl (set _)) rfl

/-- The claim is stored. -/
theorem Depicts.storeOwnerGen (depicts : Depicts a s.world s.clock)
    (sound : (s.world.segments g).Sound) (gen : UInt64)
    : let place := HeaderWord.commandOwnerGen.place
      let next := ((Call.storeOwnerGen g gen).run s).2
      Depicts { a with bytes := assign a.bytes g (storeAt (a.bytes g) place gen) }
        next.world next.clock :=
  depicts.setHeader sound (.eight rfl gen) fun h other => by cases other <;> rfl

/-- The claim's heartbeat is stored. -/
theorem storeOwnerHeartbeat_follows (depicts : Depicts a s.world s.clock)
    (sound : (s.world.segments g).Sound) (now : UInt64)
    : (storeHeader g .commandOwnerHeartbeatNs now).Follows alone a
        (fun _ : Unit => Call.storeOwnerHeartbeat g now) s fun _ later _ next =>
          Depicts later next.world next.clock := by
  refine (store_alone g _ _ _).mono (fun _ => id) fun _ later stored => ⟨(), ?_⟩
  rw [stored]
  exact depicts.setHeader sound (.eight rfl now) fun h other => by cases other <;> rfl

/-- The owner words have nothing to do with the configuration. -/
theorem sound_setOwner {world : World} (sound : (world.segments g).Sound) (gen beat : UInt64)
    : let segment := world.segments g
      let header :=
        { segment.header with commandOwnerGen := gen, commandOwnerHeartbeatNs := beat }
      ((world.setSegment g { segment with header }).segments g).Sound := by
  dsimp only
  rw [World.setSegment_same]
  exact ⟨sound.valid, sound.fits⟩

/-- The own claim is checked, and its heartbeat refreshed. -/
theorem stillOwnsCommands_follows (depicts : Depicts a s.world s.clock)
    (sound : (s.world.segments g).Sound)
    : (stillOwnsCommands s.impl g).Follows alone a
        (fun _ : Unit => Calls.stillOwnsCommands g) s fun m later owns next =>
          Agrees m later next ∧ owns = m.ownsCommands := by
  refine Follows.right (Follows.ite Iff.rfl (fun lost _ => ?_) fun owns _ => ?_)
  · refine .pure () ⟨⟨rfl, depicts⟩, ?_⟩
    exact Eq.symm (by simpa using lost : s.impl.ownsCommands = false)
  refine Follows.left (loadHeader_alone depicts g .commandOwnerGen) fun _ _ loaded => ?_
  obtain ⟨rfl, rfl⟩ := loaded
  refine Follows.right (Follows.ite Iff.rfl (fun _ _ => ?_) fun _ _ => ?_)
  · exact .pure () ⟨⟨rfl, depicts⟩, rfl⟩
  refine Follows.bind (nowNs_follows depicts) fun now later read => ?_
  obtain ⟨rfl, ticked⟩ := read
  refine Follows.bind (storeOwnerHeartbeat_follows ticked sound _) fun _ _ stored => ?_
  refine .pure () ⟨⟨rfl, stored⟩, ?_⟩
  exact Eq.symm (by simpa using owns : s.impl.ownsCommands = true)

/-- An age is the same whichever operand is evaluated first. -/
theorem ageOf_follows (depicts : Depicts a s.world s.clock) (word : HeaderWord)
    : (ageOf g word).Follows alone a (fun _ : Unit => Call.nowNs) s fun age later now next =>
        age = now - headerWord (s.world.segments g).header word
        ∧ Depicts later next.world next.clock := by
  have reading : a.clock 0 = s.clock 0 := congrFun depicts.clock 0
  refine Follows.left (ask_alone .clockFirst nofun) fun first _ unchanged => ?_
  obtain ⟨-, rfl⟩ := unchanged
  refine Follows.iteLeft (fun _ => ?_) fun _ => ?_
  · refine Follows.left nowNs_alone fun _ _ answered => ?_
    obtain ⟨rfl, rfl⟩ := answered
    refine Follows.left (loadHeader_alone depicts.tick g word) fun _ _ loaded => ?_
    obtain ⟨rfl, rfl⟩ := loaded
    exact .pure () ⟨by rw [reading]; rfl, depicts.tick⟩
  · refine Follows.left (loadHeader_alone depicts g word) fun _ _ loaded => ?_
    obtain ⟨rfl, rfl⟩ := loaded
    refine Follows.left nowNs_alone fun _ _ answered => ?_
    obtain ⟨rfl, rfl⟩ := answered
    exact .pure () ⟨by rw [reading]; rfl, depicts.tick⟩

/-- The judgement of an existing claim, which takes some time at most. -/
theorem genuinelyHeld_follows (depicts : Depicts a s.world s.clock)
    : (genuinelyHeld g (s.world.segments g).header.commandOwnerGen).Follows alone a
        (fun _ : Unit => Calls.genuinelyHeld g) s fun held later same next =>
          held = same ∧ ∃ clock, next = { s with clock } ∧ Depicts later s.world clock := by
  refine Follows.right (Follows.ite Iff.rfl (fun _ _ => ?_) fun _ _ => ?_)
  · exact .pure () ⟨rfl, _, rfl, depicts⟩
  refine Follows.bind (ageOf_follows depicts .commandOwnerHeartbeatNs) fun age later aged => ?_
  obtain ⟨rfl, ticked⟩ := aged
  exact .pure () ⟨rfl, _, rfl, ticked⟩

/-- The exchange fails spuriously and changes nothing, or it stores the claim, since nobody
else has stored another one.
-/
theorem exchangeWeak_alone (depicts : Depicts a s.world s.clock) (claim : UInt64)
    : let gen := (s.world.segments g).header.commandOwnerGen
      (exchangeWeak g gen claim).Ensures alone Anything a fun outcome later =>
        (outcome = (gen, false) ∧ later = a)
        ∨ (outcome = (gen, true)
          ∧ later
            = {
                a with
                bytes :=
                  assign a.bytes g
                    (storeAt (a.bytes g) HeaderWord.commandOwnerGen.place claim)
              }) := by
  dsimp only
  refine Ensures.bind (ask_alone .spurious nofun) fun fails _ unchanged => ?_
  obtain ⟨-, rfl⟩ := unchanged
  refine Ensures.ite (fun _ => ?_) fun _ => ?_
  · refine Ensures.bind (loadHeader_alone depicts g .commandOwnerGen) fun _ _ loaded => ?_
    obtain ⟨rfl, rfl⟩ := loaded
    exact .inl ⟨rfl, rfl⟩
  · refine Ensures.bind (exchange_alone g _ _ _ _) fun found later stored => ?_
    have there : found = (s.world.segments g).header.commandOwnerGen :=
      stored.1.trans ((depicts.segment g).header .commandOwnerGen)
    refine .inr ⟨?_, stored.2.trans (if_pos there)⟩
    rw [there]
    exact congrArg _ (decide_eq_true rfl)

/-- What the claim loop on words does first, however often the exchange will fail. -/
theorem claimLoop_eq (g spurious : Nat)
    : Calls.claimLoop g spurious
      = (do
          if ← Calls.genuinelyHeld g then return
          let now ← Call.nowNs
          let claim := if now = 0 then 1 else now
          match spurious with
          | spurious + 1 => Calls.claimLoop g spurious
          | 0 =>
              Call.storeOwnerGen g claim
              Call.setImpl { (← Call.impl) with ownsCommands := true, ownerGen := claim }
              Call.storeOwnerHeartbeat g (← Call.nowNs)) := by
  cases spurious <;> rfl

/-- The claim loop, by induction on the rounds there is time for. Every failure of the exchange
is a choice of the loop on words.
-/
theorem claimLoop_follows (depicts : Depicts a s.world s.clock)
    (sound : (s.world.segments g).Sound) (patience : Nat)
    : (claimLoop g s.impl (s.world.segments g).header.commandOwnerGen patience).Follows alone a
        (fun spurious => Calls.claimLoop g spurious) s fun m later _ next =>
          Agrees m later next := by
  induction patience generalizing a s with
  | zero => exact ⟨trivial, nofun⟩
  | succ patience ih =>
      refine Follows.rename id (fun _ => congrArg (·.run s) (claimLoop_eq g _)) ?_
      refine Follows.bind (genuinelyHeld_follows depicts) fun held later judged => ?_
      obtain ⟨rfl, clock, moved, known⟩ := judged
      rw [moved]
      refine Follows.ite Iff.rfl (fun _ _ => .pure 0 ⟨rfl, known⟩) fun _ _ => ?_
      refine Follows.bind (nowNs_follows known) fun now later read => ?_
      obtain ⟨rfl, ticked⟩ := read
      refine Follows.left (exchangeWeak_alone ticked _) fun outcome later exchanged => ?_
      rcases exchanged with ⟨rfl, rfl⟩ | ⟨rfl, rfl⟩
      · refine Follows.rename (· + 1) (fun _ => rfl) ?_
        exact ih ticked sound
      · refine Follows.rename (fun _ : Unit => 0) (fun _ => rfl) ?_
        refine Follows.right (Follows.right (Follows.right ?_))
        refine Follows.bind (nowNs_follows (ticked.storeOwnerGen sound _)) fun now later read => ?_
        obtain ⟨rfl, passed⟩ := read
        refine Follows.bind (storeOwnerHeartbeat_follows passed (sound_setOwner sound _ _) _)
          fun _ _ stored => ?_
        exact .pure () ⟨rfl, stored⟩

end Claim

-----------------------------------------------------------------------------------------
-- Attaching
-----------------------------------------------------------------------------------------

section Attaching

variable {a : Alone} {s : Subscriber} {g : Nat}

/-- The configuration that a header echoes, loaded word by word. -/
theorem loadConfig_alone (depicts : Depicts a s.world s.clock)
    : (loadConfig g).Ensures alone Anything a fun c later =>
        c = (s.world.segments g).header.config ∧ later = a := by
  unfold loadConfig
  iterate 6
    refine Ensures.bind (loadHeader_alone depicts g _) fun _ _ loaded => ?_
    obtain ⟨rfl, rfl⟩ := loaded
  exact ⟨by simp [LLHeader.config, headerWord], rfl⟩

/-- All comparisons of the header, by induction on them. -/
theorem agrees_alone (depicts : Depicts a s.world s.clock) (list : List (HeaderWord × UInt64))
    : (agrees g list).Ensures alone Anything a fun same later =>
        (same = true ↔ ∀ pair ∈ list, pair.2 = headerWord (s.world.segments g).header pair.1)
        ∧ later = a := by
  induction list with
  | nil => exact ⟨by simp, rfl⟩
  | cons pair rest ih =>
      refine Ensures.bind (loadHeader_alone depicts g _) fun _ _ loaded => ?_
      obtain ⟨rfl, rfl⟩ := loaded
      refine Ensures.ite (fun differs => ⟨?_, rfl⟩) fun same => ?_
      · simp [differs]
      refine ih.mono (fun _ => id) fun _ _ known => ⟨known.1.trans ?_, known.2⟩
      simp [not_not.mp same]

/-- The validation of a header comes to the same. -/
theorem validateHeader_alone (depicts : Depicts a s.world s.clock)
    : (validateHeader g).Ensures alone Anything a fun cl later =>
        cl = ShmFrame.validateHeader (s.world.segments g).size (s.world.segments g).header
        ∧ later = a := by
  unfold validateHeader ShmFrame.validateHeader
  refine Ensures.bind (ask_alone (.sizeOf g) nofun) fun size _ sized => ?_
  obtain ⟨found, rfl⟩ := sized
  obtain rfl : size = (s.world.segments g).size := found.trans (depicts.size g)
  refine Ensures.ite (fun small => ⟨(if_pos small).symm, rfl⟩) fun large => ?_
  rw [if_neg large]
  refine Ensures.bind (loadHeader_alone depicts g .magic) fun _ _ loaded => ?_
  obtain ⟨rfl, rfl⟩ := loaded
  rw [headerWord, UInt32.toUInt32_toUInt64]
  refine Ensures.ite (fun wrong => ⟨(if_pos wrong).symm, rfl⟩) fun magic => ?_
  rw [if_neg magic]
  refine Ensures.bind (loadHeader_alone depicts g .version) fun _ _ loaded => ?_
  obtain ⟨rfl, rfl⟩ := loaded
  rw [headerWord, UInt32.toUInt32_toUInt64]
  refine Ensures.ite (fun wrong => ⟨(if_pos wrong).symm, rfl⟩) fun version => ?_
  rw [if_neg version]
  refine Ensures.bind (loadConfig_alone depicts) fun _ _ loaded => ?_
  obtain ⟨rfl, rfl⟩ := loaded
  refine Ensures.ite (fun wrong => ⟨(if_pos wrong).symm, rfl⟩) fun valid => ?_
  rw [if_neg valid]
  dsimp only
  generalize computeLayout (s.world.segments g).header.config = cl
  refine Ensures.bind (agrees_alone depicts _) fun same _ compared => ?_
  obtain ⟨same, rfl⟩ := compared
  simp only [comparisons, List.forall_mem_cons, List.not_mem_nil, false_implies, implies_true,
    and_true, headerWord] at same
  refine Ensures.ite (fun differs => ?_) fun agree => ?_
  · refine ⟨(if_pos ?_).symm, rfl⟩
    by_contra all
    simp only [Bool.or_eq_true, decide_eq_true_eq, not_or, ne_eq, not_not] at all
    simp [same.mpr (by tauto)] at differs
  · have all := same.mp (by simpa using agree)
    refine Ensures.ite (fun small => ⟨?_, rfl⟩) fun large => ⟨?_, rfl⟩
    · rw [if_pos small, ite_self]
    · rw [if_neg large, if_neg]
      simp only [Bool.or_eq_true, decide_eq_true_eq, ne_eq]
      tauto

/-- A validated segment is adopted, and the command channel claimed if nobody holds it. -/
theorem adopt_follows (depicts : Depicts a s.world s.clock) {cl : LLLayout}
    (validated
      : ShmFrame.validateHeader (s.world.segments g).size (s.world.segments g).header = some cl)
    : (adopt s.impl g cl).Follows alone a
        (fun spurious =>
          Calls.adoptAndClaim g (s.world.segments g).header cl s.impl spurious)
        s fun m later _ next => Agrees m later next := by
  obtain ⟨-, valid, rfl, -, fits⟩ := validateHeader_sound validated
  refine Follows.left (loadConfig_alone depicts) fun _ _ loaded => ?_
  obtain ⟨rfl, rfl⟩ := loaded
  refine Follows.left (loadHeader_alone depicts g .sessionId) fun _ _ loaded => ?_
  obtain ⟨rfl, rfl⟩ := loaded
  refine Follows.left (loadHeader_alone depicts g .commandOwnerGen) fun _ _ loaded => ?_
  obtain ⟨rfl, rfl⟩ := loaded
  refine Follows.left (ask_alone .patience nofun) fun patience _ asked => ?_
  obtain ⟨-, rfl⟩ := asked
  refine Follows.right ?_
  let adopted : Subscriber :=
    {
      s with
      impl :=
        s.impl.adopt g (s.world.segments g).header.config
          (computeLayout (s.world.segments g).header.config) (s.world.segments g).header.sessionId
    }
  have loops := claimLoop_follows (s := adopted) depicts ⟨valid, fits⟩ patience
  refine Follows.bindFirst loops fun m later spurious claimed => ?_
  obtain ⟨rfl, after⟩ := claimed
  have same := congrArg (·.remote) (Calls.refreshes_claimLoop g spurious adopted).impl
  have remote
      : ((Calls.claimLoop g spurious).run adopted).2.impl.remote
        = { (s.world.segments g).header.config with name := s.impl.name } :=
    same
  refine .pure () ⟨?_, after⟩
  rw [Call.run_bind, Call.run_impl, Call.run_bind, Call.run_setImpl]
  dsimp only
  rw [remote]
  rfl

/-- The session of a candidate is compared. -/
theorem sameSession_alone (depicts : Depicts a s.world s.clock)
    : (sameSession s.impl g).Ensures alone Anything a fun same later =>
        same
            = (s.impl.hdr.isSome
              && (s.world.segments g).header.sessionId = s.impl.session)
        ∧ later = a := by
  refine Ensures.ite (fun detached => ⟨?_, rfl⟩) fun attached => ?_
  · have none_ : s.impl.hdr = none := by simpa using detached
    rw [none_]
    rfl
  refine Ensures.bind (loadHeader_alone depicts g .sessionId) fun _ _ loaded => ?_
  obtain ⟨rfl, rfl⟩ := loaded
  have here : s.impl.hdr.isSome = true := by
    simpa [Option.isSome_iff_ne_none] using attached
  exact ⟨by rw [here]; rfl, rfl⟩

/-- An attempt to connect. Whether the object behind the name can be mapped, and how often the
exchange fails, is what the attempt on words leaves open.
-/
theorem tryConnect_follows (depicts : Depicts a s.world s.clock)
    : (tryConnect s.impl).Follows alone a (fun system => Calls.tryConnect system) s
        fun m later _ next => Agrees m later next := by
  have refused {system : Circumstances} (missing : s.candidate system = none) (later : Alone)
      (same : Depicts later s.world s.clock)
      : Agrees s.impl later ((Calls.tryConnect system).run s).2 := by
    rw [Calls.tryConnect_refused missing]
    exact ⟨rfl, same⟩
  refine Follows.left (ask_alone .opens nofun) fun found _ answered => ?_
  obtain ⟨bound, rfl⟩ := answered
  cases found with
  | none =>
      refine .pure { maps := false } (refused ?_ _ depicts)
      unfold Calls.Subscriber.candidate
      split <;> rfl
  | some g =>
      obtain ⟨leads, nonempty⟩ := bound g rfl
      rw [depicts.bound] at leads
      rw [depicts.size g] at nonempty
      have candidate (spurious : Nat)
          : s.candidate { spurious }
            = (ShmFrame.validateHeader (s.world.segments g).size
                (s.world.segments g).header).map (g, ·) := by
        simp [Calls.Subscriber.candidate, leads, nonempty]
      refine Follows.left (validateHeader_alone depicts) fun cl _ validated => ?_
      obtain ⟨known, rfl⟩ := validated
      rw [← known] at candidate
      cases cl with
      | none => exact .pure { spurious := 0 } (refused (candidate 0) _ depicts)
      | some cl =>
          refine Follows.left (sameSession_alone depicts) fun same _ compared => ?_
          obtain ⟨rfl, rfl⟩ := compared
          refine Follows.iteLeft (fun reads => ?_) fun fresh => ?_
          · refine .pure { spurious := 0 } ?_
            rw [Calls.tryConnect_found (candidate 0)]
            dsimp only
            rw [if_pos reads]
            exact ⟨rfl, depicts⟩
          · refine Follows.rename (fun spurious => { spurious }) (fun spurious => ?_)
              (adopt_follows depicts known.symm)
            rw [Calls.tryConnect_found (candidate spurious)]
            dsimp only
            rw [if_neg fresh]

/-- Opening a subscriber. -/
theorem openSubscriber_follows (depicts : Depicts a s.world s.clock) (name : Name)
    : (openSubscriber name).Follows alone a
        (fun system => Calls.openSubscriber name system) s fun m later _ next =>
          Agrees m later next := by
  refine Follows.bind (nowNs_follows depicts) fun now later read => ?_
  obtain ⟨rfl, ticked⟩ := read
  let fresh : Subscriber :=
    {
      (Call.nowNs.run s).2 with
      impl := { name, lastProgress := (Call.nowNs.run s).1 }
    }
  exact tryConnect_follows (s := fresh) ticked

/-- The age of the producer's heartbeat is judged. -/
theorem producerResponsive_follows (depicts : Depicts a s.world s.clock)
    : (producerResponsive s.impl).Follows alone a (fun _ : Unit => Calls.producerResponsive) s
        fun fresh later same next =>
          fresh = same ∧ ∃ clock, next = { s with clock } ∧ Depicts later s.world clock := by
  refine Follows.right ?_
  rw [Call.run_impl]
  unfold producerResponsive
  cases s.impl.hdr with
  | none => exact .pure () ⟨rfl, _, rfl, depicts⟩
  | some g =>
      refine Follows.right ?_
      refine Follows.bind (ageOf_follows depicts .lastHeartbeatNs) fun age later aged => ?_
      obtain ⟨rfl, ticked⟩ := aged
      exact .pure () ⟨rfl, _, rfl, ticked⟩

/-- The claim is refreshed before anything else. -/
theorem refreshClaim_follows (depicts : Depicts a s.world s.clock)
    (seated : Seated s.world s.impl)
    : (refreshClaim s.impl).Follows alone a (fun _ : Unit => Calls.refreshClaim) s
        fun m later _ next => Agrees m later next := by
  refine Follows.right ?_
  rw [Call.run_impl]
  unfold refreshClaim
  cases hdr : s.impl.hdr with
  | none => exact .pure () ⟨rfl, depicts⟩
  | some g =>
      exact (stillOwnsCommands_follows depicts (seated g hdr).sound).mono fun _ _ _ _ agrees =>
        agrees.1

/-- The rest of `poll` after an attempt to connect. -/
theorem afterAttempt_follows (depicts : Depicts a s.world s.clock) (now : UInt64)
    : (do
        let m := { s.impl with lastProgress := now }
        return (m, ← producerResponsive m) : Access (Impl × Bool)).Follows alone a
        (fun _ : Unit => do
          Call.setImpl { (← Call.impl) with lastProgress := now }
          Calls.producerResponsive)
        s fun polled later alive next => Agrees polled.1 later next ∧ polled.2 = alive := by
  let noted : Subscriber := { s with impl := { s.impl with lastProgress := now } }
  have judges := producerResponsive_follows (s := noted) depicts
  refine Follows.right (Follows.right ?_)
  refine Follows.finish judges fun fresh later same next judged => ?_
  obtain ⟨rfl, clock, rfl, known⟩ := judged
  exact ⟨_, rfl, ⟨rfl, known⟩, rfl⟩

/-- A whole `poll`. -/
theorem poll_follows (depicts : Depicts a s.world s.clock) (seated : Seated s.world s.impl)
    : (poll s.impl).Follows alone a (fun system => Calls.poll system) s
        fun polled later alive next => Agrees polled.1 later next ∧ polled.2 = alive := by
  refine Follows.bind (nowNs_follows depicts) fun now later read => ?_
  obtain ⟨rfl, ticked⟩ := read
  generalize (Call.nowNs.run s).1 = now
  refine Follows.bind (refreshClaim_follows ticked seated) fun m later refreshed => ?_
  obtain ⟨rfl, known⟩ := refreshed
  generalize (Calls.refreshClaim.run (Call.nowNs.run s).2).2 = refreshed at known ⊢
  refine Follows.right ?_
  rw [Call.run_impl]
  refine Follows.ite Iff.rfl (fun _ _ => .pure {} ⟨⟨rfl, known⟩, rfl⟩) fun _ _ => ?_
  refine Follows.bind (producerResponsive_follows known) fun fresh later judged => ?_
  obtain ⟨rfl, clock, moved, known⟩ := judged
  rw [moved]
  refine Follows.ite Iff.rfl (fun _ _ => .pure {} ⟨⟨rfl, known⟩, rfl⟩) fun _ _ => ?_
  refine Follows.ite Iff.rfl (fun _ _ => .pure {} ⟨⟨rfl, known⟩, rfl⟩) fun _ _ => ?_
  refine Follows.right ?_
  let attempting : Subscriber :=
    { impl := { refreshed.impl with lastAttempt := now }, world := refreshed.world, clock }
  have connects := tryConnect_follows (s := attempting) known
  refine Follows.bindFirst connects fun m later system tried => ?_
  obtain ⟨rfl, known⟩ := tried
  exact afterAttempt_follows known now

end Attaching

end ShmFrame.Accesses
