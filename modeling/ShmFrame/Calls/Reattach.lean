import ShmFrame.Calls.Tracking

/-! A restarted producer is picked up: once the old session is stale, the next `poll` adopts
the new one, and nothing of the old one decides about the frames of the new one.
-/

namespace ShmFrame.Calls

open ShmFrame.Commands ShmFrame.Foundation

-----------------------------------------------------------------------------------------
-- The retry limiter
-----------------------------------------------------------------------------------------

/-- Attempts may be made at least as often as sessions grow stale. -/
def Paced (m : LLSubscriber.Impl) : Prop := m.retryNs.toNat ≤ m.staleNs.toNat

/-- A positive timeout keeps the pace: half of it, or one nanosecond. -/
theorem setStaleTimeoutMs_paced {ms : UInt32} (positive : 1 ≤ ms.toNat) (s : Subscriber)
    : Paced ((setStaleTimeoutMs ms).run s).2.impl := by
  have range := ms.toNat_lt
  have stale : (ms.toUInt64 * 1000 * 1000).toNat = ms.toNat * 1000 * 1000 := by
    simp only [UInt64.toNat_mul, UInt32.toNat_toUInt64, UInt64.reduceToNat]
    omega
  simp only [Paced, setStaleTimeoutMs, Call.run_bind, Call.run_impl, Call.run_setImpl]
  split
  · rw [UInt64.toNat_div]
    exact Nat.div_le_self _ _
  · rw [stale]
    simp only [UInt64.toNat_one]
    omega

/-- The default timeouts keep the pace. -/
theorem paced_default : Paced {} := by
  rw [Paced]
  decide

/-- Calls that leave both timeouts alone keep the pace. -/
theorem Paced.keep {m next : LLSubscriber.Impl} (paced : Paced m)
    (stale : next.staleNs = m.staleNs) (retry : next.retryNs = m.retryNs)
    : Paced next := by
  rw [Paced, stale, retry]
  exact paced

/-- `poll` does not touch the timeouts. -/
theorem Polled.timeouts {s : Subscriber} {system : Circumstances}
    {outcome : Bool × Subscriber} (polled : Polled s system outcome)
    : outcome.2.impl.staleNs = s.impl.staleNs ∧ outcome.2.impl.retryNs = s.impl.retryNs := by
  cases polled with
  | trusted _ refreshes | fresh _ _ refreshes | limited _ _ _ refreshes =>
      exact ⟨refreshes.unmoved.staleNs, refreshes.unmoved.retryNs⟩
  | retried _ _ _ _ _ impl | reattached _ _ _ _ _ _ impl =>
      exact ⟨congrArg (·.staleNs) impl, congrArg (·.retryNs) impl⟩

/-- Neither does `read_latest`. -/
theorem readLatest_timeouts (system : Circumstances) (dst : Buffer) (info : LLFrameInfo)
    (s : Subscriber)
    : ((readLatest system dst info).run s).2.impl.staleNs = s.impl.staleNs
      ∧ ((readLatest system dst info).run s).2.impl.retryNs = s.impl.retryNs := by
  have polled := (poll_cases system s).timeouts
  have cases_ := readLatest_cases system dst info s
  generalize (poll system).run s = outcome at polled cases_
  generalize (readLatest system dst info).run s = result at cases_
  rcases cases_ with ⟨-, -, same⟩ | ⟨-, read⟩
  · rw [same]
    exact polled
  · cases read.outcome with
    | other _ unmoved _ _ =>
        exact ⟨unmoved.staleNs.trans polled.1, unmoved.retryNs.trans polled.2⟩
    | delivered _ before _ _ _ impl =>
        rw [impl]
        exact ⟨before.staleNs.trans polled.1, before.retryNs.trans polled.2⟩

/-- Every step keeps the pace, but for a timeout of zero. -/
theorem Paced.step {s next : Tracked} {action : TrackedAction} (paced : Paced s.sub.impl)
    (positive : ∀ ms, action = .setStaleTimeoutMs ms → 1 ≤ ms.toNat)
    (stepped : trackedMachine.step s action = some next)
    : Paced next.sub.impl := by
  obtain rfl := Option.some.inj stepped
  cases action with
  | open_ name system =>
      have opened := openSubscriber_opens name system s.sub
      change Paced ((openSubscriber name system).run s.sub).2.impl
      exact paced_default.keep opened.staleNs opened.retryNs
  | poll system =>
      obtain ⟨stale, retry⟩ := (poll_cases system s.sub).timeouts
      exact paced.keep stale retry
  | vectorGate system =>
      obtain ⟨stale, retry⟩ := (poll_cases system s.sub).timeouts
      have unmoved := vectorGate_unmoved system s.sub
      exact paced.keep (unmoved.staleNs.trans stale) (unmoved.retryNs.trans retry)
  | readLatest system dst info =>
      obtain ⟨stale, retry⟩ := readLatest_timeouts system dst info s.sub
      have same : (s.step (.readLatest system dst info)).sub
          = ((readLatest system dst info).run s.sub).2 := by
        simp only [Tracked.step, Tracked.delivered]
        split <;> rfl
      rw [same]
      exact paced.keep stale retry
  | send request =>
      have unmoved := send_unmoved request s.sub
      exact paced.keep unmoved.staleNs unmoved.retryNs
  | receive =>
      have cases_ := receive_cases s.sub
      change Paced (receive.run s.sub).2.impl
      generalize receive.run s.sub = result at cases_
      cases cases_ with
      | nothing refreshes => exact paced.keep refreshes.unmoved.staleNs refreshes.unmoved.retryNs
      | command _ _ _ impl =>
          exact paced.keep (congrArg (·.staleNs) impl) (congrArg (·.retryNs) impl)
  | setStaleTimeoutMs ms => exact setStaleTimeoutMs_paced (positive ms rfl) s.sub
  | setMaxRead intervalNs => exact paced
  | others world => exact paced

-----------------------------------------------------------------------------------------
-- Re-attachment
-----------------------------------------------------------------------------------------

/-- All of the private state that belongs to a session is that of the new one. -/
structure Adopts (before : LLSubscriber.Impl) (g : Nat) (h : LLHeader)
    (m : LLSubscriber.Impl)
    : Prop where
  hdr : m.hdr = some g
  session : m.session = h.sessionId
  sessions : m.sessions = before.sessions + 1
  lastFrame : m.lastFrame = 0
  nextCmd : m.nextCmd = 1
  peerShutdown : m.peerShutdown = false
  layout : m.layout = computeLayout h.config
  remote : m.remote = { h.config with name := before.name }
  tx : m.tx = { h.config.upstreamRing with base := some g }
  rx : m.rx = { h.config.downstreamRing with base := some g }

/-- The layout of a candidate is the one its header describes. -/
theorem Subscriber.candidate_layout {s : Subscriber} {system : Circumstances} {g : Nat}
    {cl : LLLayout} (found : s.candidate system = some (g, cl))
    : cl = computeLayout (s.world.segments g).header.config := by
  unfold Subscriber.candidate at found
  split at found
  · cases found
  · dsimp only at found
    split at found
    · cases found
    · obtain ⟨layout, validated, same⟩ := Option.map_eq_some_iff.mp found
      cases same
      exact (validateHeader_sound validated).2.2.1

/-- A `poll` that finds the heartbeat and the last progress stale adopts a new session. None
of its other exits is open: attempts are no younger than the last progress, and the pace of
attempts is no slower than the timeout.
-/
theorem poll_adopts {s : Subscriber} (timely : Timely s) (paced : Paced s.impl)
    {system : Circumstances} {old g : Nat} {cl : LLLayout} (attached : s.impl.hdr = some old)
    (found : s.candidate system = some (g, cl))
    (different : (s.world.segments g).header.sessionId ≠ s.impl.session)
    (frozen
      : (s.world.segments old).header.lastHeartbeatNs.toNat + s.impl.staleNs.toNat
        ≤ (s.clock 0).toNat)
    (quiet : s.impl.lastProgress.toNat + s.impl.staleNs.toNat ≤ (s.clock 0).toNat)
    : Adopts s.impl g (s.world.segments g).header ((poll system).run s).2.impl
      ∧ ((poll system).run s).2.impl.dropped = s.impl.dropped := by
  -- An age that is at least the timeout is not below it in the arithmetic of the source.
  have aged {reading then_ limit : UInt64}
      (old : then_.toNat + limit.toNat ≤ reading.toNat) : ¬ reading - then_ < limit := by
    rw [UInt64.lt_iff_toNat_lt, UInt64.toNat_sub_of_le _ _ (by
      rw [UInt64.le_iff_toNat_le]
      omega)]
    omega
  have slow : ¬ s.Quick := fun quick => aged quiet quick.2
  have silent (index : Nat) : ¬ Responsive s (s.clock index) := by
    rintro ⟨target, same, young⟩
    obtain rfl := Option.some.inj (attached.symm.trans same)
    have later : (s.clock 0).toNat ≤ (s.clock index).toNat := timely.monotone (Nat.zero_le _)
    exact aged (frozen.trans later) young
  have due : ¬ s.clock 0 - s.impl.lastAttempt < s.impl.retryNs := by
    refine aged ?_
    have attempt := timely.attempt
    have paced : s.impl.retryNs.toNat ≤ s.impl.staleNs.toNat := paced
    omega
  have layout := Subscriber.candidate_layout found
  have polled := poll_cases system s
  generalize (poll system).run s = outcome at polled
  cases polled with
  | trusted quick => exact absurd quick slow
  | fresh _ responsive => exact absurd responsive (silent _)
  | limited _ _ soon => exact absurd soon due
  | retried _ _ _ nothing => exact absurd (nothing g cl found).2 different
  | reattached _ _ _ again _ _ impl =>
      obtain ⟨rfl, rfl⟩ := Prod.mk.inj (Option.some.inj (found.symm.trans again))
      refine ⟨?_, congrArg (·.dropped) impl⟩
      exact {
        hdr := congrArg (·.hdr) impl
        session := congrArg (·.session) impl
        sessions := congrArg (·.sessions) impl
        lastFrame := congrArg (·.lastFrame) impl
        nextCmd := congrArg (·.nextCmd) impl
        peerShutdown := congrArg (·.peerShutdown) impl
        layout := (congrArg (·.layout) impl).trans layout
        remote := congrArg (·.remote) impl
        tx := congrArg (·.tx) impl
        rx := congrArg (·.rx) impl
      }

-----------------------------------------------------------------------------------------
-- Frames of the new session
-----------------------------------------------------------------------------------------

/-- The frames missed between the last one seen on this session, if any, and a new one. -/
def missed : Option UInt64 → UInt64 → UInt64
  | none, _ => 0
  | some last, frameId => if last ≠ 0 && frameId > last then frameId - last - 1 else 0

/-- Nothing was published in a segment, or the newest frame is the last one seen. -/
def Exhausted (h : LLHeader) (seen : Option UInt64) : Prop :=
  h.latest = 0 ∨ latestFrame h.latest = seen.getD 0

/-- A read decides by the last frame seen on the very session it reads. It finds nothing new
only where there is nothing but that frame, and then reports the end of the session if its
producer has announced it; a live one is not reported gone for any other reason. And it counts
the frames between the two.
-/
structure ReadsOwn (alive : Bool) (seen : Option UInt64) (dropped : UInt64)
    (result : ReadReturn × Subscriber)
    : Prop where
  quiet
    : result.1.result = .noNewFrame
      → ∃ g,
          result.2.impl.hdr = some g
          ∧ Exhausted (result.2.world.segments g).header seen
          ∧ (result.2.world.segments g).header.shutdown = 0
  ended
    : alive = true
      → result.1.result = .disconnected
      → ∃ g,
          result.2.impl.hdr = some g
          ∧ Exhausted (result.2.world.segments g).header seen
          ∧ (result.2.world.segments g).header.shutdown ≠ 0
  dropped
    : result.2.impl.dropped
      = dropped + if result.1.result = .ok then missed seen result.1.info.frameId else 0

/-- The last frame seen on the session that is attached once a call has polled. -/
def Tracked.seenHere (s : Tracked) (system : Circumstances) : Option UInt64 :=
  (s.polled ((poll system).run s.sub).1 ((poll system).run s.sub).2).seen

/-- Where `poll` reports a live producer, the subscriber is attached. -/
theorem Polled.attached {s : Subscriber} {system : Circumstances}
    {outcome : Bool × Subscriber} (polled : Polled s system outcome) (alive : outcome.1 = true)
    : outcome.2.impl.hdr ≠ none := by
  have of_responsive {next : Subscriber} {reading : UInt64} (responsive : Responsive next reading)
      : next.impl.hdr ≠ none := by
    obtain ⟨g, attached, -⟩ := responsive
    simp [attached]
  cases polled with
  | trusted quick refreshes =>
      rw [refreshes.unmoved.hdr]
      exact Option.isSome_iff_ne_none.mp quick.1
  | fresh _ responsive refreshes =>
      exact of_responsive ((refreshes.responsive_iff _).mpr responsive)
  | limited => cases alive
  | retried _ _ _ _ _ _ answer | reattached _ _ _ _ _ _ _ answer =>
      exact of_responsive (answer.mp alive)

/-- `poll` counts no frames. -/
theorem Polled.dropped {s : Subscriber} {system : Circumstances}
    {outcome : Bool × Subscriber} (polled : Polled s system outcome)
    : outcome.2.impl.dropped = s.impl.dropped := by
  cases polled with
  | trusted _ refreshes | fresh _ _ refreshes | limited _ _ _ refreshes =>
      exact refreshes.unmoved.dropped
  | retried _ _ _ _ _ impl | reattached _ _ _ _ _ _ impl => exact congrArg (·.dropped) impl

/-- What a delivered frame adds to the drop counter. -/
theorem deliver_dropped {m : LLSubscriber.Impl} {seen : Option UInt64}
    (last : m.lastFrame = seen.getD 0) (info : LLFrameInfo) (now : UInt64)
    : (m.deliver info now).dropped = m.dropped + missed seen info.frameId := by
  simp only [LLSubscriber.Impl.deliver, last]
  cases seen with
  | none => simp [missed]
  | some last =>
      simp only [missed, Option.getD_some]
      split
      · rfl
      · exact (UInt64.add_zero _).symm

/-- In every state of the invariant, reads decide by the frames of their own session. -/
theorem TrackedInv.readsOwn {s : Tracked} (inv : TrackedInv s) (system : Circumstances)
    (dst : Buffer) (info : LLFrameInfo)
    : ReadsOwn ((poll system).run s.sub).1 (s.seenHere system) s.sub.impl.dropped
        ((Calls.readLatest system dst info).run s.sub) := by
  have polled := inv.polled (poll_cases system s.sub)
  have kept := (poll_cases system s.sub).dropped
  have attached := (poll_cases system s.sub).attached
  have cases_ := readLatest_cases system dst info s.sub
  simp only [Tracked.seenHere]
  generalize (poll system).run s.sub = outcome at polled kept attached cases_ ⊢
  generalize (Calls.readLatest system dst info).run s.sub = result at cases_ ⊢
  have last : outcome.2.impl.lastFrame = (s.polled outcome.1 outcome.2).seen.getD 0 :=
    polled.lastFrame
  rcases cases_ with ⟨silent, gone, same⟩ | ⟨alive, read⟩
  · refine ⟨fun quiet => ?_, fun alive => ?_, ?_⟩
    · rw [gone] at quiet
      cases quiet
    · rw [silent] at alive
      cases alive
    · rw [gone, same, kept]
      exact (UInt64.add_zero _).symm
  cases read.outcome with
  | @other ret next failed unmoved quiet ended =>
      have exhausted {h : LLHeader} (old : next.impl.nothingNew h.latest = true)
          : Exhausted h (s.polled outcome.1 outcome.2).seen := by
        simpa only [LLSubscriber.Impl.nothingNew, Bool.or_eq_true, decide_eq_true_eq,
          unmoved.lastFrame, last, Exhausted] using old
      refine ⟨fun nothing => ?_, fun _ gone => ?_, ?_⟩
      · obtain ⟨g, there, old, running⟩ := quiet nothing
        exact ⟨g, there, exhausted old, running⟩
      · rcases ended gone with missing | ⟨g, there, old, shut⟩
        · exact absurd (unmoved.hdr.symm.trans missing) (attached alive)
        · exact ⟨g, there, exhausted old, shut⟩
      · rw [if_neg failed, unmoved.dropped, kept]
        exact (UInt64.add_zero _).symm
  | delivered ok before attached new after impl =>
      refine ⟨fun nothing => ?_, fun _ gone => ?_, ?_⟩
      · rw [ok] at nothing
        cases nothing
      · rw [ok] at gone
        cases gone
      · rw [if_pos ok, impl, deliver_dropped (before.lastFrame.trans last), before.dropped, kept]

/-- The timeouts that are set are positive. -/
def PositiveTimeout (_ : Tracked) (action : TrackedAction) : Prop :=
  ∀ ms, action = .setStaleTimeoutMs ms → 1 ≤ ms.toNat

/-- In every state any run of a subscriber leads to, whatever the others do in between: a
`poll` at which the heartbeat of the old session and the last progress are stale adopts the
session that the name leads to, as if nothing had been seen before; and every read decides by
the frames of the session it reads.
-/
theorem restart_pickedUp {world : World} {clock : Nat → UInt64} (monotone : NeverBack clock)
    {schedule : List TrackedAction} {s : Tracked}
    (positive : trackedMachine.Meets PositiveTimeout (.create world clock) schedule)
    (reached : trackedMachine.run (.create world clock) schedule = some s)
    : (∀ (system : Circumstances) (old g : Nat) (cl : LLLayout),
          s.sub.impl.hdr = some old
          → s.sub.candidate system = some (g, cl)
          → (s.sub.world.segments g).header.sessionId ≠ s.sub.impl.session
          → (s.sub.world.segments old).header.lastHeartbeatNs.toNat + s.sub.impl.staleNs.toNat
            ≤ (s.sub.clock 0).toNat
          → s.sub.impl.lastProgress.toNat + s.sub.impl.staleNs.toNat ≤ (s.sub.clock 0).toNat
          → Adopts s.sub.impl g (s.sub.world.segments g).header
              ((poll system).run s.sub).2.impl
            ∧ ((poll system).run s.sub).2.impl.dropped = s.sub.impl.dropped
            ∧ (s.step (.poll system)).seen = none)
      ∧ ∀ (system : Circumstances) (dst : Buffer) (info : LLFrameInfo),
          ReadsOwn ((poll system).run s.sub).1 (s.seenHere system) s.sub.impl.dropped
            ((readLatest system dst info).run s.sub) := by
  have inv : TrackedInv s ∧ Paced s.sub.impl :=
    Machine.invariant_of_run PositiveTimeout (fun s => TrackedInv s ∧ Paced s.sub.impl)
      (fun _ _ _ known allowed stepped =>
        ⟨known.1.step stepped, known.2.step allowed stepped⟩)
      ⟨.create monotone, paced_default⟩ positive reached
  refine ⟨fun system old g cl attached found different frozen quiet => ?_,
    fun system dst info => inv.1.readsOwn system dst info⟩
  obtain ⟨adopts, dropped⟩ :=
    poll_adopts inv.1.timely inv.2 attached found different frozen quiet
  refine ⟨adopts, dropped, ?_⟩
  have sessions : ((poll system).run s.sub).2.impl.sessions ≠ s.sub.impl.sessions := by
    rw [adopts.sessions]
    exact sessions_succ_ne _
  simp [Tracked.step, Tracked.after, Tracked.polled, sessions]

/-- The segments of two producers. The first one has published its frame 7 and fallen silent;
the second one comes up later, and its newest frame is as given.
-/
def restartWorld (bound : Nat) (frame : UInt64) (shutdown : UInt32) : World where
  segments := fun g =>
    let first := decide (g = 0)
    {
      size := (computeLayout {}).totalSize
      header := {
        LLHeader.initialise {} (if first then 5 else 6)
          (if first then 1000000000 else 5000000000) with
        magic := kMagic
        latest := packLatest (if first then 7 else frame) 1
        shutdown
      }
      slots := fun _ => {
        header := { seq := 2, info := { frameId := if first then 7 else frame, payloadBytes := 4 } }
      }
    }
  bound := some bound

/-- A clock that shows one second for the first calls and then five seconds. -/
def restartClock (index : Nat) : UInt64 := if index < 6 then 1000000000 else 5000000000

/-- That clock never goes back. -/
theorem restartClock_neverBack : NeverBack restartClock := by
  intro first second before
  simp only [restartClock]
  split <;> split <;> first | exact Nat.le_refl _ | decide | omega

/-- A caller's buffer of four bytes. -/
def fourBytes : Buffer := { size := 4 }

/-- The subscriber reads frame 7 of the first session, and then the name leads to the second. -/
def restart : List TrackedAction :=
  [.open_ [] {}, .readLatest {} fourBytes {}, .others (restartWorld 1 3 0)]

/-- It reads frames 3 and 5 of the second session, whose producer then announces its end. -/
def restarted : List TrackedAction :=
  [.readLatest {} fourBytes {}, .others (restartWorld 1 5 0), .readLatest {} fourBytes {},
    .others (restartWorld 1 5 1)]

/-- A subscriber attached to the first of two sessions adopts the second one, where frame 3 is
delivered after frame 7 without a drop; only frame 4 counts as dropped, and the end is reported
once frame 5 has been read.
-/
theorem restart_pickedUp_second
    : ∃ s t,
        trackedMachine.run (.create (restartWorld 0 3 0) restartClock) restart = some s
        ∧ s.seen = some 7
        ∧ ((poll {}).run s.sub).2.impl.session = 6
        ∧ ((readLatest {} fourBytes {}).run s.sub).1.info.frameId = 3
        ∧ ((readLatest {} fourBytes {}).run s.sub).2.impl.dropped = s.sub.impl.dropped
        ∧ trackedMachine.run s restarted = some t
        ∧ t.sub.impl.dropped = 1
        ∧ ((readLatest {} fourBytes {}).run t.sub).1.result = .disconnected
        ∧ ∃ g,
            ((readLatest {} fourBytes {}).run t.sub).2.impl.hdr = some g
            ∧ Exhausted
                (((readLatest {} fourBytes {}).run t.sub).2.world.segments g).header (some 5) := by
  have passes
      : (trackedMachine.run (.create (restartWorld 0 3 0) restartClock) restart).any
          (fun s =>
            (s.seen = some 7
              ∧ s.sub.impl.session = 5
              ∧ s.sub.impl.hdr = some 0
              ∧ (s.sub.candidate {}).any (fun found => found.1 = 1)
              ∧ (s.sub.world.segments 1).header.sessionId = 6
              ∧ (s.sub.world.segments 0).header.lastHeartbeatNs.toNat + s.sub.impl.staleNs.toNat
                ≤ (s.sub.clock 0).toNat
              ∧ s.sub.impl.lastProgress.toNat + s.sub.impl.staleNs.toNat
                ≤ (s.sub.clock 0).toNat
              ∧ s.seenHere {} = none
              ∧ ((readLatest {} fourBytes {}).run s.sub).1.info.frameId = 3)
            ∧ (trackedMachine.run s restarted).any
                (fun t =>
                  t.sub.impl.dropped = 1
                  ∧ ((poll {}).run t.sub).1 = true
                  ∧ t.seenHere {} = some 5
                  ∧ ((readLatest {} fourBytes {}).run t.sub).1.result = .disconnected))
        = true := by
    decide +kernel
  obtain ⟨s, reached, tested⟩ := Machine.reaches_of_any passes
  obtain ⟨⟨seen, session, attached, found, new, frozen, quiet, unseen, third⟩, more⟩ :=
    of_decide_eq_true tested
  obtain ⟨t, onward, tested⟩ := Machine.reaches_of_any more
  obtain ⟨dropped, alive, fifth, gone⟩ := of_decide_eq_true tested
  obtain ⟨⟨g, cl⟩, candidate, here⟩ := (Option.any_eq_true _ _).mp found
  obtain rfl : g = 1 := by simpa using here
  have positive {schedule : List TrackedAction}
      (other : ∀ action ∈ schedule, ∀ ms, action ≠ .setStaleTimeoutMs ms)
      : trackedMachine.Meets PositiveTimeout (.create (restartWorld 0 3 0) restartClock)
          schedule :=
    Machine.meets_of_forall (fun _ action (other : ∀ ms, action ≠ .setStaleTimeoutMs ms) ms set =>
      absurd set (other ms)) other
  obtain ⟨adopts, reads⟩ :=
    restart_pickedUp restartClock_neverBack (positive (by simp [restart])) reached
  obtain ⟨-, ends⟩ :=
    restart_pickedUp restartClock_neverBack (positive (by simp [restart, restarted]))
      (Machine.run_append_eq_some.mpr ⟨s, reached, onward⟩)
  have different : (s.sub.world.segments 1).header.sessionId ≠ s.sub.impl.session := by
    rw [new, session]
    decide
  have adopted := (adopts {} 0 1 cl attached candidate different frozen quiet).1
  have counted := (reads {} fourBytes {}).dropped
  obtain ⟨g, there, exhausted, -⟩ := (ends {} fourBytes {}).ended alive gone
  rw [unseen] at counted
  rw [fifth] at exhausted
  refine ⟨s, t, reached, seen, adopted.session.trans new, third, ?_, onward, dropped, gone, g,
    there, exhausted⟩
  rw [counted, missed, ite_self]
  exact UInt64.add_zero _

end ShmFrame.Calls
