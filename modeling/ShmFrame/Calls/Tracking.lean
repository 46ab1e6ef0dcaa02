import ShmFrame.Calls.Polling
import ShmFrame.Foundation.Run
import Mathlib.Order.Monotone.Basic

/-! One subscriber over its whole life, call by call, with what it has seen of the session it
is attached to; between the calls anything may happen to the segments and to the name.
-/

namespace ShmFrame.Calls

open ShmFrame.Commands ShmFrame.Foundation

-----------------------------------------------------------------------------------------
-- The machine
-----------------------------------------------------------------------------------------

/-- What is known when `poll` returns: its answer, its first reading of the clock, and the
heartbeat and the last sign of life of the session it is attached to then.
-/
structure Verdict where
  alive : Bool
  now : UInt64
  beat : Option UInt64
  staleNs : UInt64
  evidence : Option UInt64

/-- A subscriber and its history: the id of the last frame it got on this session, the time
of the last frame or command it got there, and the verdicts of all calls of `poll`.
-/
structure Tracked where
  sub : Subscriber
  seen : Option UInt64 := none
  evidence : Option UInt64 := none
  verdicts : List Verdict := []

/-- What can happen. `others` is everything the other parties do between two calls. -/
inductive TrackedAction
  | open_ (name : Name) (system : Circumstances)
  | poll (system : Circumstances)
  | vectorGate (system : Circumstances)
  | readLatest (system : Circumstances) (dst : Buffer) (info : LLFrameInfo)
  | send (request : PushCall)
  | receive
  | setStaleTimeoutMs (ms : UInt32)
  | setMaxRead (intervalNs : UInt64)
  | others (world : World)

namespace Tracked

/-- The heartbeat in the attached segment. -/
def beat (s : Subscriber) : Option UInt64 :=
  s.impl.hdr.map fun g => (s.world.segments g).header.lastHeartbeatNs

/-- The history after a call of `poll`: nothing is known of a session that is new. -/
def polled (s : Tracked) (alive : Bool) (next : Subscriber) : Tracked :=
  let same := next.impl.sessions = s.sub.impl.sessions
  let evidence := if same then s.evidence else none
  {
    sub := next
    seen := if same then s.seen else none
    evidence := evidence
    verdicts :=
      {
        alive
        now := s.sub.clock 0
        beat := beat next
        staleNs := next.impl.staleNs
        evidence
      } :: s.verdicts
  }

/-- The history after a call that starts with `poll` and ends in another state. -/
def after (s : Tracked) (system : Circumstances) (next : Subscriber) : Tracked :=
  let outcome := (Calls.poll system).run s.sub
  { s.polled outcome.1 outcome.2 with sub := next }

/-- The history after a frame has been delivered. -/
def delivered (s : Tracked) (ret : ReadReturn) : Tracked :=
  if ret.result = .ok then
    { s with seen := some ret.info.frameId, evidence := some s.sub.impl.lastProgress }
  else s

/-- Every call is possible at any time. -/
def step (s : Tracked) (action : TrackedAction) : Tracked :=
  match action with
  | .open_ name system =>
      { s with
        sub := ((openSubscriber name system).run s.sub).2
        seen := none
        evidence := none }
  | .poll system => s.after system ((Calls.poll system).run s.sub).2
  | .vectorGate system => s.after system ((Calls.vectorGate system).run s.sub).2
  | .readLatest system dst info =>
      let result := (Calls.readLatest system dst info).run s.sub
      (s.after system result.2).delivered result.1
  | .send request => { s with sub := ((Calls.send request).run s.sub).2 }
  | .receive =>
      let result := Calls.receive.run s.sub
      let progress := result.2.impl.lastProgress
      let evidence := if result.1.isSome then some progress else s.evidence
      { s with sub := result.2, evidence }
  | .setStaleTimeoutMs ms => { s with sub := ((Calls.setStaleTimeoutMs ms).run s.sub).2 }
  | .setMaxRead intervalNs =>
      { s with sub := { s.sub with impl := { s.sub.impl with minReadNs := intervalNs } } }
  | .others world => { s with sub := { s.sub with world } }

/-- A subscriber object nobody has opened yet. The readings of the clock it will ever make
are given.
-/
def create (world : World) (clock : Nat → UInt64) : Tracked where
  sub := { world, clock }

end Tracked

/-- One subscriber, one call at a time. -/
def trackedMachine : Machine Tracked TrackedAction where
  step := fun s action => some (s.step action)

-----------------------------------------------------------------------------------------
-- The timers
-----------------------------------------------------------------------------------------

/-- The readings of a clock that never goes back. -/
abbrev NeverBack (clock : Nat → UInt64) : Prop := Monotone fun index => (clock index).toNat

/-- The clock never goes back, and the timers are in order: no attempt is younger than the
last progress.
-/
structure Timely (s : Subscriber) : Prop where
  monotone : NeverBack s.clock
  progress : s.impl.lastProgress.toNat ≤ (s.clock 0).toNat
  attempt : s.impl.lastAttempt.toNat ≤ s.impl.lastProgress.toNat

section Timers

variable {s next : Subscriber}

/-- All readings to come are later ones. -/
theorem Onward.readings (onward : Onward s next) (monotone : NeverBack s.clock)
    : NeverBack next.clock ∧ ∀ index, (s.clock 0).toNat ≤ (next.clock index).toNat := by
  obtain ⟨shift, clock⟩ := onward.clock
  rw [clock]
  exact ⟨fun first second before => monotone (Nat.add_le_add_right before shift),
    fun index => monotone (Nat.zero_le _)⟩

/-- Calls that leave the timers alone keep them in order. -/
theorem Timely.keep (timely : Timely s) (onward : Onward s next)
    (progress : next.impl.lastProgress = s.impl.lastProgress)
    (attempt : next.impl.lastAttempt = s.impl.lastAttempt)
    : Timely next := by
  obtain ⟨monotone, later⟩ := onward.readings timely.monotone
  refine ⟨monotone, ?_, ?_⟩
  · rw [progress]
    exact timely.progress.trans (later 0)
  · rw [attempt, progress]
    exact timely.attempt

/-- Progress noted at a reading in between keeps them in order. -/
theorem Timely.advance {middle : Subscriber} (timely : Timely s) (before : Onward s middle)
    (after : Onward middle next) (progress : next.impl.lastProgress = middle.clock 0)
    (attempt
      : next.impl.lastAttempt = s.impl.lastAttempt ∨ next.impl.lastAttempt = s.clock 0)
    : Timely next := by
  obtain ⟨between, later⟩ := before.readings timely.monotone
  obtain ⟨monotone, last⟩ := after.readings between
  refine ⟨monotone, ?_, ?_⟩
  · rw [progress]
    exact last 0
  · rw [progress]
    rcases attempt with same | noted
    · rw [same]
      exact timely.attempt.trans (timely.progress.trans (later 0))
    · rw [noted]
      exact later 0

/-- `poll` keeps the timers in order. -/
theorem Timely.polled (timely : Timely s) {system : Circumstances}
    {outcome : Bool × Subscriber} (polled : Polled s system outcome)
    : Timely outcome.2 := by
  cases polled with
  | trusted _ refreshes | fresh _ _ refreshes | limited _ _ _ refreshes =>
      exact timely.keep refreshes.toOnward (refreshes.part (·.lastProgress) fun _ => rfl)
        (refreshes.part (·.lastAttempt) fun _ => rfl)
  | retried _ _ _ _ onward impl | reattached _ _ _ _ _ onward impl =>
      exact timely.advance (Std.Refl.refl s) onward (congrArg (·.lastProgress) impl)
        (Or.inr (congrArg (·.lastAttempt) impl))

end Timers

-----------------------------------------------------------------------------------------
-- Calls that change nothing the history depends on
-----------------------------------------------------------------------------------------

/-- The session, the frames, the timers and the timeouts are as before. -/
structure Unmoved (s next : Subscriber) : Prop extends Onward s next where
  hdr : next.impl.hdr = s.impl.hdr
  sessions : next.impl.sessions = s.impl.sessions
  lastFrame : next.impl.lastFrame = s.impl.lastFrame
  dropped : next.impl.dropped = s.impl.dropped
  staleNs : next.impl.staleNs = s.impl.staleNs
  retryNs : next.impl.retryNs = s.impl.retryNs
  lastProgress : next.impl.lastProgress = s.impl.lastProgress
  lastAttempt : next.impl.lastAttempt = s.impl.lastAttempt

section Unmoved

variable {s next : Subscriber}

/-- Refreshing the claim is such a change. -/
theorem Refreshes.unmoved (refreshes : Refreshes s next) : Unmoved s next where
  toOnward := refreshes.toOnward
  hdr := refreshes.part (·.hdr) fun _ => rfl
  sessions := refreshes.part (·.sessions) fun _ => rfl
  lastFrame := refreshes.part (·.lastFrame) fun _ => rfl
  dropped := refreshes.part (·.dropped) fun _ => rfl
  staleNs := refreshes.part (·.staleNs) fun _ => rfl
  retryNs := refreshes.part (·.retryNs) fun _ => rfl
  lastProgress := refreshes.part (·.lastProgress) fun _ => rfl
  lastAttempt := refreshes.part (·.lastAttempt) fun _ => rfl

/-- So is a rate gate. -/
theorem Gated.unmoved (gated : Gated s next) : Unmoved s next := by
  obtain ⟨onward, last, count, impl⟩ := gated
  exact ⟨onward, by rw [impl], by rw [impl], by rw [impl], by rw [impl], by rw [impl],
    by rw [impl], by rw [impl], by rw [impl]⟩

/-- So is sending a command. -/
theorem send_unmoved (request : PushCall) (s : Subscriber)
    : Unmoved s ((send request).run s).2 := by
  obtain ⟨result, next, nextCmd, sent, cmdDropped, run, onward, impl⟩ := send_run request s
  rw [run]
  exact ⟨onward, congrArg (·.hdr) impl, congrArg (·.sessions) impl, congrArg (·.lastFrame) impl,
    congrArg (·.dropped) impl, congrArg (·.staleNs) impl, congrArg (·.retryNs) impl,
    congrArg (·.lastProgress) impl, congrArg (·.lastAttempt) impl⟩

/-- The first half of the vector overload does nothing that matters after its poll. -/
theorem vectorGate_unmoved (system : Circumstances) (s : Subscriber)
    : Unmoved ((poll system).run s).2 ((vectorGate system).run s).2 := by
  rw [vectorGate, Call.run_bind]
  generalize (poll system).run s = polled
  obtain ⟨alive, middle⟩ := polled
  cases alive with
  | false => exact (Std.Refl.refl middle : Refreshes middle middle).unmoved
  | true =>
      simp only [Bool.not_true, Bool.false_eq_true, if_false]
      rw [Call.run_bind]
      have gated := (cheapGate_gated middle).unmoved
      generalize cheapGate.run middle = result at gated
      obtain ⟨passes, next⟩ := result
      cases passes <;> exact gated

/-- What `read_latest` leads to after its poll: a frame of the attached segment that is none
of those seen before, or nothing that matters. The two reports that there is nothing to read
differ by whether the producer has announced its end.
-/
inductive ReadOutcome (s : Subscriber) : ReadReturn × Subscriber → Prop
  | delivered {ret g start next} (ok : ret.result = .ok) (before : Unmoved s start)
    (attached : start.impl.hdr = some g)
    (new : start.impl.nothingNew (start.world.segments g).header.latest = false)
    (after : Onward start next) (impl : next.impl = start.impl.deliver ret.info (start.clock 0))
    : ReadOutcome s (ret, next)
  | other {ret next} (failed : ret.result ≠ .ok) (unmoved : Unmoved s next)
    (quiet
      : ret.result = .noNewFrame
        → ∃ g,
            next.impl.hdr = some g
            ∧ next.impl.nothingNew (next.world.segments g).header.latest = true
            ∧ (next.world.segments g).header.shutdown = 0)
    (ended
      : ret.result = .disconnected
        → next.impl.hdr = none
          ∨ ∃ g,
              next.impl.hdr = some g
              ∧ next.impl.nothingNew (next.world.segments g).header.latest = true
              ∧ (next.world.segments g).header.shutdown ≠ 0)
    : ReadOutcome s (ret, next)

/-- The rest of `read_latest` leads to one of these. -/
theorem ReadOn.outcome {result : ReadReturn × Subscriber} (read : ReadOn s result)
    : ReadOutcome s result := by
  cases read with
  | throttled early gated =>
      exact .other (by simp [early]) gated.unmoved (by simp [early]) (by simp [early])
  | detached gone gated missing =>
      exact .other (by simp [gone]) gated.unmoved (by simp [gone]) fun _ => Or.inl missing
  | attempted gate attached attempt =>
      have unmoved := gate.unmoved
      cases attempt with
      | delivered new ok onward impl =>
          exact .delivered ok unmoved attached new onward impl
      | quiet old running nothing =>
          exact .other (by simp [nothing]) unmoved (fun _ => ⟨_, attached, old, running⟩)
            (by simp [nothing])
      | ended old shut gone =>
          have onward := unmoved.toOnward
          refine .other (by simp [gone]) ⟨⟨onward.clock, onward.bound, onward.produced⟩,
            unmoved.hdr, unmoved.sessions, unmoved.lastFrame, unmoved.dropped, unmoved.staleNs,
            unmoved.retryNs, unmoved.lastProgress, unmoved.lastAttempt⟩ (by simp [gone]) ?_
          exact fun _ => Or.inr ⟨_, attached, old, shut⟩
      | failed contended =>
          refine .other ?_ unmoved ?_ ?_ <;> rcases contended with one | two <;> simp [*]

end Unmoved

/-- A subscriber that has just been opened, attached or not. -/
structure Opened (s next : Subscriber) : Prop extends Onward s next where
  lastProgress : next.impl.lastProgress = s.clock 0
  lastAttempt : next.impl.lastAttempt = 0
  lastFrame : next.impl.lastFrame = 0
  staleNs : next.impl.staleNs = 500000000
  retryNs : next.impl.retryNs = 250000000

/-- Opening is a first attempt to connect. -/
theorem openSubscriber_opens (name : Name) (system : Circumstances) (s : Subscriber)
    : Opened s ((openSubscriber name system).run s).2 := by
  let start : Subscriber :=
    { (Call.nowNs.run s).2 with impl := { name, lastProgress := s.clock 0 } }
  have run : ((openSubscriber name system).run s).2 = ((tryConnect system).run start).2 := rfl
  have connected := tryConnect_cases system start
  rw [run]
  generalize (tryConnect system).run start = result at connected
  obtain ⟨tried, next⟩ := result
  have ticked : Onward s (Call.nowNs.run s).2 := (refreshes_nowNs s).toOnward
  have rest := connected.onward
  have onward : Onward s next :=
    IsTrans.trans _ _ _ ticked ⟨rest.clock, rest.bound, rest.produced⟩
  cases connected with
  | refused | kept => exact ⟨onward, rfl, rfl, rfl, rfl, rfl⟩
  | adopted _ _ _ impl =>
      exact ⟨onward, congrArg (·.lastProgress) impl, congrArg (·.lastAttempt) impl,
        congrArg (·.lastFrame) impl, congrArg (·.staleNs) impl, congrArg (·.retryNs) impl⟩

-----------------------------------------------------------------------------------------
-- The history
-----------------------------------------------------------------------------------------

/-- Another session is counted, also across the wrap of the counter. -/
theorem sessions_succ_ne (sessions : UInt64) : sessions + 1 ≠ sessions := by
  intro same
  have values := congrArg UInt64.toNat same
  simp only [UInt64.toNat_add, UInt64.reduceToNat] at values
  omega

/-- The timers are in order, frames are compared with the last one of this very session, and
only an attached subscriber has had a sign of life.
-/
structure TrackedInv (s : Tracked) : Prop where
  timely : Timely s.sub
  lastFrame : s.sub.impl.lastFrame = s.seen.getD 0
  attached : s.evidence ≠ none → s.sub.impl.hdr.isSome = true

namespace TrackedInv

variable {s : Tracked}

/-- A new subscriber has seen nothing. -/
theorem create {world : World} {clock : Nat → UInt64} (monotone : NeverBack clock)
    : TrackedInv (.create world clock) where
  timely := ⟨monotone, Nat.zero_le _, Nat.le_refl _⟩
  lastFrame := rfl
  attached := fun some_ => absurd rfl some_

/-- Calls that change nothing the history depends on. -/
theorem unmoved (inv : TrackedInv s) {next : Subscriber} (unmoved : Unmoved s.sub next)
    : TrackedInv { s with sub := next } where
  timely := inv.timely.keep unmoved.toOnward unmoved.lastProgress unmoved.lastAttempt
  lastFrame := unmoved.lastFrame.trans inv.lastFrame
  attached := fun some_ => unmoved.hdr ▸ inv.attached some_

/-- `poll` forgets what has been seen when it adopts another session. -/
theorem polled (inv : TrackedInv s) {system : Circumstances} {outcome : Bool × Subscriber}
    (polled : Polled s.sub system outcome)
    : TrackedInv (s.polled outcome.1 outcome.2) := by
  have timely := inv.timely.polled polled
  cases polled with
  | trusted _ refreshes | fresh _ _ refreshes | limited _ _ _ refreshes =>
      have same := refreshes.unmoved
      refine ⟨timely, ?_, ?_⟩
      · simp only [Tracked.polled, same.sessions, if_true]
        exact same.lastFrame.trans inv.lastFrame
      · simp only [Tracked.polled, same.sessions, if_true, same.hdr]
        exact inv.attached
  | @retried next _ _ _ _ _ _ _ onward impl =>
      have sessions : next.impl.sessions = s.sub.impl.sessions := congrArg (·.sessions) impl
      have hdr : next.impl.hdr = s.sub.impl.hdr := congrArg (·.hdr) impl
      refine ⟨timely, ?_, ?_⟩
      · simp only [Tracked.polled, sessions, if_true]
        exact (congrArg (·.lastFrame) impl).trans inv.lastFrame
      · simp only [Tracked.polled, sessions, if_true, hdr]
        exact inv.attached
  | @reattached _ _ next _ _ _ _ _ _ _ _ onward impl =>
      have sessions : next.impl.sessions ≠ s.sub.impl.sessions := by
        have counted : next.impl.sessions = s.sub.impl.sessions + 1 :=
          congrArg (·.sessions) impl
        rw [counted]
        exact sessions_succ_ne _
      refine ⟨timely, ?_, ?_⟩
      · simp only [Tracked.polled, sessions, if_false]
        exact congrArg (·.lastFrame) impl
      · simp [Tracked.polled, sessions]

/-- A call that starts with `poll` and does nothing that matters afterwards. -/
theorem after (inv : TrackedInv s) {system : Circumstances} {next : Subscriber}
    (unmoved : Unmoved ((poll system).run s.sub).2 next)
    : TrackedInv (s.after system next) :=
  (inv.polled (poll_cases system s.sub)).unmoved unmoved

/-- A frame that is delivered is the last one seen. -/
theorem readLatest (inv : TrackedInv s) (system : Circumstances) (dst : Buffer)
    (info : LLFrameInfo)
    : TrackedInv (s.step (.readLatest system dst info)) := by
  have polled := inv.polled (poll_cases system s.sub)
  have cases_ := readLatest_cases system dst info s.sub
  simp only [Tracked.step, Tracked.after]
  generalize (poll system).run s.sub = outcome at polled cases_
  generalize (Calls.readLatest system dst info).run s.sub = result at cases_
  obtain ⟨ret, next⟩ := result
  obtain ⟨alive, middle⟩ := outcome
  rcases cases_ with ⟨-, gone, same⟩ | ⟨-, read⟩
  · obtain rfl : next = middle := same
    have failed : ret.result ≠ .ok := by
      have gone : ret.result = .disconnected := gone
      simp [gone]
    simp only [Tracked.delivered, failed, if_false]
    exact polled
  · cases read.outcome with
    | other failed unmoved _ _ =>
        simp only [Tracked.delivered, failed, if_false]
        exact polled.unmoved unmoved
    | delivered ok before attached _ after impl =>
        simp only [Tracked.delivered, ok, if_true]
        have start := (polled.unmoved before).timely
        refine ⟨start.advance (Std.Refl.refl _) after ?_ (Or.inl ?_), ?_, fun _ => ?_⟩
        · rw [impl]
          rfl
        · rw [impl]
          rfl
        · rw [impl]
          rfl
        · rw [impl]
          simp only [LLSubscriber.Impl.deliver, attached, Option.isSome_some]

/-- A command that is received is a sign of life. -/
theorem receive (inv : TrackedInv s) : TrackedInv (s.step .receive) := by
  have cases_ := receive_cases s.sub
  simp only [Tracked.step]
  generalize Calls.receive.run s.sub = result at cases_
  cases cases_ with
  | nothing refreshes => exact inv.unmoved refreshes.unmoved
  | command attached before after impl =>
      have progress := congrArg (·.lastProgress) impl
      have attempt := congrArg (·.lastAttempt) impl
      have hdr := congrArg (·.hdr) impl
      refine ⟨inv.timely.advance before after progress (Or.inl attempt),
        (congrArg (·.lastFrame) impl).trans inv.lastFrame, fun _ => ?_⟩
      exact (congrArg Option.isSome (hdr.trans attached)).trans rfl

/-- Opening starts afresh. -/
theorem open_ (inv : TrackedInv s) (name : Name) (system : Circumstances)
    : TrackedInv (s.step (.open_ name system)) := by
  have opened := openSubscriber_opens name system s.sub
  obtain ⟨monotone, later⟩ := opened.readings inv.timely.monotone
  refine ⟨⟨monotone, ?_, ?_⟩, opened.lastFrame, fun some_ => absurd rfl some_⟩
  · exact opened.lastProgress ▸ later 0
  · exact opened.lastAttempt ▸ Nat.zero_le _

/-- Every step keeps the invariant. -/
theorem step (inv : TrackedInv s) {action : TrackedAction} {next : Tracked}
    (stepped : trackedMachine.step s action = some next)
    : TrackedInv next := by
  obtain rfl := Option.some.inj stepped
  cases action with
  | open_ name system => exact inv.open_ name system
  | poll system => exact inv.polled (poll_cases system s.sub)
  | vectorGate system => exact inv.after (vectorGate_unmoved system s.sub)
  | readLatest system dst info => exact inv.readLatest system dst info
  | send request => exact inv.unmoved (send_unmoved request s.sub)
  | receive => exact inv.receive
  | setStaleTimeoutMs ms =>
      exact ⟨⟨inv.timely.monotone, inv.timely.progress, inv.timely.attempt⟩, inv.lastFrame,
        inv.attached⟩
  | setMaxRead intervalNs =>
      exact ⟨⟨inv.timely.monotone, inv.timely.progress, inv.timely.attempt⟩, inv.lastFrame,
        inv.attached⟩
  | others world =>
      exact ⟨⟨inv.timely.monotone, inv.timely.progress, inv.timely.attempt⟩, inv.lastFrame,
        inv.attached⟩

end TrackedInv

end ShmFrame.Calls
