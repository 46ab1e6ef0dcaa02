import ShmFrame.Calls.Traffic

/-! What `poll` and `read_latest` can do to a subscriber, case by case. -/

namespace ShmFrame.Calls

open ShmFrame.Commands ShmFrame.Foundation

-----------------------------------------------------------------------------------------
-- The tests of poll
-----------------------------------------------------------------------------------------

/-- The fast path of `poll` is open: attached, and recently productive. -/
def Subscriber.Quick (s : Subscriber) : Prop :=
  s.impl.hdr.isSome = true ∧ s.clock 0 - s.impl.lastProgress < s.impl.staleNs

instance (s : Subscriber) : Decidable s.Quick := inferInstanceAs (Decidable (_ ∧ _))

/-- The age test of the producer's heartbeat passes at a reading of the clock. -/
def Responsive (s : Subscriber) (reading : UInt64) : Prop :=
  ∃ g,
    s.impl.hdr = some g
    ∧ reading - (s.world.segments g).header.lastHeartbeatNs < s.impl.staleNs

section Parts

variable {s next : Subscriber}

/-- What is not the claim's is the same. -/
theorem Refreshes.part (refreshes : Refreshes s next) {Value : Type}
    (read : LLSubscriber.Impl → Value) (ignores : ∀ m, read (unclaimed m) = read m)
    : read next.impl = read s.impl :=
  (ignores _).symm.trans ((congrArg read refreshes.impl).trans (ignores _))

/-- The heartbeat of every segment is the same. -/
theorem Onward.beat (onward : Onward s next) (g : Nat)
    : (next.world.segments g).header.lastHeartbeatNs
      = (s.world.segments g).header.lastHeartbeatNs := by
  rw [onward.header g]

/-- The age test has the same outcome. -/
theorem Refreshes.responsive_iff (refreshes : Refreshes s next) (reading : UInt64)
    : Responsive next reading ↔ Responsive s reading := by
  have hdr : next.impl.hdr = s.impl.hdr := refreshes.part (·.hdr) fun _ => rfl
  have stale : next.impl.staleNs = s.impl.staleNs := refreshes.part (·.staleNs) fun _ => rfl
  simp only [Responsive, hdr, stale, refreshes.beat]

end Parts

/-- `producer_responsive` is the age test at some reading of the clock. -/
theorem producerResponsive_run (s : Subscriber)
    : ∃ alive next index,
        producerResponsive.run s = (alive, next)
        ∧ next.impl = s.impl
        ∧ Refreshes s next
        ∧ (alive = true ↔ Responsive s (s.clock index)) := by
  have refreshes := refreshes_producerResponsive s
  simp only [producerResponsive, Call.run_bind, Call.run_impl] at refreshes ⊢
  cases hdr : s.impl.hdr with
  | none => exact ⟨false, s, 0, rfl, rfl, Std.Refl.refl s, by simp [Responsive, hdr]⟩
  | some g =>
      rw [hdr] at refreshes
      refine ⟨_, _, 0, rfl, rfl, refreshes, fun young => ⟨g, hdr, of_decide_eq_true young⟩, ?_⟩
      rintro ⟨other, same, young⟩
      obtain rfl := Option.some.inj (hdr.symm.trans same)
      exact decide_eq_true young

/-- Nothing a producer writes changes while a subscriber attaches. -/
theorem Connected.onward {s next : Subscriber} {system : Circumstances} {result : Bool}
    (connected : Connected s system (result, next))
    : Onward s next := by
  cases connected with
  | refused | kept => exact Std.Refl.refl s
  | adopted _ _ onward => exact onward

/-- What was done after the private state had been changed was done before. -/
theorem Refreshes.rebase {s next : Subscriber} (m : LLSubscriber.Impl)
    (refreshes : Refreshes { s with impl := m } next)
    : Onward s next :=
  ⟨refreshes.clock, refreshes.bound, refreshes.produced⟩

/-- Subscribers that write find the same candidate. -/
theorem Onward.candidate {s next : Subscriber} (onward : Onward s next)
    (system : Circumstances)
    : next.candidate system = s.candidate system := by
  unfold Subscriber.candidate
  rw [onward.bound]
  cases s.world.bound with
  | none => rfl
  | some g =>
      dsimp only
      rw [onward.size g, onward.header g]
      rfl

/-- What an attempt to connect leads to, seen from before the claim was refreshed and the
attempt was noted.
-/
theorem Connected.onto {s middle next : Subscriber} {system : Circumstances} {tried : Bool}
    {now : UInt64} (connected : Connected middle system (tried, next))
    (onward : Onward s middle)
    (impl : unclaimed middle.impl = unclaimed { s.impl with lastAttempt := now })
    : ((∀ g cl, s.candidate system = some (g, cl) → s.Reads g)
        ∧ unclaimed next.impl = unclaimed { s.impl with lastAttempt := now })
      ∨ ∃ g cl,
          s.candidate system = some (g, cl)
          ∧ ¬ s.Reads g
          ∧ unclaimed next.impl
            = unclaimed {
                Calls.adopted s.impl g (s.world.segments g).header cl with
                lastAttempt := now
              } := by
  have hdr : middle.impl.hdr = s.impl.hdr := congrArg (·.hdr) impl
  have session : middle.impl.session = s.impl.session := congrArg (·.session) impl
  have reads (g : Nat) : middle.Reads g ↔ s.Reads g := by
    rw [Subscriber.Reads, hdr, session, onward.header g]
    rfl
  have same := onward.candidate system
  cases connected with
  | refused missing =>
      refine Or.inl ⟨fun g cl found => ?_, impl⟩
      rw [same, found] at missing
      cases missing
  | @kept g cl found known =>
      refine Or.inl ⟨fun other layout again => ?_, impl⟩
      rw [same, again] at found
      cases found
      exact (reads g).mp known
  | @adopted g cl _ found fresh _ taken =>
      refine Or.inr ⟨g, cl, same ▸ found, fun known => fresh ((reads g).mpr known), ?_⟩
      rw [taken, onward.header g]
      exact congrArg (Calls.adopted · g (s.world.segments g).header cl) impl

-----------------------------------------------------------------------------------------
-- poll
-----------------------------------------------------------------------------------------

/-- Everything `poll` can do: trust its last progress, find the heartbeat fresh, wait for the
next attempt, or make it.
-/
inductive Polled (s : Subscriber) (system : Circumstances) : Bool × Subscriber → Prop
  | trusted {next} (quick : s.Quick) (refreshes : Refreshes s next)
    : Polled s system (true, next)
  | fresh {next index} (slow : ¬ s.Quick) (responsive : Responsive s (s.clock index))
    (refreshes : Refreshes s next)
    : Polled s system (true, next)
  | limited {next index} (slow : ¬ s.Quick) (silent : ¬ Responsive s (s.clock index))
    (soon : s.clock 0 - s.impl.lastAttempt < s.impl.retryNs) (refreshes : Refreshes s next)
    : Polled s system (false, next)
  | retried {next alive index later} (slow : ¬ s.Quick)
    (silent : ¬ Responsive s (s.clock index))
    (due : ¬ s.clock 0 - s.impl.lastAttempt < s.impl.retryNs)
    (nothing : ∀ g cl, s.candidate system = some (g, cl) → s.Reads g) (onward : Onward s next)
    (impl
      : unclaimed next.impl
        = unclaimed { s.impl with lastAttempt := s.clock 0, lastProgress := s.clock 0 })
    (answer : alive = true ↔ Responsive next (s.clock later))
    : Polled s system (alive, next)
  | reattached {g cl next alive index later} (slow : ¬ s.Quick)
    (silent : ¬ Responsive s (s.clock index))
    (due : ¬ s.clock 0 - s.impl.lastAttempt < s.impl.retryNs)
    (found : s.candidate system = some (g, cl)) (fresh : ¬ s.Reads g) (onward : Onward s next)
    (impl
      : unclaimed next.impl
        = unclaimed {
            adopted s.impl g (s.world.segments g).header cl with
            lastAttempt := s.clock 0
            lastProgress := s.clock 0
          })
    (answer : alive = true ↔ Responsive next (s.clock later))
    : Polled s system (alive, next)

/-- The attempt to connect that ends a call of `poll`. -/
def attemptConnect (system : Circumstances) (now : UInt64) (m : LLSubscriber.Impl)
    : Call Bool := do
  Call.setImpl { m with lastAttempt := now }
  let _ ← tryConnect system
  Call.setImpl { (← Call.impl) with lastProgress := now }
  producerResponsive

/-- The rest of `poll` after the fast path has been found closed. -/
def pollSlowly (system : Circumstances) (now : UInt64) (m : LLSubscriber.Impl) : Call Bool := do
  if ← producerResponsive then return true
  if now - m.lastAttempt < m.retryNs then return false
  attemptConnect system now m

/-- An attempt notes both times, whatever becomes of it, and answers with the age test. -/
theorem attemptConnect_run (system : Circumstances) (now : UInt64) (m : LLSubscriber.Impl)
    (s : Subscriber)
    : ∃ tried found alive next later,
        (attemptConnect system now m).run s = (alive, next)
        ∧ Connected { s with impl := { m with lastAttempt := now } } system (tried, found)
        ∧ Refreshes { found with impl := { found.impl with lastProgress := now } } next
        ∧ (alive = true ↔ Responsive next (s.clock later)) := by
  let start : Subscriber := { s with impl := { m with lastAttempt := now } }
  have connected := tryConnect_cases system start
  generalize attempted : (tryConnect system).run start = outcome at connected
  obtain ⟨tried, found⟩ := outcome
  obtain ⟨alive, next, later, answered, -, refreshes, answer⟩ :=
    producerResponsive_run { found with impl := { found.impl with lastProgress := now } }
  obtain ⟨shift, clock⟩ := connected.onward.clock
  refine ⟨tried, found, alive, next, later + shift, ?_, connected, refreshes, ?_⟩
  · rw [attemptConnect, Call.run_bind, Call.run_setImpl, Call.run_bind]
    change StateT.run _ ((tryConnect system).run start).2 = _
    rw [attempted]
    exact answered
  · rw [refreshes.responsive_iff, answer]
    exact iff_of_eq (congrArg _ (congrFun clock later))

/-- The state in which `poll` decides: the clock is read and the claim refreshed. -/
def Subscriber.refreshed (s : Subscriber) : Subscriber := (refreshClaim.run (Call.nowNs.run s).2).2

/-- Up to there only the claim is refreshed. -/
theorem refreshes_refreshed (s : Subscriber) : Refreshes s s.refreshed :=
  Steady.bind refreshes_nowNs (fun _ => refreshes_refreshClaim) s

/-- `poll` refreshes the claim and then decides between its fast path and the rest. -/
theorem poll_run (system : Circumstances) (s : Subscriber)
    : (poll system).run s
      = if s.refreshed.impl.hdr.isSome
            && s.clock 0 - s.refreshed.impl.lastProgress < s.refreshed.impl.staleNs
        then (true, s.refreshed)
        else (pollSlowly system (s.clock 0) s.refreshed.impl).run s.refreshed := by
  simp only [poll, pollSlowly]
  rw [Call.run_bind, Call.run_bind, Call.run_bind, Call.run_impl, Call.run_ite]
  rfl

/-- A call of `poll` does one of the listed things. -/
theorem poll_cases (system : Circumstances) (s : Subscriber)
    : Polled s system ((poll system).run s) := by
  have refreshes := refreshes_refreshed s
  have run := poll_run system s
  generalize s.refreshed = start at refreshes run
  have hdr : start.impl.hdr = s.impl.hdr := refreshes.part (·.hdr) fun _ => rfl
  have stale : start.impl.staleNs = s.impl.staleNs := refreshes.part (·.staleNs) fun _ => rfl
  have progress : start.impl.lastProgress = s.impl.lastProgress :=
    refreshes.part (·.lastProgress) fun _ => rfl
  have attempt : start.impl.lastAttempt = s.impl.lastAttempt :=
    refreshes.part (·.lastAttempt) fun _ => rfl
  have retry : start.impl.retryNs = s.impl.retryNs := refreshes.part (·.retryNs) fun _ => rfl
  rw [run, hdr, stale, progress]
  split
  · rename_i quick
    exact .trusted (by simpa [Subscriber.Quick] using quick) refreshes
  rename_i slow
  have slow : ¬ s.Quick := by simpa [Subscriber.Quick] using slow
  obtain ⟨alive, middle, index, answered, same, onward, answer⟩ := producerResponsive_run start
  obtain ⟨shift, clock⟩ := refreshes.clock
  have reading : start.clock index = s.clock (index + shift) := by rw [clock]
  rw [refreshes.responsive_iff, reading] at answer
  have whole : Refreshes s middle := IsTrans.trans _ _ _ refreshes onward
  rw [pollSlowly, Call.run_bind, answered, Call.run_ite]
  split
  · rename_i alive
    exact .fresh slow (answer.mp alive) whole
  rename_i silent
  rw [Call.run_ite]
  split
  · rename_i soon
    rw [attempt, retry] at soon
    exact .limited slow (fun responsive => silent (answer.mpr responsive)) soon whole
  rename_i due
  rw [attempt, retry] at due
  obtain ⟨tried, found, alive, next, later, result, connected, onward, answer'⟩ :=
    attemptConnect_run system (s.clock 0) start.impl middle
  rw [result]
  obtain ⟨shift, clock⟩ := whole.clock
  have reading : middle.clock later = s.clock (later + shift) := by rw [clock]
  rw [reading] at answer'
  have noted
      : unclaimed { start.impl with lastAttempt := s.clock 0 }
        = unclaimed { s.impl with lastAttempt := s.clock 0 } :=
    congrArg (fun m : LLSubscriber.Impl => { m with lastAttempt := s.clock 0 }) refreshes.impl
  have moved : Onward s { middle with impl := { start.impl with lastAttempt := s.clock 0 } } :=
    ⟨whole.clock, whole.bound, whole.produced⟩
  have silent (responsive : Responsive s _) : False := silent (answer.mpr responsive)
  have later' : Onward s next :=
    IsTrans.trans _ _ _ moved (IsTrans.trans _ _ _ connected.onward (onward.rebase _))
  rcases connected.onto moved noted with ⟨nothing, kept⟩ | ⟨g, cl, candidate, fresh, taken⟩
  · exact .retried slow silent due nothing later'
      (onward.impl.trans (congrArg (fun m => { m with lastProgress := s.clock 0 }) kept)) answer'
  · exact .reattached slow silent due candidate fresh later'
      (onward.impl.trans (congrArg (fun m => { m with lastProgress := s.clock 0 }) taken)) answer'

-----------------------------------------------------------------------------------------
-- read_latest
-----------------------------------------------------------------------------------------

/-- What a rate gate can change. -/
structure Gated (s next : Subscriber) : Prop extends Onward s next where
  impl
    : ∃ lastReadNs throttled, next.impl = { s.impl with lastReadNs, throttled }

/-- Everything the attempts of `read_latest` can do with the segment they work on. -/
inductive Attempted (g : Nat) (s : Subscriber) : ReadReturn × Subscriber → Prop
  | delivered {ret next} (new : s.impl.nothingNew (s.world.segments g).header.latest = false)
    (ok : ret.result = .ok) (onward : Onward s next)
    (impl : next.impl = s.impl.deliver ret.info (s.clock 0))
    : Attempted g s (ret, next)
  | quiet {ret} (old : s.impl.nothingNew (s.world.segments g).header.latest = true)
    (running : (s.world.segments g).header.shutdown = 0) (nothing : ret.result = .noNewFrame)
    : Attempted g s (ret, s)
  | ended {ret} (old : s.impl.nothingNew (s.world.segments g).header.latest = true)
    (shut : (s.world.segments g).header.shutdown ≠ 0) (gone : ret.result = .disconnected)
    : Attempted g s (ret, { s with impl := { s.impl with peerShutdown := true } })
  | failed {ret} (contended : ret.result = .contended ∨ ret.result = .bufferTooSmall)
    : Attempted g s (ret, s)

/-- The attempts do one of these things, by induction on the number that is left. -/
theorem readAttempts_cases (g : Nat) (dst : Buffer) (info : LLFrameInfo) (attempts : Nat)
    (s : Subscriber)
    : Attempted g s ((readAttempts g dst info attempts).run s) := by
  induction attempts with
  | zero => exact .failed (Or.inl rfl)
  | succ attempts ih =>
      rw [readAttempts, Call.run_bind, Call.run_impl, Call.run_bind, Call.run_header,
        Call.run_ite]
      split
      · rename_i old
        rw [Call.run_ite]
        split
        · rename_i shut
          exact .ended old shut rfl
        · rename_i running
          exact .quiet old (not_not.mp running) rfl
      rename_i new
      rw [Call.run_ite]
      split
      · exact .failed (Or.inl rfl)
      rw [Call.run_bind, Call.run_slot, Call.run_ite]
      split
      · exact ih
      rw [Call.run_ite]
      split
      · exact .failed (Or.inl rfl)
      rw [Call.run_ite]
      split
      · exact .failed (Or.inr rfl)
      exact .delivered (by simpa using new) rfl ⟨⟨1, rfl⟩, rfl, fun _ => rfl⟩ rfl

/-- Everything `read_latest` can do once it has polled. -/
inductive ReadOn (polled : Subscriber) : ReadReturn × Subscriber → Prop
  | throttled {ret next} (early : ret.result = .throttled) (gated : Gated polled next)
    : ReadOn polled (ret, next)
  | detached {ret next} (gone : ret.result = .disconnected) (gated : Gated polled next)
    (missing : next.impl.hdr = none)
    : ReadOn polled (ret, next)
  | attempted {gated g outcome} (gate : Gated polled gated) (attached : gated.impl.hdr = some g)
    (attempt : Attempted g gated outcome)
    : ReadOn polled outcome

/-- The gate of the raw overload touches its own two counters only. -/
theorem readGate_counters (m : LLSubscriber.Impl) (now : UInt64)
    : ∃ lastReadNs throttled, (m.readGate now).1 = { m with lastReadNs, throttled } := by
  by_cases limited : m.minReadNs ≠ 0
  · by_cases early : (m.lastReadNs ≠ 0 && now - m.lastReadNs < m.minReadNs) = true
    · refine ⟨m.lastReadNs, m.throttled + 1, ?_⟩
      rw [LLSubscriber.Impl.readGate, if_pos limited, if_pos early]
    · refine ⟨now, m.throttled, ?_⟩
      rw [LLSubscriber.Impl.readGate, if_pos limited, if_neg early]
  · refine ⟨m.lastReadNs, m.throttled, ?_⟩
    rw [LLSubscriber.Impl.readGate, if_neg limited]

/-- So does the part of `read_latest` that decides about it. -/
theorem rateGate_gated (s : Subscriber) : Gated s (rateGate.run s).2 := by
  rw [rateGate, Call.run_bind, Call.run_impl, Call.run_ite]
  split
  · exact ⟨Std.Refl.refl s, s.impl.lastReadNs, s.impl.throttled, rfl⟩
  · simp only [Call.run_bind, Call.run_nowNs, Call.run_setImpl]
    exact ⟨⟨⟨1, rfl⟩, rfl, fun _ => rfl⟩, readGate_counters s.impl (s.clock 0)⟩

/-- So does the cheap gate. -/
theorem cheapGate_gated (s : Subscriber) : Gated s (cheapGate.run s).2 := by
  have same : Gated s s := ⟨Std.Refl.refl s, s.impl.lastReadNs, s.impl.throttled, rfl⟩
  rw [cheapGate, Call.run_bind, Call.run_impl, Call.run_ite]
  split
  · exact same
  rw [Call.run_bind, Call.run_nowNs, Call.run_ite]
  split
  · exact ⟨⟨⟨1, rfl⟩, rfl, fun _ => rfl⟩, s.impl.lastReadNs, s.impl.throttled + 1, rfl⟩
  · exact ⟨⟨⟨1, rfl⟩, rfl, fun _ => rfl⟩, s.impl.lastReadNs, s.impl.throttled, rfl⟩

/-- `read_latest` is disconnected where `poll` is, and goes on where `poll` is not. -/
theorem readLatest_cases (system : Circumstances) (dst : Buffer) (info : LLFrameInfo)
    (s : Subscriber)
    : (((poll system).run s).1 = false
        ∧ ((readLatest system dst info).run s).1.result = .disconnected
        ∧ ((readLatest system dst info).run s).2 = ((poll system).run s).2)
      ∨ (((poll system).run s).1 = true
        ∧ ReadOn ((poll system).run s).2 ((readLatest system dst info).run s)) := by
  simp only [readLatest, Call.run_bind]
  generalize (poll system).run s = polled
  obtain ⟨alive, middle⟩ := polled
  cases alive with
  | false => exact Or.inl ⟨rfl, rfl, rfl⟩
  | true =>
      refine Or.inr ⟨rfl, ?_⟩
      have gate := rateGate_gated middle
      simp only [Bool.not_true, Bool.false_eq_true, if_false, Call.run_bind]
      generalize rateGate.run middle = gated at gate
      obtain ⟨passes, gated⟩ := gated
      cases passes with
      | false => exact .throttled rfl gate
      | true =>
          simp only [Bool.not_true, Bool.false_eq_true, if_false, Call.run_bind, Call.run_impl]
          cases attached : gated.impl.hdr with
          | none => exact .detached rfl gate attached
          | some g => exact .attempted gate attached (readAttempts_cases g dst info 4 gated)

end ShmFrame.Calls
