import ShmFrame.Calls.PublishRate

/-! The subscriber's rate cap over whole runs. The gate is tested and stamped in the raw
overload of `read_latest`, and tested once more before that in the vector overload.
-/

namespace ShmFrame.Calls

open ShmFrame.Commands ShmFrame.Foundation

-----------------------------------------------------------------------------------------
-- The machine
-----------------------------------------------------------------------------------------

/-- The reading of the clock at which a call of the raw overload passes the gate, if it gets
there, there is a cap, and the gate lets it through.
-/
def passedAt (system : Circumstances) (s : Subscriber) : Option UInt64 :=
  let (alive, polled) := (poll system).run s
  let now := polled.clock 0
  if alive && polled.impl.minReadNs ≠ 0 && (polled.impl.readGate now).2 then some now else none

/-- The same for the vector overload, which may end before it gets to the other one. -/
def passedVectorAt (first second : Circumstances) (s : Subscriber) : Option UInt64 :=
  match (vectorGate first).run s with
  | (some _, _) => none
  | (none, gated) => passedAt second gated

/-- A subscriber with the readings at which its reads passed the gate, newest first. -/
structure RatedSubscriber where
  sub : Subscriber
  passes : List UInt64 := []

/-- What can happen to a subscriber that is open. `others` is everything the other parties do
between two calls.
-/
inductive RatedAction
  | poll (system : Circumstances)
  | readLatest (system : Circumstances) (dst : Buffer) (info : LLFrameInfo)
  | readLatestVector (first second : Circumstances) (dst : Buffer) (info : LLFrameInfo)
  | send (request : PushCall)
  | receive
  | setStaleTimeoutMs (ms : UInt32)
  | setMaxRead (intervalNs : UInt64)
  | others (world : World)

namespace RatedSubscriber

/-- Every call is possible at any time. -/
def step (s : RatedSubscriber) (action : RatedAction) : RatedSubscriber :=
  match action with
  | .poll system => { s with sub := ((Calls.poll system).run s.sub).2 }
  | .readLatest system dst info =>
      {
        sub := ((Calls.readLatest system dst info).run s.sub).2
        passes := (passedAt system s.sub).toList ++ s.passes
      }
  | .readLatestVector first second dst info =>
      {
        sub := ((Calls.readLatestVector first second dst info).run s.sub).2
        passes := (passedVectorAt first second s.sub).toList ++ s.passes
      }
  | .send request => { s with sub := ((Calls.send request).run s.sub).2 }
  | .receive => { s with sub := (Calls.receive.run s.sub).2 }
  | .setStaleTimeoutMs ms => { s with sub := ((Calls.setStaleTimeoutMs ms).run s.sub).2 }
  | .setMaxRead intervalNs =>
      { s with sub := { s.sub with impl := { s.sub.impl with minReadNs := intervalNs } } }
  | .others world => { s with sub := { s.sub with world } }

/-- A subscriber as `open` returns it, attached or not. -/
def create (name : Name) (system : Circumstances) (world : World) (clock : Nat → UInt64)
    : RatedSubscriber where
  sub := ((openSubscriber name system).run { world, clock }).2

end RatedSubscriber

/-- One subscriber, one call at a time. -/
def ratedMachine : Machine RatedSubscriber RatedAction where
  step := fun s action => some (s.step action)

-----------------------------------------------------------------------------------------
-- Calls that leave the gate alone
-----------------------------------------------------------------------------------------

/-- The gate and the counters of reads are as before. -/
structure Ungated (s next : Subscriber) : Prop extends Onward s next where
  minReadNs : next.impl.minReadNs = s.impl.minReadNs
  lastReadNs : next.impl.lastReadNs = s.impl.lastReadNs
  throttled : next.impl.throttled = s.impl.throttled
  received : next.impl.received = s.impl.received
  dropped : next.impl.dropped = s.impl.dropped

section Ungated

variable {s next : Subscriber}

/-- Changes of the private state that leave them alone. -/
theorem Onward.ungated (onward : Onward s next) {m : LLSubscriber.Impl}
    (impl : unclaimed next.impl = unclaimed m)
    (same
      : (m.minReadNs, m.lastReadNs, m.throttled, m.received, m.dropped)
        = (s.impl.minReadNs, s.impl.lastReadNs, s.impl.throttled, s.impl.received,
            s.impl.dropped))
    : Ungated s next := by
  simp only [Prod.mk.injEq] at same
  obtain ⟨minReadNs, lastReadNs, throttled, received, dropped⟩ := same
  exact {
    toOnward := onward
    minReadNs := (congrArg (·.minReadNs) impl).trans minReadNs
    lastReadNs := (congrArg (·.lastReadNs) impl).trans lastReadNs
    throttled := (congrArg (·.throttled) impl).trans throttled
    received := (congrArg (·.received) impl).trans received
    dropped := (congrArg (·.dropped) impl).trans dropped
  }

/-- `poll` reconnects at most. -/
theorem poll_ungated (system : Circumstances) (s : Subscriber)
    : Ungated s ((poll system).run s).2 := by
  have polled := poll_cases system s
  generalize (poll system).run s = outcome at polled
  cases polled with
  | trusted _ refreshes | fresh _ _ refreshes | limited _ _ _ refreshes =>
      exact refreshes.toOnward.ungated refreshes.impl rfl
  | retried _ _ _ _ onward impl | reattached _ _ _ _ _ onward impl =>
      exact onward.ungated impl rfl

/-- Opening a subscriber sets no cap. -/
theorem openSubscriber_unstamped (name : Name) (system : Circumstances) (s : Subscriber)
    : ((openSubscriber name system).run s).2.impl.lastReadNs = 0 := by
  let start : Subscriber :=
    { (Call.nowNs.run s).2 with impl := { name, lastProgress := s.clock 0 } }
  have run : ((openSubscriber name system).run s).2 = ((tryConnect system).run start).2 := rfl
  have connected := tryConnect_cases system start
  rw [run]
  generalize (tryConnect system).run start = result at connected
  cases connected with
  | refused | kept => rfl
  | adopted _ _ _ impl => exact congrArg (·.lastReadNs) impl

end Ungated

-----------------------------------------------------------------------------------------
-- The raw overload
-----------------------------------------------------------------------------------------

/-- The gate of a subscriber lets nothing through at a reading of the clock. -/
def Early (m : LLSubscriber.Impl) (now : UInt64) : Prop :=
  m.minReadNs ≠ 0 ∧ m.lastReadNs ≠ 0 ∧ now - m.lastReadNs < m.minReadNs

instance (m : LLSubscriber.Impl) (now : UInt64) : Decidable (Early m now) :=
  inferInstanceAs (Decidable (_ ∧ _ ∧ _))

/-- The state after a gate has refused: a reading was taken and the refusal counted. -/
def Subscriber.counted (s : Subscriber) : Subscriber :=
  {
    s with
    impl := { s.impl with throttled := s.impl.throttled + 1 }
    clock := fun index => s.clock (index + 1)
  }

/-- The state after the gate of the raw overload has let a call through. -/
def Subscriber.stamped (s : Subscriber) : Subscriber :=
  {
    s with
    impl := { s.impl with lastReadNs := s.clock 0 }
    clock := fun index => s.clock (index + 1)
  }

/-- A gate that refuses counts. -/
theorem readGate_early {m : LLSubscriber.Impl} {now : UInt64} (early : Early m now)
    : m.readGate now = ({ m with throttled := m.throttled + 1 }, false) := by
  obtain ⟨limited, stamped, soon⟩ := early
  rw [LLSubscriber.Impl.readGate, if_pos limited, if_pos (by simp [stamped, soon])]

/-- A gate that lets a call through makes the reading its stamp. -/
theorem readGate_passes {m : LLSubscriber.Impl} {now : UInt64} (limited : m.minReadNs ≠ 0)
    (passes : ¬ Early m now)
    : m.readGate now = ({ m with lastReadNs := now }, true) := by
  rw [LLSubscriber.Impl.readGate, if_pos limited, if_neg (by simpa [Early, limited] using passes)]

/-- With a cap, the gate of the raw overload takes a reading and decides by it. -/
theorem rateGate_run {s : Subscriber} (limited : s.impl.minReadNs ≠ 0)
    : rateGate.run s
      = ((s.impl.readGate (s.clock 0)).2,
          {
            s with
            impl := (s.impl.readGate (s.clock 0)).1
            clock := fun index => s.clock (index + 1)
          }) := by
  rw [rateGate, Call.run_bind, Call.run_impl, Call.run_ite, if_neg limited]
  rfl

/-- The rest of the raw overload, once the gate has let it through. -/
def readAttached (dst : Buffer) (info : LLFrameInfo) : Call ReadReturn := do
  let m ← Call.impl
  let some g := m.hdr | return { result := .disconnected, info, dst }
  readAttempts g dst info 4

/-- The rest leaves the gate alone and is not throttled. -/
structure Through (s : Subscriber) (outcome : ReadReturn × Subscriber) : Prop
    extends Onward s outcome.2 where
  lastReadNs : outcome.2.impl.lastReadNs = s.impl.lastReadNs
  result : outcome.1.result ≠ .throttled

/-- This holds of all it can do. -/
theorem readAttached_through (dst : Buffer) (info : LLFrameInfo) (s : Subscriber)
    : Through s ((readAttached dst info).run s) := by
  rw [readAttached, Call.run_bind, Call.run_impl]
  cases s.impl.hdr with
  | none => exact ⟨Std.Refl.refl s, rfl, by simp⟩
  | some g =>
      have attempted := readAttempts_cases g dst info 4 s
      dsimp only
      generalize (readAttempts g dst info 4).run s = outcome at attempted
      cases attempted with
      | delivered _ ok onward impl => exact ⟨onward, by rw [impl]; rfl, by simp [ok]⟩
      | quiet _ _ nothing => exact ⟨Std.Refl.refl s, rfl, by simp [nothing]⟩
      | ended _ _ gone => exact ⟨⟨⟨0, rfl⟩, rfl, fun _ => rfl⟩, rfl, by simp [gone]⟩
      | failed contended =>
          refine ⟨Std.Refl.refl s, rfl, ?_⟩
          rcases contended with one | two <;> simp [*]

/-- Everything the raw overload can do, as far as the gate is concerned. -/
inductive RawRead (dst : Buffer) (info : LLFrameInfo) (s : Subscriber)
    : Option UInt64 → ReadReturn × Subscriber → Prop
  | detached {ret next} (ungated : Ungated s next) (gone : ret.result = .disconnected)
    : RawRead dst info s none (ret, next)
  | throttled {polled} (ungated : Ungated s polled)
    (early : Early polled.impl (polled.clock 0))
    : RawRead dst info s none ({ result := .throttled, info, dst }, polled.counted)
  | unlimited {polled outcome} (ungated : Ungated s polled)
    (free : polled.impl.minReadNs = 0) (through : Through polled outcome)
    : RawRead dst info s none outcome
  | limited {polled outcome} (ungated : Ungated s polled)
    (passes : ¬ Early polled.impl (polled.clock 0))
    (through : Through polled.stamped outcome)
    : RawRead dst info s (some (polled.clock 0)) outcome

/-- A call of the raw overload does one of these things. -/
theorem readLatest_rated (system : Circumstances) (dst : Buffer) (info : LLFrameInfo)
    (s : Subscriber)
    : RawRead dst info s (passedAt system s) ((readLatest system dst info).run s) := by
  have ungated := poll_ungated system s
  simp only [readLatest, passedAt, Call.run_bind]
  generalize (poll system).run s = outcome at ungated
  obtain ⟨alive, polled⟩ := outcome
  cases alive with
  | false => exact .detached ungated rfl
  | true =>
      simp only [Bool.not_true, Bool.false_eq_true, if_false, Call.run_bind, Bool.true_and]
      by_cases limited : polled.impl.minReadNs = 0
      · have free : rateGate.run polled = (true, polled) := by
          rw [rateGate, Call.run_bind, Call.run_impl, Call.run_ite, if_pos limited]
          rfl
        rw [free, if_neg (by simp [limited])]
        exact .unlimited ungated limited (readAttached_through dst info polled)
      · rw [rateGate_run limited]
        by_cases early : Early polled.impl (polled.clock 0)
        · rw [readGate_early early, if_neg (by simp)]
          exact .throttled ungated early
        · rw [readGate_passes limited early, if_pos (by simp [limited])]
          exact .limited ungated early (readAttached_through dst info polled.stamped)

-----------------------------------------------------------------------------------------
-- The vector overload
-----------------------------------------------------------------------------------------

/-- Everything the first half of the vector overload can do, as far as the gate is concerned.
Where it goes on with a cap and a stamp, it has found the gap over at one of its readings.
-/
inductive HalfRead (s : Subscriber) : Option LLReadResult × Subscriber → Prop
  | detached {next} (ungated : Ungated s next) : HalfRead s (some .disconnected, next)
  | throttled {polled} (ungated : Ungated s polled)
    (early : Early polled.impl (polled.clock 0))
    : HalfRead s (some .throttled, polled.counted)
  | through {next} (ungated : Ungated s next)
    (passes
      : s.impl.minReadNs = 0
        ∨ s.impl.lastReadNs = 0
        ∨ ∃ reading more,
            ¬ s.clock reading - s.impl.lastReadNs < s.impl.minReadNs
            ∧ next.clock = fun index => s.clock (index + (reading + more)))
    : HalfRead s (none, next)

/-- The first half does one of these things. -/
theorem vectorGate_rated (system : Circumstances) (s : Subscriber)
    : HalfRead s ((vectorGate system).run s) := by
  have ungated := poll_ungated system s
  simp only [vectorGate, Call.run_bind]
  generalize (poll system).run s = outcome at ungated
  obtain ⟨alive, polled⟩ := outcome
  cases alive with
  | false => exact .detached ungated
  | true =>
      simp only [Bool.not_true, Bool.false_eq_true, if_false, Call.run_bind]
      rw [cheapGate, Call.run_bind, Call.run_impl, Call.run_ite]
      split
      · rename_i free
        rw [ungated.minReadNs, ungated.lastReadNs] at free
        simp only [Bool.or_eq_true, decide_eq_true_eq] at free
        exact .through ungated (free.imp_right Or.inl)
      rename_i limited
      simp only [Bool.or_eq_true, decide_eq_true_eq, not_or] at limited
      rw [Call.run_bind, Call.run_nowNs, Call.run_ite]
      split
      · rename_i soon
        exact .throttled ungated ⟨limited.1, limited.2, soon⟩
      · rename_i late
        change ¬ polled.clock 0 - polled.impl.lastReadNs < polled.impl.minReadNs at late
        obtain ⟨readings, clock⟩ := ungated.clock
        refine .through ⟨⟨⟨readings + 1, ?_⟩, ungated.bound, ungated.produced⟩,
          ungated.minReadNs, ungated.lastReadNs, ungated.throttled, ungated.received,
          ungated.dropped⟩ (Or.inr (Or.inr ⟨readings, 1, ?_, ?_⟩))
        · funext index
          exact (congrFun clock _).trans (congrArg s.clock (by omega))
        · have reading : polled.clock 0 = s.clock readings :=
            (congrFun clock 0).trans (congrArg s.clock (Nat.zero_add _))
          rwa [ungated.lastReadNs, ungated.minReadNs, reading] at late
        · funext index
          exact (congrFun clock _).trans (congrArg s.clock (by omega))

/-- The vector overload ends with its first half or goes on with the raw one. -/
theorem readLatestVector_run (first second : Circumstances) (dst : Buffer)
    (info : LLFrameInfo) (s : Subscriber)
    : (readLatestVector first second dst info).run s
      = match (vectorGate first).run s with
        | (some result, next) => ({ result, info, dst }, next)
        | (none, next) =>
            (readLatest second (dst.resize next.impl.remote.maxPayload) info).run next := by
  rw [readLatestVector_eq, Call.run_bind]
  generalize (vectorGate first).run s = half
  obtain ⟨early, next⟩ := half
  cases early with
  | some result => exact Call.run_pure next _
  | none => rw [Call.run_bind, Call.run_impl]

-----------------------------------------------------------------------------------------
-- Throttled calls
-----------------------------------------------------------------------------------------

/-- A call that returns `Throttled` has counted it, and done nothing else the caller or the
counters of frames could tell.
-/
structure CountsThrottle (s : Subscriber) (dst : Buffer) (info : LLFrameInfo)
    (outcome : ReadReturn × Subscriber)
    : Prop where
  throttled : outcome.2.impl.throttled = s.impl.throttled + 1
  dst : outcome.1.dst = dst
  info : outcome.1.info = info
  received : outcome.2.impl.received = s.impl.received
  dropped : outcome.2.impl.dropped = s.impl.dropped

section Throttled

variable {s : Subscriber} (dst : Buffer) (info : LLFrameInfo)

/-- A refusal that is counted after calls that left the gate alone. -/
theorem Ungated.countsThrottle {polled : Subscriber} (ungated : Ungated s polled)
    : CountsThrottle s dst info ({ result := .throttled, info, dst }, polled.counted) where
  throttled := congrArg (· + 1) ungated.throttled
  dst := rfl
  info := rfl
  received := ungated.received
  dropped := ungated.dropped

/-- Where the raw overload returns `Throttled`, its own gate has refused. -/
theorem RawRead.countsThrottle {stamp : Option UInt64} {outcome : ReadReturn × Subscriber}
    (read : RawRead dst info s stamp outcome) (throttled : outcome.1.result = .throttled)
    : CountsThrottle s dst info outcome := by
  cases read with
  | detached _ gone =>
      rw [gone] at throttled
      cases throttled
  | throttled ungated early => exact ungated.countsThrottle dst info
  | unlimited _ _ through | limited _ _ through => exact absurd throttled through.result

/-- Where the vector overload returns `Throttled`, its cheap gate has refused: the gate of the
raw overload compares a later reading with the same stamp.
-/
theorem readLatestVector_countsThrottle (clock : GateClock s.clock s.impl.lastReadNs)
    (first second : Circumstances)
    (throttled : ((readLatestVector first second dst info).run s).1.result = .throttled)
    : CountsThrottle s dst info ((readLatestVector first second dst info).run s) := by
  have half := vectorGate_rated first s
  rw [readLatestVector_run] at throttled ⊢
  generalize (vectorGate first).run s = gated at half throttled ⊢
  cases half with
  | detached ungated => cases throttled
  | throttled ungated early => exact ungated.countsThrottle dst info
  | @through next ungated passes =>
      have read := readLatest_rated second (dst.resize next.impl.remote.maxPayload) info next
      dsimp only at throttled ⊢
      generalize (readLatest second _ info).run next = outcome at read throttled ⊢
      generalize passedAt second next = stamp at read
      cases read with
      | detached _ gone =>
          rw [gone] at throttled
          cases throttled
      | unlimited _ _ through | limited _ _ through => exact absurd throttled through.result
      | throttled again early =>
          obtain ⟨limited, stamped, soon⟩ := early
          rw [again.minReadNs, ungated.minReadNs] at limited
          rw [again.lastReadNs, ungated.lastReadNs] at stamped
          rcases passes with unlimited | unstamped | ⟨reading, more, late, shifted⟩
          · exact absurd unlimited limited
          · exact absurd unstamped stamped
          · obtain ⟨readings, clock'⟩ := again.clock
            rw [clock', shifted, again.lastReadNs, ungated.lastReadNs, again.minReadNs,
              ungated.minReadNs] at soon
            exact absurd soon (clock.later_over (by omega) late)

end Throttled

-----------------------------------------------------------------------------------------
-- Stamps and results
-----------------------------------------------------------------------------------------

/-- What the stamp of a call has to do with its result. Under a cap, a call that leaves no stamp
ends before the gate or there; and one that leaves a stamp is not throttled, and the stamp is
what the gate compares with from then on.
-/
structure Stamps (m : LLSubscriber.Impl) (stamp : Option UInt64)
    (outcome : ReadReturn × Subscriber)
    : Prop where
  unstamped
    : m.minReadNs ≠ 0
      → stamp = none
      → outcome.1.result = .throttled ∨ outcome.1.result = .disconnected
  stamped
    : ∀ now,
        stamp = some now
        → outcome.1.result ≠ .throttled ∧ outcome.2.impl.lastReadNs = now

/-- A call that ends before the gate of the raw overload, or there. -/
theorem Stamps.refused {m : LLSubscriber.Impl} {outcome : ReadReturn × Subscriber}
    (result : outcome.1.result = .throttled ∨ outcome.1.result = .disconnected)
    : Stamps m none outcome where
  unstamped := fun _ _ => result
  stamped := fun now noted => by cases noted

/-- Calls of the raw overload are stamped where their result says so. -/
theorem RawRead.stamps {s : Subscriber} {dst : Buffer} {info : LLFrameInfo}
    {stamp : Option UInt64} {outcome : ReadReturn × Subscriber}
    (read : RawRead dst info s stamp outcome)
    : Stamps s.impl stamp outcome := by
  cases read with
  | detached _ gone => exact .refused (Or.inr gone)
  | throttled => exact .refused (Or.inl rfl)
  | unlimited ungated free =>
      refine ⟨fun limited _ => absurd ?_ limited, fun now noted => by cases noted⟩
      rw [← ungated.minReadNs]
      exact free
  | limited _ _ through =>
      refine ⟨fun _ none_ => (by cases none_), fun now noted => ⟨through.result, ?_⟩⟩
      obtain rfl := Option.some.inj noted
      exact through.lastReadNs

/-- So are calls of the vector overload. -/
theorem readLatestVector_stamps (first second : Circumstances) (dst : Buffer)
    (info : LLFrameInfo) (s : Subscriber)
    : Stamps s.impl (passedVectorAt first second s)
        ((readLatestVector first second dst info).run s) := by
  have half := vectorGate_rated first s
  rw [readLatestVector_run, passedVectorAt]
  generalize (vectorGate first).run s = gated at half
  cases half with
  | detached => exact .refused (Or.inr rfl)
  | throttled => exact .refused (Or.inl rfl)
  | @through next ungated =>
      obtain ⟨unstamped, stamped⟩ :=
        (readLatest_rated second (dst.resize next.impl.remote.maxPayload) info next).stamps
      rw [ungated.minReadNs] at unstamped
      exact ⟨unstamped, stamped⟩

-----------------------------------------------------------------------------------------
-- What a call does to the gate
-----------------------------------------------------------------------------------------

/-- The readings to come and the stamp of the gate after a call: a call that does not pass the
gate leaves the stamp alone, one that passes it makes its reading the stamp.
-/
inductive Gates (s : Subscriber) : Option UInt64 → Subscriber → Prop
  | kept {next} (readings : Nat) (clock : next.clock = fun index => s.clock (index + readings))
    (last : next.impl.lastReadNs = s.impl.lastReadNs)
    : Gates s none next
  | passed {next} (readings more : Nat)
    (clock : next.clock = fun index => s.clock (index + (readings + 1 + more)))
    (last : next.impl.lastReadNs = s.clock readings)
    (passes : ¬ Early s.impl (s.clock readings))
    : Gates s (some (s.clock readings)) next

section Gates

variable {s middle next : Subscriber}

/-- A call that leaves the gate alone. -/
theorem Ungated.gates (ungated : Ungated s next) : Gates s none next := by
  obtain ⟨readings, clock⟩ := ungated.clock
  exact .kept readings clock ungated.lastReadNs

/-- What was done after a call that left the gate alone. -/
theorem Gates.after {stamp : Option UInt64} (gates : Gates middle stamp next)
    (ungated : Ungated s middle)
    : Gates s stamp next := by
  obtain ⟨before, shifted⟩ := ungated.clock
  have reading (index : Nat) : middle.clock index = s.clock (index + before) :=
    congrFun shifted index
  cases gates with
  | kept readings clock last =>
      refine .kept (readings + before) ?_ (last.trans ungated.lastReadNs)
      rw [clock]
      funext index
      exact (reading _).trans (congrArg s.clock (Nat.add_assoc ..))
  | passed readings more clock last passes =>
      rw [reading] at last passes ⊢
      refine .passed (readings + before) more ?_ last ?_
      · rw [clock]
        funext index
        exact (reading _).trans (congrArg s.clock (by omega))
      · rwa [Early, ungated.minReadNs, ungated.lastReadNs] at passes

/-- The raw overload is stamped where it passes the gate. -/
theorem RawRead.gates {dst : Buffer} {info : LLFrameInfo} {stamp : Option UInt64}
    {outcome : ReadReturn × Subscriber} (read : RawRead dst info s stamp outcome)
    : Gates s stamp outcome.2 := by
  cases read with
  | detached ungated => exact ungated.gates
  | @throttled polled ungated =>
      exact (Gates.kept 1 rfl rfl : Gates polled none polled.counted).after ungated
  | unlimited ungated _ through =>
      obtain ⟨readings, clock⟩ := through.clock
      exact (Gates.kept readings clock through.lastReadNs).after ungated
  | @limited polled _ ungated passes through =>
      obtain ⟨more, clock⟩ := through.clock
      refine (Gates.passed 0 more ?_ through.lastReadNs passes).after ungated
      rw [clock]
      funext index
      exact congrArg polled.clock (by omega)

/-- So is the vector overload. -/
theorem readLatestVector_gates (first second : Circumstances) (dst : Buffer)
    (info : LLFrameInfo) (s : Subscriber)
    : Gates s (passedVectorAt first second s)
        ((readLatestVector first second dst info).run s).2 := by
  have half := vectorGate_rated first s
  rw [readLatestVector_run, passedVectorAt]
  generalize (vectorGate first).run s = gated at half
  cases half with
  | detached ungated => exact ungated.gates
  | @throttled polled ungated =>
      exact (Gates.kept 1 rfl rfl : Gates polled none polled.counted).after ungated
  | through ungated => exact (readLatest_rated second _ info _).gates.after ungated

/-- The command calls leave the gate alone. -/
theorem send_ungated (request : PushCall) (s : Subscriber)
    : Ungated s ((send request).run s).2 := by
  obtain ⟨result, next, nextCmd, sent, cmdDropped, run, onward, impl⟩ := send_run request s
  rw [run]
  exact onward.ungated impl rfl

theorem receive_ungated (s : Subscriber) : Ungated s (receive.run s).2 := by
  have received := receive_cases s
  generalize receive.run s = outcome at received
  cases received with
  | nothing refreshes => exact refreshes.toOnward.ungated refreshes.impl rfl
  | command _ before after impl => exact (IsTrans.trans _ _ _ before after).ungated impl rfl

/-- Every action does one of these things, and its stamp, if any, is added to the history. -/
theorem RatedSubscriber.step_gates (s : RatedSubscriber) (action : RatedAction)
    : ∃ stamp,
        Gates s.sub stamp (s.step action).sub
        ∧ (s.step action).passes = stamp.toList ++ s.passes := by
  have same : Onward s.sub s.sub := Std.Refl.refl s.sub
  cases action with
  | poll system => exact ⟨none, (poll_ungated system s.sub).gates, rfl⟩
  | readLatest system dst info =>
      exact ⟨_, (readLatest_rated system dst info s.sub).gates, rfl⟩
  | readLatestVector first second dst info =>
      exact ⟨_, readLatestVector_gates first second dst info s.sub, rfl⟩
  | send request => exact ⟨none, (send_ungated request s.sub).gates, rfl⟩
  | receive => exact ⟨none, (receive_ungated s.sub).gates, rfl⟩
  | setStaleTimeoutMs ms => exact ⟨none, .kept 0 rfl rfl, rfl⟩
  | setMaxRead intervalNs => exact ⟨none, .kept 0 rfl rfl, rfl⟩
  | others world => exact ⟨none, .kept 0 rfl rfl, rfl⟩

end Gates

-----------------------------------------------------------------------------------------
-- The rate of reads
-----------------------------------------------------------------------------------------

/-- Since there were only the earlier stamps, reads passed the gate a gap apart. -/
structure ReadsApart (gap : UInt64) (earlier : List UInt64) (s : RatedSubscriber) : Prop where
  clock : GateClock s.sub.clock s.sub.impl.lastReadNs
  made : ∃ made, StampedSince gap earlier s.passes s.sub.impl.lastReadNs made

/-- Every call keeps the clock in order. -/
theorem Gates.clock {s next : Subscriber} {stamp : Option UInt64} (gates : Gates s stamp next)
    (clock : GateClock s.clock s.impl.lastReadNs)
    : GateClock next.clock next.impl.lastReadNs := by
  cases gates with
  | kept readings after last =>
      rw [after, last]
      exact clock.skip readings
  | passed readings more after last =>
      rw [after, last]
      have shifted := (clock.stamp readings).skip more
      simpa only [Nat.add_assoc, Nat.add_comm more] using shifted

/-- Every call that finds the gap set keeps the reads apart. -/
theorem ReadsApart.step {s : RatedSubscriber} {gap : UInt64} {earlier : List UInt64}
    (apart : ReadsApart gap earlier s) (positive : gap ≠ 0)
    (interval : s.sub.impl.minReadNs = gap) (action : RatedAction)
    : ReadsApart gap earlier (s.step action) := by
  obtain ⟨stamp, gates, passes⟩ := s.step_gates action
  refine ⟨gates.clock apart.clock, ?_⟩
  obtain ⟨made, since⟩ := apart.made
  rw [passes]
  generalize (s.step action).sub = next at gates
  cases gates with
  | kept readings clock last =>
      rw [last]
      exact ⟨made, since⟩
  | passed readings more clock last late =>
      rw [last]
      refine ⟨_, since.push (apart.clock.positive readings) fun some_ => ?_⟩
      rw [Early, interval] at late
      have over_ := (apart.clock.skip readings).over_ positive (since.last_ne some_)
      rw [Nat.zero_add] at over_
      exact over_ late

/-- In every state a run leads to, the clock is in order. -/
theorem ratedMachine_clock {name : Name} {system : Circumstances} {world : World}
    {clock : Nat → UInt64} (monotone : NeverBack clock) (positive : ∀ index, clock index ≠ 0)
    {schedule : List RatedAction} {s : RatedSubscriber}
    (reached : ratedMachine.run (.create name system world clock) schedule = some s)
    : GateClock s.sub.clock s.sub.impl.lastReadNs := by
  refine Machine.invariant_of_reached
    (fun s : RatedSubscriber => GateClock s.sub.clock s.sub.impl.lastReadNs)
    (fun s action next known stepped => ?_) ?_ reached
  · obtain rfl := Option.some.inj stepped
    obtain ⟨stamp, gates, -⟩ := s.step_gates action
    exact gates.clock known
  · let start : Subscriber := { world, clock }
    have unread : GateClock start.clock 0 := ⟨monotone, positive, Nat.zero_le _⟩
    have opened := openSubscriber_opens name system start
    have unstamped := openSubscriber_unstamped name system start
    obtain ⟨readings, shifted⟩ := opened.clock
    change GateClock ((openSubscriber name system).run start).2.clock
      ((openSubscriber name system).run start).2.impl.lastReadNs
    rw [shifted, unstamped]
    exact unread.skip readings

/-- While the cap is set to a positive gap, a window of time holds at most one read that
passes the gate for each gap that fits into it, and one more.
-/
theorem reads_bounded {name : Name} {system : Circumstances} {world : World}
    {clock : Nat → UInt64} (monotone : NeverBack clock) (positive : ∀ index, clock index ≠ 0)
    {before rest : List RatedAction} {middle final : RatedSubscriber} {gap : UInt64}
    (gapped : gap ≠ 0)
    (reached : ratedMachine.run (.create name system world clock) before = some middle)
    (constant : ratedMachine.Meets (fun s _ => s.sub.impl.minReadNs = gap) middle rest)
    (onward : ratedMachine.run middle rest = some final)
    : AtMostPerGap gap middle.passes final.passes := by
  have apart : ReadsApart gap middle.passes final :=
    Machine.invariant_of_run _ (ReadsApart gap middle.passes)
      (fun _ action _ known interval stepped => by
        obtain rfl := Option.some.inj stepped
        exact known.step gapped interval action)
      ⟨ratedMachine_clock monotone positive reached, [], .nothing ..⟩ constant onward
  obtain ⟨made, since⟩ := apart.made
  exact since.atMostPerGap gapped

/-- For all readings that are positive and never go back, and all runs of a publisher and of
a subscriber: while a cap is constant, commits, and reads that pass the gate, do not crowd
any window of time. Under a cap every read that does not pass the gate is throttled or
disconnected. In every state of a subscriber's run a throttled read only counts, and everywhere
so does a `begin_write` that the gate refuses.
-/
theorem gates_boundWork {clock : Nat → UInt64} (monotone : NeverBack clock)
    (positive : ∀ index, clock index ≠ 0)
    : (∀ (cfg : LLConfig) (session now : UInt64) (before rest : List TimedAction)
          (middle final : TimedPublisher) (gap : UInt64),
          gap ≠ 0
          → timedMachine.run (.create cfg session now clock) before = some middle
          → timedMachine.Meets (fun s _ => s.publisher.impl.minIntervalNs = gap) middle rest
          → timedMachine.run middle rest = some final
          → AtMostPerGap gap middle.commits final.commits)
      ∧ (∀ (name : Name) (system : Circumstances) (world : World)
          (before rest : List RatedAction) (middle final : RatedSubscriber) (gap : UInt64),
          gap ≠ 0
          → ratedMachine.run (.create name system world clock) before = some middle
          → ratedMachine.Meets (fun s _ => s.sub.impl.minReadNs = gap) middle rest
          → ratedMachine.run middle rest = some final
          → AtMostPerGap gap middle.passes final.passes)
      ∧ (∀ (first second : Circumstances) (dst : Buffer) (info : LLFrameInfo) (s : Subscriber),
          Stamps s.impl (passedAt first s) ((readLatest first dst info).run s)
          ∧ Stamps s.impl (passedVectorAt first second s)
              ((readLatestVector first second dst info).run s))
      ∧ (∀ (name : Name) (opened first second : Circumstances) (world : World)
          (schedule : List RatedAction) (s : RatedSubscriber) (dst : Buffer)
          (info : LLFrameInfo),
          ratedMachine.run (.create name opened world clock) schedule = some s
          → (((readLatest first dst info).run s.sub).1.result = .throttled
              → CountsThrottle s.sub dst info ((readLatest first dst info).run s.sub))
            ∧ (((readLatestVector first second dst info).run s.sub).1.result = .throttled
              → CountsThrottle s.sub dst info
                  ((readLatestVector first second dst info).run s.sub)))
      ∧ ∀ (s : TimedPublisher) (width height : UInt32),
          s.publisher.impl.pending = none
          → width ≠ 0
          → height ≠ 0
          → Throttles s.publisher.impl (s.clock 0)
          → s.beginWrite width height
            = ({
                  s.skip 1 with
                  publisher := {
                    s.publisher with
                    impl := {
                      s.publisher.impl with
                      throttled := s.publisher.impl.throttled + 1
                    }
                  }
                }, false) := by
  refine ⟨?_, ?_, ?_, ?_, ?_⟩
  · intro cfg session now before rest middle final gap gapped reached constant onward
    exact commits_bounded monotone positive gapped reached constant onward
  · intro name system world before rest middle final gap gapped reached constant onward
    exact reads_bounded monotone positive gapped reached constant onward
  · intro first second dst info s
    exact ⟨(readLatest_rated first dst info s).stamps,
      readLatestVector_stamps first second dst info s⟩
  · intro name opened first second world schedule s dst info reached
    have clock := ratedMachine_clock monotone positive reached
    exact ⟨(readLatest_rated first dst info s.sub).countsThrottle dst info,
      readLatestVector_countsThrottle dst info clock first second⟩
  · intro s width height free columns rows early
    exact TimedPublisher.beginWrite_throttled free columns rows early

/-- A clock that goes to a second and to a third reading after it has been read some times. -/
def gateClock (second third index : Nat) : UInt64 :=
  if index < second then 1000 else if index < third then 1200 else 1600

/-- Such a clock never goes back. -/
theorem gateClock_neverBack (second third : Nat) : NeverBack (gateClock second third) := by
  intro first last before
  simp only [gateClock]
  repeat' split
  all_goals first | omega | decide

/-- A segment with a frame. -/
def gatedWorld (frame : UInt64) : World where
  segments := fun _ =>
    {
      size := (computeLayout {}).totalSize
      header := {
        LLHeader.initialise {} 5 1000 with
        magic := kMagic
        latest := packLatest frame 1
      }
      slots := fun _ => { header := { seq := 2, info := { frameId := frame, payloadBytes := 4 } } }
    }
  bound := some 0

/-- Two reads of frames by the raw overload, the second one too early, and one by the vector
overload.
-/
def gatedReads : List RatedAction :=
  [.readLatest {} { size := 4 } {}, .others (gatedWorld 8), .readLatest {} { size := 4 } {},
    .readLatestVector {} {} { size := 4 } {}]

/-- With a gap of 500 nanoseconds the first and the last of three calls of `publish` are
committed, and the first and the last of three reads get their frames; another one would be
throttled.
-/
theorem gates_boundWork_three
    : (∃ middle final,
        timedMachine.run (.create {} 1 0 (gateClock 3 4)) [.setMaxPublish 500] = some middle
        ∧ timedMachine.run middle (List.replicate 3 (.publish (some fun _ => 7) 2 2 0))
          = some final
        ∧ final.commits = [1600, 1000]
        ∧ final.publisher.impl.throttled = 1
        ∧ AtMostPerGap 500 middle.commits final.commits)
      ∧ ∃ middle final,
          ratedMachine.run (.create [] {} (gatedWorld 7) (gateClock 7 10)) [.setMaxRead 500]
            = some middle
          ∧ ratedMachine.run middle gatedReads = some final
          ∧ final.passes = [1600, 1000]
          ∧ final.sub.impl.throttled = 1
          ∧ final.sub.impl.received = 2
          ∧ AtMostPerGap 500 middle.passes final.passes
          ∧ (((readLatest {} { size := 4 } {}).run final.sub).1.result = .throttled
            ∨ ((readLatest {} { size := 4 } {}).run final.sub).1.result = .disconnected) := by
  have positive (second third index : Nat) : gateClock second third index ≠ 0 := by
    simp only [gateClock]
    split
    · decide
    · split <;> decide
  constructor
  · let calls : List TimedAction := List.replicate 3 (.publish (some fun _ => 7) 2 2 0)
    have passes
        : (timedMachine.run (.create {} 1 0 (gateClock 3 4)) [.setMaxPublish 500]).any
            (fun middle =>
              timedMachine.Meets (fun s _ => s.publisher.impl.minIntervalNs = 500) middle calls
              ∧ (timedMachine.run middle calls).any
                  (fun final =>
                    final.commits = [1600, 1000] ∧ final.publisher.impl.throttled = 1) = true)
          = true := by
      decide +kernel
    obtain ⟨middle, reached, tested⟩ := Machine.reaches_of_any passes
    obtain ⟨constant, more⟩ := of_decide_eq_true tested
    obtain ⟨final, onward, noted⟩ := Machine.reaches_of_any more
    obtain ⟨commits, throttled⟩ := of_decide_eq_true noted
    exact ⟨middle, final, reached, onward, commits, throttled,
      (gates_boundWork (gateClock_neverBack 3 4) (positive 3 4)).1 {} 1 0 _ calls middle
        final 500 (by decide) reached constant onward⟩
  · have passes
        : (ratedMachine.run (.create [] {} (gatedWorld 7) (gateClock 7 10)) [.setMaxRead 500]).any
            (fun middle =>
              ratedMachine.Meets (fun s _ => s.sub.impl.minReadNs = 500) middle gatedReads
              ∧ (ratedMachine.run middle gatedReads).any
                  (fun final =>
                    final.passes = [1600, 1000]
                    ∧ final.sub.impl.throttled = 1
                    ∧ final.sub.impl.received = 2
                    ∧ final.sub.impl.minReadNs = 500
                    ∧ passedAt {} final.sub = none) = true)
          = true := by
      decide +kernel
    obtain ⟨middle, reached, tested⟩ := Machine.reaches_of_any passes
    obtain ⟨constant, more⟩ := of_decide_eq_true tested
    obtain ⟨final, onward, noted⟩ := Machine.reaches_of_any more
    obtain ⟨stamps, throttled, received, capped, unstamped⟩ := of_decide_eq_true noted
    obtain ⟨-, bounded, stamped, -⟩ :=
      gates_boundWork (gateClock_neverBack 7 10) (positive 7 10)
    have capped : final.sub.impl.minReadNs ≠ 0 := by simp [capped]
    exact ⟨middle, final, reached, onward, stamps, throttled, received,
      bounded [] {} (gatedWorld 7) _ gatedReads middle final 500 (by decide) reached constant
        onward,
      (stamped {} {} { size := 4 } {} final.sub).1.unstamped capped unstamped⟩

end ShmFrame.Calls
