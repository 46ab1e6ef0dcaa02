import ShmFrame.Calls.Tracking

/-! On what evidence `poll` reports a live producer. Its fast path trusts the last progress,
which is noted by frames and commands, but also by `open` and by every attempt to connect,
whatever its outcome.
-/

namespace ShmFrame.Calls

open ShmFrame.Commands ShmFrame.Foundation

-----------------------------------------------------------------------------------------
-- Lawful verdicts
-----------------------------------------------------------------------------------------

/-- A producer is reported as alive only if its heartbeat is younger than the timeout, or a
frame or a command of its session was received less than the timeout ago.
-/
def Verdict.Lawful (v : Verdict) : Prop :=
  v.alive = true
  → (∃ beat ∈ v.beat, v.now.toNat < beat.toNat + v.staleNs.toNat)
    ∨ ∃ time ∈ v.evidence, v.now.toNat < time.toNat + v.staleNs.toNat

instance (v : Verdict) : Decidable v.Lawful := inferInstanceAs (Decidable (_ → _))

/-- All calls of `poll` so far reported a live producer on evidence only. -/
def Tracked.AllLawful (s : Tracked) : Prop := ∀ v ∈ s.verdicts, v.Lawful

/-- The heartbeat in the attached segment is younger than the timeout. -/
def Tracked.BeatsNow (s : Subscriber) : Prop :=
  ∃ beat ∈ Tracked.beat s, (s.clock 0).toNat < beat.toNat + s.impl.staleNs.toNat

/-- The condition on a step: where the fast path of `poll` is open, the last progress was a
frame or a command of this session, or the heartbeat is young.
-/
def Evidenced (s : Tracked) : TrackedAction → Prop
  | .poll _ | .vectorGate _ | .readLatest .. =>
      s.sub.Quick → s.evidence = some s.sub.impl.lastProgress ∨ Tracked.BeatsNow s.sub
  | _ => True

instance (s : Subscriber) : Decidable (Tracked.BeatsNow s) :=
  Option.decidableExistsMem (Tracked.beat s)

instance (s : Tracked) : DecidablePred (Evidenced s)
  | .poll _ | .vectorGate _ | .readLatest .. => inferInstanceAs (Decidable (_ → _ ∨ _))
  | .open_ .. | .send _ | .receive | .setStaleTimeoutMs _ | .setMaxRead _ | .others _ =>
      isTrue trivial

/-- The timeout is set while nothing has been received on the session yet. -/
def SettledTimeout (s : Tracked) (action : TrackedAction) : Prop :=
  ∀ ms, action = .setStaleTimeoutMs ms → s.evidence = none

/-- The heartbeat in the attached segment and the last sign of life are as old as the
timeout.
-/
structure Tracked.Outdated (s : Tracked) : Prop where
  beat
    : ∀ beat ∈ Tracked.beat s.sub,
        beat.toNat + s.sub.impl.staleNs.toNat ≤ (s.sub.clock 0).toNat
  evidence
    : ∀ time ∈ s.evidence, time.toNat + s.sub.impl.staleNs.toNat ≤ (s.sub.clock 0).toNat

instance (s : Tracked) : Decidable s.Outdated :=
  let old (time : UInt64) : Bool := time.toNat + s.sub.impl.staleNs.toNat ≤ (s.sub.clock 0).toNat
  decidable_of_iff ((Tracked.beat s.sub).all old = true ∧ s.evidence.all old = true) <| by
    simp only [Option.all_eq_true, old, decide_eq_true_eq]
    exact ⟨fun both => ⟨both.1, both.2⟩, fun outdated => ⟨outdated.1, outdated.2⟩⟩

/-- A step after the producer has crashed, while nothing replaces it: the heartbeat in the
attached segment stays, the name leads to no other session, and no command is left to be
received. The subscriber keeps its timeout and is not opened anew.
-/
def Deserted (s : Tracked) : TrackedAction → Prop
  | .open_ .. | .setStaleTimeoutMs _ => False
  | .poll system | .vectorGate system | .readLatest system .. =>
      ∀ g cl, s.sub.candidate system = some (g, cl) → s.sub.Reads g
  | .send _ | .setMaxRead _ => True
  | .receive => (receive.run s.sub).1 = none
  | .others world => Tracked.beat { s.sub with world } = Tracked.beat s.sub

/-- Since these verdicts, all calls of `poll` have reported that the producer is gone. -/
def Tracked.SilentSince (verdicts : List Verdict) (s : Tracked) : Prop :=
  ∃ later, s.verdicts = later ++ verdicts ∧ ∀ v ∈ later, v.alive = false

-----------------------------------------------------------------------------------------
-- How old the evidence is
-----------------------------------------------------------------------------------------

/-- The last sign of life is the last progress, or older than it by the timeout. -/
def Spaced (s : Tracked) : Prop :=
  ∀ time,
    s.evidence = some time
    → time = s.sub.impl.lastProgress
      ∨ time.toNat + s.sub.impl.staleNs.toNat ≤ s.sub.impl.lastProgress.toNat

/-- Ages that pass the test of the source are below the limit. -/
theorem young_of_age {reading since limit : UInt64} (young : reading - since < limit)
    : reading.toNat < since.toNat + limit.toNat := by
  rw [UInt64.lt_iff_toNat_lt, UInt64.toNat_sub] at young
  have range := reading.toNat_lt
  omega

/-- Ages that do not pass it are not below the limit, if the reading is a later one. -/
theorem age_of_old {reading since limit : UInt64} (later : since.toNat ≤ reading.toNat)
    (old : ¬ reading - since < limit)
    : since.toNat + limit.toNat ≤ reading.toNat := by
  rw [UInt64.lt_iff_toNat_lt, UInt64.toNat_sub_of_le _ _ (UInt64.le_iff_toNat_le.mpr later)] at old
  omega

section Steps

variable {s : Tracked}

/-- Calls that move neither the timers nor the timeouts. -/
theorem Spaced.unmoved (spaced : Spaced s) {next : Subscriber} (unmoved : Unmoved s.sub next)
    : Spaced { s with sub := next } := by
  intro time known
  simp only [unmoved.lastProgress, unmoved.staleNs]
  exact spaced time known

/-- An attempt to connect is only made when the last progress is as old as the timeout. -/
theorem Spaced.polled (spaced : Spaced s) (inv : TrackedInv s) {system : Circumstances}
    {outcome : Bool × Subscriber} (polled : Polled s.sub system outcome)
    : Spaced (s.polled outcome.1 outcome.2) := by
  cases polled with
  | trusted _ refreshes | fresh _ _ refreshes | limited _ _ _ refreshes =>
      have same := refreshes.unmoved
      intro time known
      simp only [Tracked.polled, same.sessions, if_true] at known
      simp only [Tracked.polled, same.lastProgress, same.staleNs]
      exact spaced time known
  | @retried next _ _ _ slow _ _ _ onward impl =>
      have sessions : next.impl.sessions = s.sub.impl.sessions := congrArg (·.sessions) impl
      have stale : next.impl.staleNs = s.sub.impl.staleNs := congrArg (·.staleNs) impl
      have progress : next.impl.lastProgress = s.sub.clock 0 := congrArg (·.lastProgress) impl
      intro time known
      simp only [Tracked.polled, sessions, if_true] at known
      simp only [Tracked.polled, stale, progress]
      have attached : s.sub.impl.hdr.isSome = true := inv.attached (by simp [known])
      have old := age_of_old inv.timely.progress fun quick => slow ⟨attached, quick⟩
      refine Or.inr ?_
      rcases spaced time known with same | before
      · rw [same]
        exact old
      · omega
  | @reattached _ _ next _ _ _ _ _ _ _ _ onward impl =>
      have sessions : next.impl.sessions ≠ s.sub.impl.sessions := by
        have counted : next.impl.sessions = s.sub.impl.sessions + 1 :=
          congrArg (·.sessions) impl
        rw [counted]
        exact sessions_succ_ne _
      intro time known
      simp [Tracked.polled, sessions] at known

/-- Every step keeps the distance. -/
theorem Spaced.step {next : Tracked} {action : TrackedAction} (spaced : Spaced s)
    (inv : TrackedInv s) (settled : SettledTimeout s action)
    (stepped : trackedMachine.step s action = some next)
    : Spaced next := by
  obtain rfl := Option.some.inj stepped
  cases action with
  | open_ name system =>
      intro time known
      cases known
  | poll system => exact spaced.polled inv (poll_cases system s.sub)
  | vectorGate system =>
      exact (spaced.polled inv (poll_cases system s.sub)).unmoved (vectorGate_unmoved system s.sub)
  | readLatest system dst info =>
      have polled := spaced.polled inv (poll_cases system s.sub)
      have cases_ := readLatest_cases system dst info s.sub
      simp only [Tracked.step, Tracked.after]
      generalize (poll system).run s.sub = outcome at polled cases_
      generalize (readLatest system dst info).run s.sub = result at cases_
      simp only [Tracked.delivered]
      split
      · intro time known
        exact Or.inl (Option.some.inj known).symm
      · rename_i failed
        rcases cases_ with ⟨-, -, same⟩ | ⟨-, read⟩
        · rw [same]
          exact polled
        · cases read.outcome with
          | delivered ok => exact absurd ok failed
          | other _ unmoved _ _ => exact polled.unmoved unmoved
  | send request => exact spaced.unmoved (send_unmoved request s.sub)
  | receive =>
      have cases_ := receive_cases s.sub
      simp only [Tracked.step]
      generalize receive.run s.sub = result at cases_
      cases cases_ with
      | nothing refreshes => exact spaced.unmoved refreshes.unmoved
      | command =>
          intro time known
          exact Or.inl (Option.some.inj known).symm
  | setStaleTimeoutMs ms =>
      intro time known
      have none_ : s.evidence = none := settled ms rfl
      simp [Tracked.step, none_] at known
  | setMaxRead intervalNs => exact spaced
  | others world => exact spaced

-----------------------------------------------------------------------------------------
-- Exactness of the condition
-----------------------------------------------------------------------------------------

/-- Calls that leave the session alone leave the heartbeat that counts alone. -/
theorem Unmoved.heartbeat {s next : Subscriber} (unmoved : Unmoved s next)
    : Tracked.beat next = Tracked.beat s := by
  simp only [Tracked.beat, unmoved.hdr, unmoved.beat]

/-- A passed age test is a young heartbeat, at the first reading of the call too. -/
theorem Verdict.lawful_of_responsive {next : Subscriber} {later now : UInt64}
    {evidence : Option UInt64} (responsive : Responsive next later)
    (after : now.toNat ≤ later.toNat) (alive : Bool)
    : Verdict.Lawful
        { alive, now, beat := Tracked.beat next, staleNs := next.impl.staleNs, evidence } := by
  intro _
  obtain ⟨g, attached, young⟩ := responsive
  refine Or.inl ⟨_, ?_, Nat.lt_of_le_of_lt after (young_of_age young)⟩
  simp [Tracked.beat, attached]

/-- A call of `poll` reports on evidence if and only if it meets the condition. -/
theorem polled_lawful_iff (inv : TrackedInv s) (spaced : Spaced s) (lawful : s.AllLawful)
    {system : Circumstances} {outcome : Bool × Subscriber}
    (polled : Polled s.sub system outcome)
    : (s.polled outcome.1 outcome.2).AllLawful
      ↔ (s.sub.Quick → s.evidence = some s.sub.impl.lastProgress ∨ Tracked.BeatsNow s.sub) := by
  have later (index : Nat) : (s.sub.clock 0).toNat ≤ (s.sub.clock index).toNat :=
    inv.timely.monotone (Nat.zero_le _)
  have split_ : (s.polled outcome.1 outcome.2).AllLawful ↔ Verdict.Lawful _ :=
    (List.forall_mem_cons).trans (and_iff_left lawful)
  rw [split_]
  cases polled with
  | @trusted next quick refreshes =>
      have same := refreshes.unmoved
      simp only [same.sessions, if_true, same.heartbeat, same.staleNs]
      constructor
      · intro reported _
        rcases reported rfl with young | ⟨time, known, recent⟩
        · exact Or.inr young
        · rcases spaced time known with noted | before
          · exact Or.inl (noted ▸ known)
          · have progress := inv.timely.progress
            have recent : (s.sub.clock 0).toNat < time.toNat + s.sub.impl.staleNs.toNat := recent
            omega
      · intro condition _
        rcases condition quick with known | young
        · exact Or.inr ⟨_, known, young_of_age quick.2⟩
        · exact Or.inl young
  | @fresh next index slow responsive refreshes =>
      have again : Responsive next (s.sub.clock index) :=
        (refreshes.responsive_iff _).mpr responsive
      exact iff_of_true (Verdict.lawful_of_responsive again (later index) true)
        fun quick => absurd quick slow
  | limited slow => exact iff_of_true (fun alive => by cases alive) fun quick => absurd quick slow
  | @retried next alive _ index slow _ _ _ _ _ answer
  | @reattached _ _ next alive _ index slow _ _ _ _ _ _ answer =>
      refine iff_of_true (fun reported => ?_) fun quick => absurd quick slow
      exact Verdict.lawful_of_responsive (answer.mp reported) (later index) alive reported

/-- A step reports on evidence if and only if it meets the condition. -/
theorem step_lawful_iff (inv : TrackedInv s) (spaced : Spaced s) (lawful : s.AllLawful)
    {action : TrackedAction} {next : Tracked}
    (stepped : trackedMachine.step s action = some next)
    : next.AllLawful ↔ Evidenced s action := by
  obtain rfl := Option.some.inj stepped
  cases action with
  | poll system | vectorGate system =>
      exact polled_lawful_iff inv spaced lawful (poll_cases system s.sub)
  | readLatest system dst info =>
      refine Iff.trans ?_ (polled_lawful_iff inv spaced lawful (poll_cases system s.sub))
      simp only [Tracked.step, Tracked.delivered, Tracked.after]
      split <;> exact Iff.rfl
  | open_ | send | receive | setStaleTimeoutMs | setMaxRead | others =>
      exact iff_of_true lawful True.intro

-----------------------------------------------------------------------------------------
-- After a crash
-----------------------------------------------------------------------------------------

/-- What is outdated stays so, as long as it stays. -/
theorem Tracked.Outdated.carry {next : Tracked} (outdated : s.Outdated) (inv : TrackedInv s)
    (onward : Onward s.sub next.sub) (beat : Tracked.beat next.sub = Tracked.beat s.sub)
    (stale : next.sub.impl.staleNs = s.sub.impl.staleNs) (evidence : next.evidence = s.evidence)
    : next.Outdated := by
  have later := (onward.readings inv.timely.monotone).2 0
  constructor
  · rw [beat, stale]
    exact fun reading known => (outdated.beat reading known).trans later
  · rw [evidence, stale]
    exact fun time known => (outdated.evidence time known).trans later

/-- Without another session to adopt, `poll` keeps the session and its heartbeat. -/
theorem Polled.keeps {start : Subscriber} {system : Circumstances} {outcome : Bool × Subscriber}
    (polled : Polled start system outcome)
    (alone : ∀ g cl, start.candidate system = some (g, cl) → start.Reads g)
    : Onward start outcome.2
      ∧ Tracked.beat outcome.2 = Tracked.beat start
      ∧ outcome.2.impl.staleNs = start.impl.staleNs
      ∧ outcome.2.impl.sessions = start.impl.sessions := by
  cases polled with
  | trusted _ refreshes | fresh _ _ refreshes | limited _ _ _ refreshes =>
      have same := refreshes.unmoved
      exact ⟨same.toOnward, same.heartbeat, same.staleNs, same.sessions⟩
  | @retried next _ _ _ _ _ _ _ onward impl =>
      have hdr : next.impl.hdr = start.impl.hdr := congrArg (·.hdr) impl
      exact ⟨onward, by simp only [Tracked.beat, hdr, onward.beat], congrArg (·.staleNs) impl,
        congrArg (·.sessions) impl⟩
  | reattached _ _ _ found fresh => exact absurd (alone _ _ found) fresh

/-- Without evidence, `poll` reports that the producer is gone. -/
theorem Tracked.Outdated.polled (outdated : s.Outdated) (inv : TrackedInv s)
    {system : Circumstances} {outcome : Bool × Subscriber}
    (polled : Polled s.sub system outcome)
    (alone : ∀ g cl, s.sub.candidate system = some (g, cl) → s.sub.Reads g)
    (lawful : (s.polled outcome.1 outcome.2).AllLawful)
    : outcome.1 = false
      ∧ (s.polled outcome.1 outcome.2).Outdated
      ∧ (s.polled outcome.1 outcome.2).SilentSince s.verdicts := by
  obtain ⟨onward, beat, stale, sessions⟩ := polled.keeps alone
  have evidence : (s.polled outcome.1 outcome.2).evidence = s.evidence := if_pos sessions
  have gone : outcome.1 = false := by
    by_contra alive
    rw [Bool.not_eq_false] at alive
    rcases lawful _ List.mem_cons_self alive with ⟨reading, known, young⟩ | ⟨time, known, recent⟩
    · simp only [beat, stale] at known young
      exact absurd young (Nat.not_lt.mpr (outdated.beat reading known))
    · simp only [sessions, if_true, stale] at known recent
      exact absurd recent (Nat.not_lt.mpr (outdated.evidence time known))
  exact ⟨gone, outdated.carry inv onward beat stale evidence, [_], rfl, by simpa using gone⟩

/-- A step after the crash brings no evidence, and no report of a live producer. -/
theorem Tracked.Outdated.step (outdated : s.Outdated) (inv : TrackedInv s)
    {action : TrackedAction} {next : Tracked} (deserted : Deserted s action)
    (lawful : next.AllLawful) (stepped : trackedMachine.step s action = some next)
    : next.Outdated ∧ next.SilentSince s.verdicts := by
  have unmoved {sub : Subscriber} (same : Unmoved s.sub sub)
      : Tracked.Outdated { s with sub } ∧ Tracked.SilentSince s.verdicts { s with sub } :=
    ⟨outdated.carry inv same.toOnward same.heartbeat same.staleNs rfl, [], rfl, by simp⟩
  obtain rfl := Option.some.inj stepped
  cases action with
  | open_ | setStaleTimeoutMs => exact deserted.elim
  | poll system =>
      exact (outdated.polled inv (poll_cases system s.sub) deserted lawful).2
  | vectorGate system =>
      obtain ⟨-, later, silent⟩ :=
        outdated.polled inv (poll_cases system s.sub) deserted lawful
      have same := vectorGate_unmoved system s.sub
      have polled := inv.polled (poll_cases system s.sub)
      exact ⟨later.carry polled same.toOnward same.heartbeat same.staleNs rfl, silent⟩
  | readLatest system dst info =>
      have verdicts
          : (s.step (.readLatest system dst info)).verdicts
            = (s.step (.poll system)).verdicts := by
        simp only [Tracked.step, Tracked.delivered]
        split <;> rfl
      simp only [Tracked.AllLawful, verdicts] at lawful
      obtain ⟨gone, later, silent⟩ :=
        outdated.polled inv (poll_cases system s.sub) deserted lawful
      rcases readLatest_cases system dst info s.sub with ⟨-, ended, same⟩ | ⟨alive, -⟩
      · simp only [Tracked.step, Tracked.delivered, ended, reduceCtorEq, if_false, same]
        exact ⟨later, silent⟩
      · simp [gone] at alive
  | send request => exact unmoved (send_unmoved request s.sub)
  | receive =>
      have cases_ := receive_cases s.sub
      simp only [Deserted] at deserted
      simp only [Tracked.step, deserted, Option.isSome_none, Bool.false_eq_true, if_false]
      generalize receive.run s.sub = result at cases_ deserted
      cases cases_ with
      | nothing refreshes => exact unmoved refreshes.unmoved
      | command => cases deserted
  | setMaxRead intervalNs =>
      exact ⟨outdated.carry inv ⟨⟨0, rfl⟩, rfl, fun _ => rfl⟩ rfl rfl rfl, [], rfl, by simp⟩
  | others world =>
      refine ⟨⟨?_, outdated.evidence⟩, [], rfl, by simp⟩
      exact fun reading known => outdated.beat reading (deserted ▸ known)

/-- Silences follow each other. -/
theorem Tracked.SilentSince.trans {middle later : Tracked} (first : middle.SilentSince s.verdicts)
    (second : later.SilentSince middle.verdicts)
    : later.SilentSince s.verdicts := by
  obtain ⟨early, before, gone⟩ := first
  obtain ⟨late, after, silent⟩ := second
  refine ⟨late ++ early, by rw [after, before, List.append_assoc], fun v member => ?_⟩
  rcases List.mem_append.mp member with new | old
  · exact silent v new
  · exact gone v old

/-- As long as nothing replaces the crashed producer and all reports are on evidence, there
is none, by the invariant rule.
-/
theorem Tracked.Outdated.run {t : Tracked} {rest : List TrackedAction} (outdated : s.Outdated)
    (inv : TrackedInv s) (deserted : trackedMachine.Meets Deserted s rest)
    (lawful
      : trackedMachine.Meets
          (fun state action =>
            ∀ next, trackedMachine.step state action = some next → next.AllLawful)
          s rest)
    (reached : trackedMachine.run s rest = some t)
    : t.SilentSince s.verdicts := by
  have known : TrackedInv t ∧ t.Outdated ∧ t.SilentSince s.verdicts :=
    Machine.invariant_of_run _
      (fun t => TrackedInv t ∧ t.Outdated ∧ t.SilentSince s.verdicts)
      (fun _ _ next known both stepped => by
        obtain ⟨inv, outdated, silent⟩ := known
        obtain ⟨later, onward⟩ := outdated.step inv both.1 (both.2 next stepped) stepped
        exact ⟨inv.step stepped, later, silent.trans onward⟩)
      ⟨inv, outdated, [], rfl, by simp⟩ (deserted.and lawful) reached
  exact known.2.2

end Steps

/-- For every run of a subscriber with a clock that never goes back and a timeout that stays
as it is once something has been received, whatever the others do in between: all calls of
`poll`, also those inside `read_latest`, report a live producer on evidence only if and only
if every step meets the condition. Then, after the producer has crashed and the timeout has
passed, and as long as nothing replaces it, `poll` stays negative. And `read_latest` is
disconnected whenever `poll` is negative.
-/
theorem poll_evidence_iff {world : World} {clock : Nat → UInt64} (monotone : NeverBack clock)
    {schedule : List TrackedAction}
    (settled : trackedMachine.Meets SettledTimeout (.create world clock) schedule)
    : (trackedMachine.Along Tracked.AllLawful (.create world clock) schedule
        ↔ trackedMachine.Meets Evidenced (.create world clock) schedule)
      ∧ (trackedMachine.Meets Evidenced (.create world clock) schedule
          → ∀ before rest s t,
              schedule = before ++ rest
              → trackedMachine.run (.create world clock) before = some s
              → s.Outdated
              → trackedMachine.Meets Deserted s rest
              → trackedMachine.run s rest = some t
              → t.SilentSince s.verdicts)
      ∧ ∀ (system : Circumstances) (dst : Buffer) (info : LLFrameInfo) (s : Subscriber),
          ((poll system).run s).1 = false
          → ((readLatest system dst info).run s).1.result = .disconnected := by
  have exact_
      : trackedMachine.Along Tracked.AllLawful (.create world clock) schedule
        ↔ trackedMachine.Meets Evidenced (.create world clock) schedule :=
    Machine.along_iff_meets_granted SettledTimeout Evidenced
      (fun s => TrackedInv s ∧ Spaced s) Tracked.AllLawful
      (fun _ _ _ known granted stepped =>
        ⟨known.1.step stepped, known.2.step known.1 granted stepped⟩)
      (fun _ _ _ known lawful stepped => step_lawful_iff known.1 known.2 lawful stepped)
      (fun _ _ _ blocked => by cases blocked)
      ⟨.create monotone, fun _ known => by cases known⟩ (fun _ member => by cases member)
      settled
  refine ⟨exact_, fun evidenced before rest s t split_ crashed outdated deserted reached => ?_,
    fun system dst info s silent => ?_⟩
  · have inv : TrackedInv s :=
      Machine.invariant_of_reached TrackedInv (fun _ _ _ inv stepped => inv.step stepped)
        (.create monotone) crashed
    have lawful := (exact_.mpr evidenced).meets
    rw [split_, Machine.meets_append crashed] at lawful
    exact outdated.run inv deserted lawful.2 reached
  · rcases readLatest_cases system dst info s with ⟨-, gone, -⟩ | ⟨alive, -⟩
    · exact gone
    · rw [silent] at alive
      cases alive

/-- The segment of a producer that stopped at one second. -/
def crashedWorld : World where
  segments := fun _ =>
    {
      size := (computeLayout {}).totalSize
      header := { LLHeader.initialise {} 5 1000000000 with magic := kMagic }
    }
  bound := some 0

/-- A clock that shows one second three times and then five seconds. -/
def crashedClock (index : Nat) : UInt64 := if index < 3 then 1000000000 else 5000000000

/-- The segment of a producer that set its heartbeat at one second and published its frame 7;
the name leads to it, or to nothing any more.
-/
def publishedWorld (bound : Option Nat) : World where
  segments := fun _ =>
    {
      size := (computeLayout {}).totalSize
      header := {
        LLHeader.initialise {} 5 1000000000 with
        magic := kMagic
        latest := packLatest 7 1
      }
      slots := fun _ => { header := { seq := 2, info := { frameId := 7, payloadBytes := 4 } } }
    }
  bound

/-- The clock for a subscriber that opens at 1 s, reads at 1.4 s and polls at 1.7 s, 5 s and
5.6 s.
-/
def publishedClock (index : Nat) : UInt64 :=
  if index < 3 then 1000000000
  else if index < 6 then 1400000000
  else if index < 8 then 1700000000
  else if index < 11 then 5000000000
  else 5600000000

/-- That clock never goes back. -/
theorem publishedClock_neverBack : NeverBack publishedClock := by
  intro first second before
  simp only [publishedClock]
  repeat' split
  all_goals first | exact Nat.le_refl _ | decide | omega

/-- The subscriber reads the frame while the heartbeat is young, and polls while it is old and
the frame is recent. Then the producer crashes and its name is removed.
-/
def readsAndPolls : List TrackedAction :=
  [.open_ [] {}, .readLatest {} { size := 4 } {}, .poll {}, .others (publishedWorld none)]

/-- Both calls report a live producer, the first one on the evidence of the heartbeat and the
second one on that of the frame; of the two after the crash neither does.
-/
theorem poll_evidence_iff_crash
    : ∃ s t,
        trackedMachine.run (.create (publishedWorld (some 0)) publishedClock) readsAndPolls
          = some s
        ∧ s.verdicts.map (·.alive) = [true, true]
        ∧ trackedMachine.run s [.poll {}, .poll {}] = some t
        ∧ t.verdicts.map (·.alive) = [false, false, true, true]
        ∧ trackedMachine.Along Tracked.AllLawful (.create (publishedWorld (some 0)) publishedClock)
            (readsAndPolls ++ [.poll {}, .poll {}])
        ∧ t.SilentSince s.verdicts := by
  let schedule : List TrackedAction := readsAndPolls ++ [.poll {}, .poll {}]
  have evidenced
      : trackedMachine.Meets Evidenced (.create (publishedWorld (some 0)) publishedClock)
          schedule := by
    decide +kernel
  have settled
      : trackedMachine.Meets SettledTimeout (.create (publishedWorld (some 0)) publishedClock)
          schedule :=
    Machine.meets_of_forall (fun _ action (other : ∀ ms, action ≠ .setStaleTimeoutMs ms) ms set =>
      absurd set (other ms)) (by simp [schedule, readsAndPolls])
  have passes
      : (trackedMachine.run (.create (publishedWorld (some 0)) publishedClock) readsAndPolls).any
          (fun s =>
            (s.verdicts.map (·.alive) = [true, true]
              ∧ s.Outdated
              ∧ s.sub.world.bound = none)
            ∧ (trackedMachine.run s [.poll {}, .poll {}]).any
                (fun t => t.verdicts.map (·.alive) = [false, false, true, true]))
        = true := by
    decide +kernel
  obtain ⟨s, reached, tested⟩ := Machine.reaches_of_any passes
  obtain ⟨⟨reported, outdated, unbound⟩, more⟩ := of_decide_eq_true tested
  obtain ⟨t, onward, tested⟩ := Machine.reaches_of_any more
  have silent := of_decide_eq_true tested
  have nothing {state : Subscriber} (unbound : state.world.bound = none)
      : ∀ g cl, state.candidate {} = some (g, cl) → state.Reads g := by
    intro g cl found
    simp [Subscriber.candidate, unbound] at found
  have deserted : trackedMachine.Meets Deserted s [.poll {}, .poll {}] := by
    refine ⟨nothing unbound, fun next stepped => ⟨nothing ?_, fun _ _ => trivial⟩⟩
    obtain rfl := Option.some.inj stepped
    exact ((poll_cases {} s.sub).keeps (nothing unbound)).1.bound.trans unbound
  obtain ⟨exact_, crash, -⟩ := poll_evidence_iff publishedClock_neverBack settled
  exact ⟨s, t, reached, reported, onward, silent, exact_.mpr evidenced,
    crash evidenced readsAndPolls [.poll {}, .poll {}] s t rfl reached outdated deserted onward⟩

/-- The first `poll` after the crash finds the producer gone and notes the time of its attempt
as progress; the next one trusts that, and reports a live producer.
-/
theorem poll_withoutEvidence
    : ∃ s,
        trackedMachine.run (.create crashedWorld crashedClock)
            [.open_ [] {}, .poll {}, .poll {}]
          = some s
        ∧ s.verdicts.map (·.alive) = [true, false]
        ∧ ¬ s.AllLawful := by
  have passes
      : (trackedMachine.run (.create crashedWorld crashedClock)
            [.open_ [] {}, .poll {}, .poll {}]).any
          (fun s => s.verdicts.map (·.alive) = [true, false] ∧ ¬ ∀ v ∈ s.verdicts, v.Lawful)
        = true := by
    decide +kernel
  obtain ⟨s, reached, tested⟩ := Machine.reaches_of_any passes
  rw [decide_eq_true_eq] at tested
  exact ⟨s, reached, tested⟩

end ShmFrame.Calls
