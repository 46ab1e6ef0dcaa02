import ShmFrame.Commands.Ownership
import ShmFrame.Names.SystemCalls

/-! How others judge a producer by its heartbeat, one access or clock reading at a time:
`producer_responsive` and the reclaim test of `create`. The age is the unsigned difference
of two separate reads, so what the producer stores between them, and how far they are
apart, decides whether it says anything about the heartbeat.
-/

namespace ShmFrame.Names

open ShmFrame.Foundation
open ShmFrame.Commands (AgeReading)

-----------------------------------------------------------------------------------------
-- The machine
-----------------------------------------------------------------------------------------

/-- The calls of a producer that store a heartbeat. -/
inductive BeatCall
  | create
  | commit
  | heartbeat
deriving DecidableEq

/-- Where a producer stands. `filled` and `beaten` are inside `create`: the header lacks its
heartbeat and its magic, or only its magic. `sampled` carries the reading of the clock that
is about to be stored.
-/
inductive ProducerPhase
  | absent
  | filled
  | sampled (call : BeatCall) (now : UInt64)
  | beaten
  | idle
  | gone
deriving DecidableEq

/-- What the age is evaluated for: by a subscriber with its `stale_ns`, or by a `create` with
its own configuration.
-/
inductive Question
  | responsive (staleNs : UInt64)
  | reclaim (cfg : LLConfig)

/-- The age from which on a producer counts as dead. -/
def Question.limit : Question → UInt64
  | .responsive staleNs => staleNs
  | .reclaim cfg => LLConfig.staleNs cfg

/-- Whether `producer_responsive` returns true, or `create` does not reclaim. -/
def Question.spares (shut : Bool) (age : UInt64) : Question → Bool
  | .responsive staleNs => age < staleNs
  | .reclaim cfg => !(shut || age ≥ LLConfig.staleNs cfg)

/-- An evaluation of the age; `shut` is the shutdown flag that a `create` has loaded. History
variable: the heartbeat has been younger than the limit at every moment since the first read.
-/
structure Evaluation where
  question : Question
  shut : Bool := false
  reading : AgeReading := .unread
  fresh : Bool := false

/-- Where another process stands. `flag` is a `create` that has validated the header. -/
inductive WatchPhase
  | idle
  | flag (cfg : LLConfig)
  | age (evaluation : Evaluation)

/-- An evaluation that is over, and what it said. -/
structure Verdict where
  evaluation : Evaluation
  spared : Bool

/-- A producer that did not go cleanly and whose heartbeat was fresh throughout is spared. -/
def Verdict.Lawful (verdict : Verdict) : Prop :=
  verdict.evaluation.fresh = true
  → verdict.evaluation.shut = false
  → verdict.spared = true

instance Verdict.decidableLawful (verdict : Verdict) : Decidable verdict.Lawful :=
  inferInstanceAs (Decidable (_ → _ → _))

/-- One producer with its segment, the clock and any number of other processes. History
variable: all verdicts so far.
-/
structure Watched where
  cfg : LLConfig
  size : UInt64
  header : LLHeader := {}
  clock : UInt64
  producer : ProducerPhase := .absent
  watchers : Nat → WatchPhase := fun _ => .idle
  verdicts : List Verdict := []

/-- What can happen next. `beatFirst` is the order in which the two operands of the
difference are evaluated, which the source leaves open.
-/
inductive WatchAction
  | advance (now : UInt64)
  | fill (session : UInt64)
  | sample (call : BeatCall)
  | store
  | storeMagic
  | shutDown
  | ask (who : Nat) (question : Question)
  | loadFlag (who : Nat)
  | read (who : Nat) (beatFirst : Bool)

/-- What follows the store of a heartbeat. -/
def BeatCall.next : BeatCall → ProducerPhase
  | .create => .beaten
  | .commit | .heartbeat => .idle

/-- Where a call that stores a heartbeat samples the clock. -/
def BeatCall.starts : BeatCall → ProducerPhase
  | .create => .filled
  | .commit | .heartbeat => .idle

/-- The next read of `now_ns() - last_heartbeat_ns`; the second one yields the age. -/
def readAge (clock beat : UInt64) (beatFirst : Bool) : AgeReading → AgeReading ⊕ UInt64
  | .unread => .inl (if beatFirst then .beat beat else .clock clock)
  | .clock now => .inr (now - beat)
  | .beat value => .inr (clock - value)

namespace Watched

/-- A new segment, before its producer stores anything. -/
def create (cfg : LLConfig) (clock : UInt64) : Watched where
  cfg := cfg
  size := (computeLayout cfg).totalSize
  clock := clock

/-- The heartbeat is younger than a limit now. -/
def Fresh (s : Watched) (limit : UInt64) : Prop :=
  s.clock.toNat < s.header.lastHeartbeatNs.toNat + limit.toNat

instance (s : Watched) (limit : UInt64) : Decidable (s.Fresh limit) :=
  inferInstanceAs (Decidable (_ < _))

/-- An evaluation under way takes note of the present moment. -/
def observe (s : Watched) : WatchPhase → WatchPhase
  | .age e => .age { e with fresh := e.fresh && s.Fresh e.question.limit }
  | phase => phase

def setWatcher (s : Watched) (who : Nat) (phase : WatchPhase) : Watched :=
  { s with watchers := assign s.watchers who phase }

/-- The next read of an evaluation. -/
def readBy (s : Watched) (who : Nat) (beatFirst : Bool) (e : Evaluation) : Watched :=
  match readAge s.clock s.header.lastHeartbeatNs beatFirst e.reading with
  | .inl reading =>
      s.setWatcher who (.age { e with reading, fresh := s.Fresh e.question.limit })
  | .inr age =>
      {
        s.setWatcher who .idle with
        verdicts := { evaluation := e, spared := e.question.spares e.shut age } :: s.verdicts
      }

/-- The effect of an action; the clock never goes back. An evaluation begins with a header
that validates: a subscriber has attached to it, a `create` has just checked it.
-/
def move (s : Watched) (action : WatchAction) : Option Watched :=
  match action with
  | .advance now => if s.clock ≤ now then some { s with clock := now } else none
  | .fill session =>
      if s.cfg.accepted ∧ s.producer = .absent then
        some { s with header := LLHeader.initialise s.cfg session 0, producer := .filled }
      else none
  | .sample call =>
      if s.producer = call.starts then some { s with producer := .sampled call s.clock }
      else none
  | .store =>
      match s.producer with
      | .sampled call now =>
          let header := { s.header with lastHeartbeatNs := now }
          some { s with header, producer := call.next }
      | _ => none
  | .storeMagic =>
      if s.producer = .beaten then
        some { s with header := { s.header with magic := kMagic }, producer := .idle }
      else none
  | .shutDown =>
      if s.producer = .idle then
        some { s with header := { s.header with shutdown := 1 }, producer := .gone }
      else none
  | .ask who question =>
      match s.watchers who, validateHeader s.size s.header with
      | .idle, some _ =>
          match question with
          | .responsive _ => some (s.setWatcher who (.age { question }))
          | .reclaim cfg => some (s.setWatcher who (.flag cfg))
      | _, _ => none
  | .loadFlag who =>
      match s.watchers who with
      | .flag cfg =>
          let shut := s.header.shutdown ≠ 0
          some (s.setWatcher who (.age { question := .reclaim cfg, shut }))
      | _ => none
  | .read who beatFirst =>
      match s.watchers who with
      | .age e => some (s.readBy who beatFirst e)
      | _ => none

/-- One step; every evaluation under way takes note of the moment it leads to. -/
def step (s : Watched) (action : WatchAction) : Option Watched :=
  (s.move action).map fun next =>
    { next with watchers := fun who => next.observe (next.watchers who) }

end Watched

/-- The producer, the clock and the other processes, interleaved in any order. -/
def watchMachine : Machine Watched WatchAction where
  step := Watched.step

/-- Read one after the other, the two operands give the reclaim test of an uninterrupted
`create`.
-/
theorem abandoned_eq_spares (cfg : LLConfig) (now : UInt64) (object : SharedObject)
    (valid : (validateHeader object.size object.header).isSome)
    : abandoned cfg now object
      = !(Question.reclaim cfg).spares (object.header.shutdown ≠ 0)
          (now - object.header.lastHeartbeatNs) := by
  obtain ⟨layout, validated⟩ := Option.isSome_iff_exists.mp valid
  simp [abandoned, validated, Question.spares]

-----------------------------------------------------------------------------------------
-- When an age is what it seems
-----------------------------------------------------------------------------------------

/-- The two reads belong together. With the clock read first, the heartbeat has not been
stored anew with a later reading (or so much later that the unsigned difference comes round
again); with the heartbeat read first, the value read is itself still younger than the limit.
-/
def Watched.Coherent (s : Watched) (limit : UInt64) : AgeReading → Prop
  | .unread => True
  | .clock now =>
      s.header.lastHeartbeatNs ≤ now
      ∨ 2 ^ 64 + now.toNat < s.header.lastHeartbeatNs.toNat + limit.toNat
  | .beat value => s.clock.toNat < value.toNat + limit.toNat

/-- An evaluation that is about to end, of a heartbeat that has been fresh so far, ends with
two reads that belong together.
-/
def ReadsTogether (s : Watched) : WatchAction → Prop
  | .read who _ =>
      match s.watchers who with
      | .age e => e.fresh = true → e.shut = false → s.Coherent e.question.limit e.reading
      | _ => True
  | _ => True

/-- Every verdict so far is lawful. -/
def Watched.Lawful (s : Watched) : Prop := ∀ verdict ∈ s.verdicts, verdict.Lawful

instance Watched.decidableLawful (s : Watched) : Decidable s.Lawful :=
  inferInstanceAs (Decidable (∀ verdict ∈ s.verdicts, verdict.Lawful))

instance (s : Watched) (limit : UInt64) : DecidablePred (s.Coherent limit)
  | .unread => isTrue trivial
  | .clock _ => inferInstanceAs (Decidable (_ ∨ _))
  | .beat _ => inferInstanceAs (Decidable (_ < _))

instance (s : Watched) : DecidablePred (ReadsTogether s)
  | .read who _ =>
      match phase : s.watchers who with
      | .age e =>
          decidable_of_iff
            (e.fresh = true → e.shut = false → s.Coherent e.question.limit e.reading)
            (by simp only [ReadsTogether, phase])
      | .idle | .flag _ => isTrue (by simp only [ReadsTogether, phase])
  | .advance _ | .fill _ | .sample _ | .store | .storeMagic | .shutDown | .ask ..
  | .loadFlag _ => isTrue trivial

/-- What is known of an evaluation: what it has read is not from the future, and where it has
found the heartbeat fresh so far it still is.
-/
structure Evaluation.Known (s : Watched) (e : Evaluation) : Prop where
  clock : ∀ now, e.reading = .clock now → now.toNat ≤ s.clock.toNat
  beat : ∀ value, e.reading = .beat value → value.toNat ≤ s.clock.toNat
  fresh : e.reading ≠ .unread → e.fresh = true → s.Fresh e.question.limit

/-- Every heartbeat is a reading of the clock, and so is what evaluations have read. -/
structure WatchedInv (s : Watched) : Prop where
  beat : s.header.lastHeartbeatNs.toNat ≤ s.clock.toNat
  sampled : ∀ call now, s.producer = .sampled call now → now.toNat ≤ s.clock.toNat
  known : ∀ who e, s.watchers who = .age e → e.Known s

/-- A new segment has a zero heartbeat and nobody evaluates it. -/
theorem WatchedInv.create (cfg : LLConfig) (clock : UInt64)
    : WatchedInv (Watched.create cfg clock) where
  beat := Nat.zero_le _
  sampled := fun call now phase => by simp [Watched.create] at phase
  known := fun who e phase => by simp [Watched.create] at phase

-----------------------------------------------------------------------------------------
-- What one step can do
-----------------------------------------------------------------------------------------

/-- A step of the clock or of the producer: the clock does not go back, and the heartbeat and
the reading to be stored next are those of before or readings of the clock.
-/
structure WorldMove (s next : Watched) : Prop where
  clock : s.clock.toNat ≤ next.clock.toNat
  beat
    : next.header.lastHeartbeatNs = s.header.lastHeartbeatNs
      ∨ next.header.lastHeartbeatNs = 0
      ∨ ∃ call, s.producer = .sampled call next.header.lastHeartbeatNs
  sampled
    : ∀ call now,
        next.producer = .sampled call now → s.producer = .sampled call now ∨ now = s.clock
  watchers : next.watchers = s.watchers
  verdicts : next.verdicts = s.verdicts

/-- Everything one action can do before evaluations take note of it. -/
inductive WatchMove (s : Watched) : WatchAction → Watched → Prop
  | world {action next} (quiet : ∀ who beatFirst, action ≠ .read who beatFirst)
    (moved : WorldMove s next)
    : WatchMove s action next
  | prepare {action} (quiet : ∀ who beatFirst, action ≠ .read who beatFirst) (who : Nat)
    (phase : WatchPhase)
    (unread : ∀ e, phase = .age e → e.reading = .unread)
    : WatchMove s action (s.setWatcher who phase)
  | read {who beatFirst e} (phase : s.watchers who = .age e)
    : WatchMove s (.read who beatFirst) (s.readBy who beatFirst e)

/-- An action is one of the listed moves, by cases on the action. -/
theorem Watched.move_cases {s next : Watched} {action : WatchAction}
    (moved : s.move action = some next)
    : WatchMove s action next := by
  have still := Nat.le_refl s.clock.toNat
  cases action with
  | advance now =>
      simp only [move] at moved
      split at moved <;> cases moved
      rename_i later
      exact .world (by simp)
        ⟨UInt64.le_iff_toNat_le.mp later, .inl rfl, fun _ _ => .inl, rfl, rfl⟩
  | fill session =>
      simp only [move] at moved
      split at moved <;> cases moved
      exact .world (by simp)
        ⟨still, .inr (.inl rfl), fun _ _ phase => by simp at phase, rfl, rfl⟩
  | sample call =>
      simp only [move] at moved
      split at moved <;> cases moved
      refine .world (by simp) ⟨still, .inl rfl, fun other now phase => ?_, rfl, rfl⟩
      injection phase with _ sampled
      exact .inr sampled.symm
  | store =>
      simp only [move] at moved
      split at moved <;> cases moved
      rename_i call now phase
      refine .world (by simp)
        ⟨still, .inr (.inr ⟨call, phase⟩), fun other later next => ?_, rfl, rfl⟩
      cases call <;> simp [BeatCall.next] at next
  | storeMagic =>
      simp only [move] at moved
      split at moved <;> cases moved
      exact .world (by simp) ⟨still, .inl rfl, fun _ _ phase => by simp at phase, rfl, rfl⟩
  | shutDown =>
      simp only [move] at moved
      split at moved <;> cases moved
      exact .world (by simp) ⟨still, .inl rfl, fun _ _ phase => by simp at phase, rfl, rfl⟩
  | ask who question =>
      simp only [move] at moved
      split at moved
      · split at moved <;> cases moved
        · exact .prepare (by simp) who _ fun e started => by
            injection started with started
            rw [← started]
        · exact .prepare (by simp) who _ fun e started => by simp at started
      · cases moved
  | loadFlag who =>
      simp only [move] at moved
      split at moved <;> cases moved
      exact .prepare (by simp) who _ fun e started => by
        injection started with started
        rw [← started]
  | read who beatFirst =>
      simp only [move] at moved
      split at moved <;> cases moved
      exact .read (by assumption)

/-- What is known of an evaluation survives what others do, once it has taken note of it. -/
theorem Evaluation.Known.observe {s next : Watched} {e : Evaluation} (known : e.Known s)
    (later : s.clock.toNat ≤ next.clock.toNat)
    : Evaluation.Known next { e with fresh := e.fresh && next.Fresh e.question.limit } where
  clock := fun now reading => (known.clock now reading).trans later
  beat := fun value reading => (known.beat value reading).trans later
  fresh := fun _ fresh => by
    simp only [Bool.and_eq_true, decide_eq_true_eq] at fresh
    exact fresh.2

/-- An evaluation that has read nothing yet. -/
theorem Evaluation.Known.unread {s : Watched} {e : Evaluation} (unread : e.reading = .unread)
    : e.Known s where
  clock := fun now reading => by simp [unread] at reading
  beat := fun value reading => by simp [unread] at reading
  fresh := fun read => absurd unread read

/-- After its first read an evaluation knows what it has read. -/
theorem Evaluation.Known.first {s : Watched} {e : Evaluation} {beatFirst : Bool}
    {reading : AgeReading} (past : s.header.lastHeartbeatNs.toNat ≤ s.clock.toNat)
    (reads : readAge s.clock s.header.lastHeartbeatNs beatFirst e.reading = .inl reading)
    : Evaluation.Known s { e with reading, fresh := s.Fresh e.question.limit } := by
  have fresh (_ : reading ≠ .unread) (fresh : decide (s.Fresh e.question.limit) = true)
      : s.Fresh e.question.limit :=
    of_decide_eq_true fresh
  cases before : e.reading with
  | clock now => simp [before, readAge] at reads
  | beat value => simp [before, readAge] at reads
  | unread =>
      rw [before] at reads
      obtain rfl := Sum.inl.inj reads
      refine ⟨fun now read => ?_, fun value read => ?_, fresh⟩
      · cases beatFirst
        · obtain rfl := AgeReading.clock.inj read
          exact Nat.le_refl _
        · cases read
      · cases beatFirst
        · cases read
        · obtain rfl := AgeReading.beat.inj read
          exact past

/-- What holds of the evaluations under way holds of them after they have taken note of the
present moment.
-/
theorem WatchedInv.observe {s : Watched} (inv : WatchedInv s)
    : WatchedInv { s with watchers := fun who => s.observe (s.watchers who) } where
  beat := inv.beat
  sampled := inv.sampled
  known := fun who e phase => by
    dsimp only at phase
    cases before : s.watchers who with
    | idle => simp [before, Watched.observe] at phase
    | flag cfg => simp [before, Watched.observe] at phase
    | age evaluation =>
        rw [before] at phase
        obtain rfl := WatchPhase.age.inj phase
        have known := (inv.known who evaluation before).observe (Nat.le_refl _)
        exact ⟨known.clock, known.beat, known.fresh⟩

/-- The clock and the producer leave what is known of evaluations as it is, but for what they
note of the present moment.
-/
theorem WatchedInv.world {s next : Watched} (inv : WatchedInv s) (moved : WorldMove s next)
    : WatchedInv { next with watchers := fun who => next.observe (next.watchers who) } where
  beat := by
    have past := inv.beat
    have later := moved.clock
    change next.header.lastHeartbeatNs.toNat ≤ next.clock.toNat
    rcases moved.beat with same | zero | ⟨call, sampled⟩
    · rw [same]
      omega
    · rw [zero]
      exact Nat.zero_le _
    · exact (inv.sampled call _ sampled).trans later
  sampled := fun call now phase => by
    rcases moved.sampled call now phase with before | rfl
    · exact (inv.sampled call now before).trans moved.clock
    · exact moved.clock
  known := fun who e phase => by
    dsimp only at phase
    rw [moved.watchers] at phase
    cases before : s.watchers who with
    | idle => simp [before, Watched.observe] at phase
    | flag cfg => simp [before, Watched.observe] at phase
    | age evaluation =>
        rw [before] at phase
        obtain rfl := WatchPhase.age.inj phase
        have known := (inv.known who evaluation before).observe moved.clock
        exact ⟨known.clock, known.beat, known.fresh⟩

/-- A process that goes somewhere it knows what it has read keeps the invariant. -/
theorem WatchedInv.setWatcher {s : Watched} (inv : WatchedInv s) (who : Nat)
    {phase : WatchPhase} (known : ∀ e, phase = .age e → e.Known s)
    : WatchedInv (s.setWatcher who phase) where
  beat := inv.beat
  sampled := inv.sampled
  known := @forall_assign _ _ _ s.watchers who phase
    (fun _ phase => ∀ e, phase = .age e → e.Known (s.setWatcher who _))
    (fun e reached => ⟨(known e reached).clock, (known e reached).beat, (known e reached).fresh⟩)
    fun other _ e reached =>
      have known := inv.known other e reached
      ⟨known.clock, known.beat, known.fresh⟩

/-- Every step keeps the invariant. -/
theorem WatchedInv.step {s next : Watched} {action : WatchAction} (inv : WatchedInv s)
    (stepped : s.step action = some next)
    : WatchedInv next := by
  obtain ⟨moved, moveEq, rfl⟩ := Option.map_eq_some_iff.mp stepped
  cases Watched.move_cases moveEq with
  | world quiet moved => exact inv.world moved
  | prepare quiet who phase unread =>
      exact (inv.setWatcher who fun e reached => .unread (unread e reached)).observe
  | @read who beatFirst e phase =>
      refine WatchedInv.observe ?_
      unfold Watched.readBy
      split
      · rename_i reading reads
        refine inv.setWatcher who fun other reached => ?_
        obtain rfl := WatchPhase.age.inj reached
        exact .first inv.beat reads
      · have left : WatchedInv (s.setWatcher who .idle) :=
          inv.setWatcher who fun e reached => by cases reached
        refine ⟨left.beat, left.sampled, fun other evaluation reached => ?_⟩
        have known := left.known other evaluation reached
        exact ⟨known.clock, known.beat, known.fresh⟩

/-- From where an evaluation has found the heartbeat fresh, its second read spares the
producer exactly if the two reads belong together.
-/
theorem Evaluation.Known.spares_iff {s : Watched} {e : Evaluation} {beatFirst : Bool}
    {age : UInt64} (known : e.Known s)
    (past : s.header.lastHeartbeatNs.toNat ≤ s.clock.toNat)
    (reads : readAge s.clock s.header.lastHeartbeatNs beatFirst e.reading = .inr age)
    (fresh : e.fresh = true)
    : age.toNat < e.question.limit.toNat ↔ s.Coherent e.question.limit e.reading := by
  cases reading : e.reading with
  | unread => simp [reading, readAge] at reads
  | clock now =>
      have young : s.clock.toNat < _ := known.fresh (by simp [reading]) fresh
      have sampled := known.clock now reading
      rw [reading] at reads
      obtain rfl := Sum.inr.inj reads
      have range := s.header.lastHeartbeatNs.toNat_lt
      have nowRange := now.toNat_lt
      rw [Watched.Coherent, UInt64.le_iff_toNat_le, UInt64.toNat_sub]
      omega
  | beat value =>
      have loaded := known.beat value reading
      rw [reading] at reads
      obtain rfl := Sum.inr.inj reads
      have range := s.clock.toNat_lt
      rw [Watched.Coherent, UInt64.toNat_sub]
      omega

/-- With the shutdown flag clear, a question spares exactly the ages below its limit. -/
theorem Question.spares_iff (question : Question) (age : UInt64)
    : question.spares false age = true ↔ age.toNat < question.limit.toNat := by
  cases question with
  | responsive staleNs => simp [Question.spares, Question.limit, UInt64.lt_iff_toNat_lt]
  | reclaim cfg => simp [Question.spares, Question.limit, UInt64.lt_iff_toNat_lt]

/-- From lawful verdicts, an action leads to lawful verdicts exactly if its reads belong
together.
-/
theorem WatchedInv.lawful_iff {s next : Watched} {action : WatchAction} (inv : WatchedInv s)
    (lawful : s.Lawful) (stepped : s.step action = some next)
    : next.Lawful ↔ ReadsTogether s action := by
  obtain ⟨moved, moveEq, rfl⟩ := Option.map_eq_some_iff.mp stepped
  have silent {action : WatchAction} (quiet : ∀ who beatFirst, action ≠ .read who beatFirst)
      : ReadsTogether s action := by
    cases action with
    | read who beatFirst => exact absurd rfl (quiet who beatFirst)
    | _ => trivial
  cases Watched.move_cases moveEq with
  | world quiet moved =>
      refine iff_of_true (fun verdict member => lawful verdict ?_) (silent quiet)
      rw [← moved.verdicts]
      exact member
  | prepare quiet who phase unread => exact iff_of_true lawful (silent quiet)
  | @read who beatFirst e phase =>
      have known := inv.known who e phase
      have guard
          : ReadsTogether s (.read who beatFirst)
            ↔ (e.fresh = true → e.shut = false → s.Coherent e.question.limit e.reading) := by
        simp only [ReadsTogether, phase]
      rw [guard]
      unfold Watched.readBy
      split
      · rename_i reading reads
        refine iff_of_true lawful fun fresh open_ => ?_
        cases before : e.reading with
        | unread => trivial
        | clock now => simp [before, readAge] at reads
        | beat value => simp [before, readAge] at reads
      · rename_i age reads
        have added
            : (∀ verdict ∈
                  ({ evaluation := e, spared := e.question.spares e.shut age } : Verdict)
                    :: s.verdicts,
                verdict.Lawful)
              ↔ (e.fresh = true → e.shut = false → e.question.spares e.shut age = true) := by
          rw [List.forall_mem_cons]
          exact and_iff_left lawful
        refine added.trans (forall_congr' fun fresh => forall_congr' fun clear => ?_)
        rw [clear, Question.spares_iff]
        exact known.spares_iff inv.beat reads fresh

-----------------------------------------------------------------------------------------
-- Whole runs
-----------------------------------------------------------------------------------------

/-- A process can always go on reading. -/
theorem readsTogether_of_blocked {s : Watched} {action : WatchAction}
    (blocked : s.step action = none)
    : ReadsTogether s action := by
  cases action with
  | read who beatFirst =>
      have stuck : s.move (.read who beatFirst) = none := Option.map_eq_none_iff.mp blocked
      simp only [Watched.move] at stuck
      cases phase : s.watchers who with
      | age e => simp [phase] at stuck
      | _ => simp only [ReadsTogether, phase]
  | _ => trivial

/-- In every run, no producer whose heartbeat is fresh throughout an evaluation of its age,
and whose shutdown flag was clear, is judged dead, if and only if the two reads of every such
evaluation belong together.
-/
theorem freshProducer_spared_iff (cfg : LLConfig) (clock : UInt64)
    (schedule : List WatchAction)
    : watchMachine.Along Watched.Lawful (Watched.create cfg clock) schedule
      ↔ watchMachine.Meets ReadsTogether (Watched.create cfg clock) schedule :=
  Machine.along_iff_meets ReadsTogether WatchedInv Watched.Lawful
    (fun _ _ _ inv stepped => inv.step stepped)
    (fun _ _ _ inv lawful stepped => inv.lawful_iff lawful stepped)
    (fun _ _ _ blocked => readsTogether_of_blocked blocked)
    (.create cfg clock) (fun verdict member => by simp [Watched.create] at member)

/-- A producer starts and stores its first heartbeat. A subscriber and a `create` sample the
clock, the producer stores its next heartbeat a nanosecond later, and both load that one.
-/
def overtakenSamples : List WatchAction :=
  [.fill 77, .sample .create, .store, .storeMagic]
  ++ [.ask 0 (.responsive 500000000), .read 0 false]
  ++ [.ask 1 (.reclaim {}), .loadFlag 1, .read 1 false]
  ++ [.advance 9000000001, .sample .heartbeat, .store, .read 0 false, .read 1 false]

/-- Both ages come round to the largest value: the subscriber reports a dead producer, and
`create` reclaims a segment whose producer has stored its heartbeat at this very moment.
-/
theorem freshProducer_judgedDead
    : ∃ s,
        watchMachine.run (Watched.create {} 9000000000) overtakenSamples = some s
        ∧ s.header.lastHeartbeatNs = s.clock
        ∧ s.verdicts.map (·.evaluation.fresh) = [true, true]
        ∧ s.verdicts.map (·.spared) = [false, false]
        ∧ ¬ s.Lawful := by
  have passes
      : (watchMachine.run (Watched.create {} 9000000000) overtakenSamples).any
          (fun s => s.header.lastHeartbeatNs = s.clock
            ∧ s.verdicts.map (·.evaluation.fresh) = [true, true]
            ∧ s.verdicts.map (·.spared) = [false, false]
            ∧ ¬ s.Lawful)
        = true := by
    decide +kernel
  obtain ⟨s, reached, tested⟩ := Machine.reaches_of_any passes
  rw [decide_eq_true_eq] at tested
  exact ⟨s, reached, tested⟩

end ShmFrame.Names
