import ShmFrame.Foundation.Party
import ShmFrame.Foundation.Run
import ShmFrame.Segment.Endpoints

/-! Ownership of the command channel, one shared-memory access or clock reading at a time:
the claim loop of `try_connect`, the refresh in `still_owns_commands`, the release in the
destructor and the publisher's `command_owner_stale`.
-/

namespace ShmFrame.Commands

open ShmFrame.Foundation

/-- A moment of a run, as far as the age of the claim is concerned: the clock, the number
of claims installed so far, and when the last of them was installed or refreshed by the
subscriber that installed it.
-/
structure Moment where
  clock : UInt64
  claims : Nat
  lastAct : UInt64

/-- The two owner words of the header and the shared clock. History variables: the number
of claims installed so far, when the owner of the last one last acted, the claim under which
the heartbeat word was stored and when, and all moments so far, newest first.
-/
structure OwnerWords where
  gen : UInt64 := 0
  beat : UInt64 := 0
  clock : UInt64
  claims : Nat := 0
  lastAct : UInt64 := 0
  beatClaim : Nat := 0
  beatAt : UInt64 := 0
  moments : List Moment := []

/-- The present moment. -/
def OwnerWords.moment (words : OwnerWords) : Moment :=
  { clock := words.clock, claims := words.claims, lastAct := words.lastAct }

/-- Remembers the present moment. -/
def OwnerWords.record (words : OwnerWords) : OwnerWords :=
  { words with moments := words.moment :: words.moments }

/-- What a heartbeat is refreshed for: right after the claim, or as part of a call. -/
inductive Purpose
  | attach
  | poll
  | send
  | receive
deriving DecidableEq

/-- An age evaluation `now_ns() - heartbeat`: nothing read yet, the clock read, or the
heartbeat word read. The source leaves the order open.
-/
inductive AgeReading
  | unread
  | clock (now : UInt64)
  | beat (value : UInt64)
deriving DecidableEq

/-- The next read of an age evaluation; the second one yields the age. -/
def AgeReading.read (words : OwnerWords) (beatFirst : Bool)
    : AgeReading → AgeReading ⊕ UInt64
  | .unread => .inl (if beatFirst then .beat words.beat else .clock words.clock)
  | .clock now => .inr (now - words.beat)
  | .beat value => .inr (words.clock - value)

/-- History variables of one judge: how many moments there were when its age evaluation
started, the moments of the evaluation, and the last claim installed when it ended.
-/
structure Judgement where
  since : Nat := 0
  evaluated : List Moment := []
  claim : Nat := 0

/-- The evaluation starts at the present moment. -/
def Judgement.start (judgement : Judgement) (words : OwnerWords) : Judgement :=
  { judgement with since := words.moments.length }

/-- The moments since the evaluation started, that one included. -/
def Judgement.window (judgement : Judgement) (words : OwnerWords) : List Moment :=
  words.moments.take (words.moments.length + 1 - judgement.since)

/-- The evaluation ends at the present moment. -/
def Judgement.finish (judgement : Judgement) (words : OwnerWords) : Judgement :=
  { judgement with evaluated := judgement.window words, claim := words.claims }

/-- Where a subscriber stands with respect to the owner words. `inside` is the part of
`send` or `receive` after the ownership check.
-/
inductive ClaimPhase
  | detached
  | loadGen
  | age (existing : UInt64) (reading : AgeReading)
  | sampleClaim (existing : UInt64)
  | exchange (existing claim : UInt64)
  | sampleBeat (purpose : Purpose)
  | storeBeat (purpose : Purpose) (value : UInt64)
  | ready
  | checkGen (purpose : Purpose)
  | inside (purpose : Purpose)
  | release
  | gone
deriving DecidableEq

/-- What follows a refresh. -/
def Purpose.next : Purpose → ClaimPhase
  | .attach | .poll => .ready
  | .send => .inside .send
  | .receive => .inside .receive

/-- A subscriber. History variables: the number of the claim it installed, its latest age
evaluation, and the number of the nonzero claim it replaced.
-/
structure Claimant where
  impl : LLSubscriber.Impl := {}
  phase : ClaimPhase := .detached
  claim : Nat := 0
  judgement : Judgement := {}
  replaced : Option Nat := none

namespace Claimant

/-- The top of the claim loop: an existing claim is judged first. -/
def loopTop (c : Claimant) (existing : UInt64) : Claimant :=
  { c with phase := if existing ≠ 0 then .age existing .unread else .sampleClaim existing }

/-- The next access or clock reading. `choice` is the order of an age evaluation and, at
the exchange, a spurious failure of `compare_exchange_weak`.
-/
def access (words : OwnerWords) (c : Claimant) (choice : Bool)
    : Option (OwnerWords × Claimant) :=
  match c.phase with
  | .detached | .ready | .inside _ | .gone => none
  | .loadGen => some (words, c.loopTop words.gen)
  | .age existing reading =>
      match reading.read words choice with
      | .inl next =>
          some (words,
            { c with phase := .age existing next, judgement := c.judgement.start words })
      | .inr age =>
          let judged := { c with judgement := c.judgement.finish words }
          if age < kCommandOwnerStaleNs then some (words, { judged with phase := .ready })
          else some (words, { judged with phase := .sampleClaim existing })
  | .sampleClaim existing =>
      let claim := if words.clock = 0 then 1 else words.clock
      some (words, { c with phase := .exchange existing claim })
  | .exchange existing claim =>
      if words.gen = existing && !choice then
        some (
          {
            words with
            gen := claim
            claims := words.claims + 1
            lastAct := words.clock
          },
          {
            c with
            impl := { c.impl with ownsCommands := true, ownerGen := claim }
            phase := .sampleBeat .attach
            claim := words.claims + 1
            replaced := if existing ≠ 0 then some words.claims else c.replaced
          })
      else some (words, c.loopTop words.gen)
  | .sampleBeat purpose => some (words, { c with phase := .storeBeat purpose words.clock })
  | .storeBeat purpose value =>
      some (
        {
          words with
          beat := value
          beatClaim := c.claim
          beatAt := words.clock
          lastAct := if c.claim = words.claims then words.clock else words.lastAct
        },
        { c with phase := purpose.next })
  | .checkGen purpose =>
      if words.gen ≠ c.impl.ownerGen then
        some (words,
          { c with impl := { c.impl with ownsCommands := false }, phase := .ready })
      else some (words, { c with phase := .sampleBeat purpose })
  | .release =>
      some ({ words with gen := if words.gen = c.impl.ownerGen then 0 else words.gen },
        { c with phase := .gone })

/-- `try_connect` adopts the session and enters the claim loop. -/
def attach (c : Claimant) (cfg : LLConfig) (session : UInt64) : Option Claimant :=
  match c.phase with
  | .detached =>
      some {
        c with
        impl := c.impl.adopt 0 cfg (computeLayout cfg) session
        phase := .loadGen
      }
  | _ => none

/-- Entering `poll`, `send` or `receive`: `still_owns_commands` looks at the header only
while `owns_commands` is set.
-/
def call (c : Claimant) (purpose : Purpose) : Option Claimant :=
  match c.phase with
  | .ready => some (if c.impl.ownsCommands then { c with phase := .checkGen purpose } else c)
  | _ => none

/-- `send` or `receive` returns. -/
def leave (c : Claimant) : Option Claimant :=
  match c.phase with
  | .inside _ => some { c with phase := .ready }
  | _ => none

/-- The destructor releases the claim if `owns_commands` is set. -/
def close (c : Claimant) : Option Claimant :=
  match c.phase with
  | .ready =>
      some (if c.impl.ownsCommands then { c with phase := .release }
        else { c with phase := .gone })
  | _ => none

end Claimant

/-- Everything one access of a subscriber can do, with the test that led to it. -/
inductive ClaimMove (words : OwnerWords) (choice : Bool) (c : Claimant)
    : OwnerWords → Claimant → Prop
  | loadGen (phase : c.phase = .loadGen)
    : ClaimMove words choice c words (c.loopTop words.gen)
  | firstRead {existing reading next} (phase : c.phase = .age existing reading)
    (reads : reading.read words choice = .inl next)
    : ClaimMove words choice c words
        { c with phase := .age existing next, judgement := c.judgement.start words }
  | held {existing reading age} (phase : c.phase = .age existing reading)
    (reads : reading.read words choice = .inr age) (fresh : age < kCommandOwnerStaleNs)
    : ClaimMove words choice c words
        { c with phase := .ready, judgement := c.judgement.finish words }
  | stale {existing reading age} (phase : c.phase = .age existing reading)
    (reads : reading.read words choice = .inr age) (stale : ¬ age < kCommandOwnerStaleNs)
    : ClaimMove words choice c words
        { c with phase := .sampleClaim existing, judgement := c.judgement.finish words }
  | sampleClaim {existing} (phase : c.phase = .sampleClaim existing)
    : ClaimMove words choice c words
        { c with phase := .exchange existing (if words.clock = 0 then 1 else words.clock) }
  | claimed {claim} (phase : c.phase = .exchange words.gen claim) (strong : choice = false)
    : ClaimMove words choice c
        { words with gen := claim, claims := words.claims + 1, lastAct := words.clock }
        {
          c with
          impl := { c.impl with ownsCommands := true, ownerGen := claim }
          phase := .sampleBeat .attach
          claim := words.claims + 1
          replaced := if words.gen ≠ 0 then some words.claims else c.replaced
        }
  | lost {existing claim} (phase : c.phase = .exchange existing claim)
    (failed : ¬ (words.gen = existing ∧ choice = false))
    : ClaimMove words choice c words (c.loopTop words.gen)
  | sampleBeat {purpose} (phase : c.phase = .sampleBeat purpose)
    : ClaimMove words choice c words { c with phase := .storeBeat purpose words.clock }
  | storeBeat {purpose value} (phase : c.phase = .storeBeat purpose value)
    : ClaimMove words choice c
        {
          words with
          beat := value
          beatClaim := c.claim
          beatAt := words.clock
          lastAct := if c.claim = words.claims then words.clock else words.lastAct
        }
        { c with phase := purpose.next }
  | stolen {purpose} (phase : c.phase = .checkGen purpose)
    (other : words.gen ≠ c.impl.ownerGen)
    : ClaimMove words choice c words
        { c with impl := { c.impl with ownsCommands := false }, phase := .ready }
  | confirmed {purpose} (phase : c.phase = .checkGen purpose)
    (own : words.gen = c.impl.ownerGen)
    : ClaimMove words choice c words { c with phase := .sampleBeat purpose }
  | release (phase : c.phase = .release)
    : ClaimMove words choice c
        { words with gen := if words.gen = c.impl.ownerGen then 0 else words.gen }
        { c with phase := .gone }

/-- An access is one of the listed moves, by cases on the phase and its test. -/
theorem Claimant.access_move {words next : OwnerWords} {c after : Claimant} {choice : Bool}
    (stepped : c.access words choice = some (next, after))
    : ClaimMove words choice c next after := by
  unfold Claimant.access at stepped
  split at stepped
  · cases stepped
  · cases stepped
  · cases stepped
  · cases stepped
  · rename_i phase
    cases stepped
    exact .loadGen phase
  · rename_i existing reading phase
    split at stepped
    · rename_i next reads
      cases stepped
      exact .firstRead phase reads
    · rename_i age reads
      dsimp only at stepped
      split at stepped
      · rename_i fresh
        cases stepped
        exact .held phase reads fresh
      · rename_i old
        cases stepped
        exact .stale phase reads old
  · rename_i existing phase
    cases stepped
    exact .sampleClaim phase
  · rename_i existing claim phase
    split at stepped
    · rename_i won
      simp only [Bool.and_eq_true, decide_eq_true_eq, Bool.not_eq_true'] at won
      obtain ⟨same, strong⟩ := won
      subst same
      cases stepped
      exact .claimed phase strong
    · rename_i failed
      cases stepped
      exact .lost phase (by simpa using failed)
  · rename_i purpose phase
    cases stepped
    exact .sampleBeat phase
  · rename_i purpose value phase
    cases stepped
    exact .storeBeat phase
  · rename_i purpose phase
    split at stepped
    · rename_i other
      cases stepped
      exact .stolen phase other
    · rename_i own
      cases stepped
      exact .confirmed phase (by simpa using own)
  · rename_i phase
    cases stepped
    exact .release phase

/-- Where the publisher stands inside `command_owner_stale`. -/
inductive JudgePhase
  | idle
  | loadGen
  | age (reading : AgeReading)

/-- The publisher as a judge. History variables: its latest age evaluation, and the claim
that was in force when the call last returned true, if there was one.
-/
structure Judge where
  phase : JudgePhase := .idle
  result : Bool := false
  judgement : Judgement := {}
  reported : Option Nat := none

namespace Judge

/-- The next access or clock reading of `command_owner_stale`. -/
def access (words : OwnerWords) (j : Judge) (beatFirst : Bool) : Option Judge :=
  match j.phase with
  | .idle => none
  | .loadGen =>
      if words.gen = 0 then some { j with phase := .idle, result := false }
      else some { j with phase := .age .unread }
  | .age reading =>
      match reading.read words beatFirst with
      | .inl next =>
          some { j with phase := .age next, judgement := j.judgement.start words }
      | .inr age =>
          some {
            j with
            phase := .idle
            result := age ≥ kCommandOwnerStaleNs
            judgement := j.judgement.finish words
            reported :=
              if age ≥ kCommandOwnerStaleNs && words.gen ≠ 0 then some words.claims
              else none
          }

end Judge

/-- One session: the publisher's configuration, the owner words, any number of subscribers
and the publisher as a judge.
-/
structure OwnerState where
  cfg : LLConfig
  words : OwnerWords
  claimants : Nat → Claimant := fun _ => {}
  judge : Judge := {}

/-- Who moves next. A crash can come at any point. -/
inductive OwnerAction
  | tick (now : UInt64)
  | attach (who : Nat) (session : UInt64)
  | call (who : Nat) (purpose : Purpose)
  | leave (who : Nat)
  | close (who : Nat)
  | crash (who : Nat)
  | access (who : Nat) (choice : Bool)
  | judge
  | judgeAccess (beatFirst : Bool)

namespace OwnerState

/-- A fresh session at some time. -/
def create (cfg : LLConfig) (now : UInt64) : OwnerState where
  cfg := cfg
  words := ({ clock := now } : OwnerWords).record

/-- Replaces one subscriber by the outcome of its step. -/
def withClaimant (s : OwnerState) (who : Nat) (outcome : Option Claimant)
    : Option OwnerState :=
  outcome.map fun c => { s with claimants := assign s.claimants who c }

/-- The effect of an action; the clock never goes back. -/
def move (s : OwnerState) (action : OwnerAction) : Option OwnerState :=
  match action with
  | .tick now =>
      if s.words.clock ≤ now then some { s with words := { s.words with clock := now } }
      else none
  | .attach who session => s.withClaimant who ((s.claimants who).attach s.cfg session)
  | .call who purpose =>
      if purpose = .attach then none
      else s.withClaimant who ((s.claimants who).call purpose)
  | .leave who => s.withClaimant who (s.claimants who).leave
  | .close who => s.withClaimant who (s.claimants who).close
  | .crash who => s.withClaimant who (some { s.claimants who with phase := .gone })
  | .access who choice =>
      ((s.claimants who).access s.words choice).map fun (words, c) =>
        { s with words, claimants := assign s.claimants who c }
  | .judge =>
      match s.judge.phase with
      | .idle => some { s with judge := { s.judge with phase := .loadGen } }
      | _ => none
  | .judgeAccess beatFirst =>
      (s.judge.access s.words beatFirst).map fun judge => { s with judge }

/-- One step; the moment it leads to is remembered. -/
def step (s : OwnerState) (action : OwnerAction) : Option OwnerState :=
  (s.move action).map fun next => { next with words := next.words.record }

end OwnerState

/-- Subscribers, publisher and clock, interleaved in any order. -/
def ownerMachine : Machine OwnerState OwnerAction where
  step := OwnerState.step

/-- What a subscriber does between calls, without touching a shared word. -/
inductive PrivateMove (cfg : LLConfig) (c : Claimant) : Claimant → Prop
  | attach (phase : c.phase = .detached) (session : UInt64)
    : PrivateMove cfg c
        {
          c with
          impl := c.impl.adopt 0 cfg (computeLayout cfg) session
          phase := .loadGen
        }
  | check (phase : c.phase = .ready) (owns : c.impl.ownsCommands = true) (purpose : Purpose)
    : PrivateMove cfg c { c with phase := .checkGen purpose }
  | refused (phase : c.phase = .ready) : PrivateMove cfg c c
  | leave {purpose impl} (phase : c.phase = .inside purpose)
    (owns : impl.ownsCommands = c.impl.ownsCommands)
    (gen : impl.ownerGen = c.impl.ownerGen)
    : PrivateMove cfg c { c with impl, phase := .ready }
  | release (phase : c.phase = .ready) (owns : c.impl.ownsCommands = true)
    : PrivateMove cfg c { c with phase := .release }
  | gone : PrivateMove cfg c { c with phase := .gone }

/-- Everything one step can do before its moment is remembered. -/
inductive OwnerMove (s : OwnerState) : OwnerAction → OwnerState → Prop
  | tick {now} (later : s.words.clock ≤ now)
    : OwnerMove s (.tick now) { s with words := { s.words with clock := now } }
  | privately {action who c} (apart : ∀ who choice, action ≠ .access who choice)
    (moved : PrivateMove s.cfg (s.claimants who) c)
    : OwnerMove s action { s with claimants := assign s.claimants who c }
  | access {who choice words c} (moved : ClaimMove s.words choice (s.claimants who) words c)
    : OwnerMove s (.access who choice)
        { s with words, claimants := assign s.claimants who c }
  | judge
    : OwnerMove s .judge { s with judge := { s.judge with phase := .loadGen } }
  | judgeAccess {beatFirst judge} (moved : s.judge.access s.words beatFirst = some judge)
    : OwnerMove s (.judgeAccess beatFirst) { s with judge }

/-- A step is one of the listed moves, by cases on the action. -/
theorem OwnerState.move_cases {s next : OwnerState} {action : OwnerAction}
    (moved : s.move action = some next)
    : OwnerMove s action next := by
  have single {who : Nat} {outcome : Option Claimant}
      (replaced : s.withClaimant who outcome = some next)
      (apart : ∀ who choice, action ≠ .access who choice)
      (private_ : ∀ c, outcome = some c → PrivateMove s.cfg (s.claimants who) c)
      : OwnerMove s action next := by
    obtain ⟨c, outcomeEq, rfl⟩ := Option.map_eq_some_iff.mp replaced
    exact .privately apart (private_ c outcomeEq)
  cases action with
  | tick now =>
      simp only [OwnerState.move] at moved
      split at moved
      · rename_i later
        cases moved
        exact .tick later
      · cases moved
  | attach who session =>
      refine single moved (by simp) fun c attached => ?_
      unfold Claimant.attach at attached
      split at attached <;> cases attached
      exact .attach (by assumption) session
  | call who purpose =>
      simp only [OwnerState.move] at moved
      split at moved
      · cases moved
      refine single moved (by simp) fun c called => ?_
      unfold Claimant.call at called
      split at called <;> cases called
      split
      · exact .check (by assumption) (by assumption) purpose
      · exact .refused (by assumption)
  | leave who =>
      refine single moved (by simp) fun c left => ?_
      unfold Claimant.leave at left
      split at left <;> cases left
      exact .leave (by assumption) rfl rfl
  | close who =>
      refine single moved (by simp) fun c closed => ?_
      unfold Claimant.close at closed
      split at closed <;> cases closed
      split
      · exact .release (by assumption) (by assumption)
      · exact .gone
  | crash who =>
      refine single moved (by simp) fun c crashed => ?_
      cases crashed
      exact .gone
  | access who choice =>
      obtain ⟨⟨words, c⟩, accessed, rfl⟩ := Option.map_eq_some_iff.mp moved
      exact .access (Claimant.access_move accessed)
  | judge =>
      simp only [OwnerState.move] at moved
      split at moved <;> cases moved
      exact .judge
  | judgeAccess beatFirst =>
      obtain ⟨judge, accessed, rfl⟩ := Option.map_eq_some_iff.mp moved
      exact .judgeAccess accessed

/-- The subscriber takes part: it is neither crashed nor destroyed. -/
def Claimant.Live (c : Claimant) : Prop := c.phase ≠ .gone

instance (c : Claimant) : Decidable c.Live := inferInstanceAs (Decidable (_ ≠ _))

/-- The subscriber effectively owns the channel: `still_owns_commands` would return true. -/
def OwnerState.Owns (s : OwnerState) (who : Nat) : Prop :=
  (s.claimants who).Live
  ∧ (s.claimants who).impl.ownsCommands = true
  ∧ s.words.gen = (s.claimants who).impl.ownerGen

instance (s : OwnerState) (who : Nat) : Decidable (s.Owns who) :=
  inferInstanceAs (Decidable (_ ∧ _ ∧ _))

end ShmFrame.Commands
