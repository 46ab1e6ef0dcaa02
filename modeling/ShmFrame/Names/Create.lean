import ShmFrame.Foundation.Party
import ShmFrame.Foundation.Run
import ShmFrame.Segment.Header

/-! `LLPublisher::create` and the destructor on one name, by any number of callers, one
operation on the name, the header or the clock at a time. A name is bound to at most one
segment; unlinking removes the name only, and whoever has the segment mapped keeps it.
-/

namespace ShmFrame.Names

open ShmFrame.Foundation

inductive LLStatus
  | ok
  | invalidConfig
  | alreadyExists
  | versionMismatch
  | mappingFailure
  | internal
deriving DecidableEq

/-- A shared-memory object. `creator` is a history variable: the call of `create` that bound
the name to it, none for an object that was there before.
-/
structure Segment where
  size : UInt64 := 0
  header : LLHeader := {}
  creator : Option Nat := none

/-- Where a call of `create`, and the publisher it returns, stands. `unlink` carries the
segment whose header was judged, none if it could not be opened.
-/
inductive CreatePhase
  | idle
  | firstCreate
  | openExisting
  | validate (segment : Nat)
  | age (segment : Nat)
  | unlink (judged : Option Nat)
  | secondCreate
  | initialise (segment : Nat)
  | storeMagic (segment : Nat)
  | live (segment : Nat)
  | storeBeat (segment : Nat) (value : UInt64)
  | storeShutdown (segment : Nat)
  | unlinkOwn (segment : Nat)
  | gone
deriving DecidableEq

/-- The segment a call is initialising. -/
def CreatePhase.initialising : CreatePhase → Option Nat
  | .initialise segment | .storeMagic segment => some segment
  | _ => none

/-- The segment whose publisher the call has given up on, or is about to judge by its age. -/
def CreatePhase.examined : CreatePhase → Option Nat
  | .age segment | .unlink (some segment) => some segment
  | _ => none

/-- The segment of a publisher that is being created or is live. -/
def CreatePhase.using : CreatePhase → Option Nat
  | .initialise segment | .storeMagic segment => some segment
  | .live segment | .storeBeat segment _ => some segment
  | _ => none

/-- One call of `create` and the publisher it returns. -/
structure Caller where
  cfg : LLConfig := {}
  phase : CreatePhase := .idle
  status : Option LLStatus := none

/-- The call returns without a publisher. -/
def Caller.fail (c : Caller) (status : LLStatus) : Caller :=
  { c with phase := .gone, status := some status }

/-- The heartbeat age from which the call considers a publisher stale. -/
def Caller.staleNs (c : Caller) : UInt64 := c.cfg.staleProducerMs.toUInt64 * 1000000

/-- The name with everything that was ever bound to it, the clock and all callers. -/
structure NameState where
  bound : Option Nat := none
  segments : Nat → Segment := fun _ => {}
  count : Nat := 0
  clock : UInt64
  callers : Nat → Caller := fun _ => {}

/-- Who moves next. `fails` is a refusal by the system: of a creation before anything is
bound, or of a mapping.
-/
inductive CreateAction
  | tick (now : UInt64)
  | start (who : Nat) (cfg : LLConfig)
  | access (who : Nat) (session : UInt64) (fails : Bool)
  | heartbeat (who : Nat)
  | destroy (who : Nat)
  | crash (who : Nat)

namespace NameState

/-- A name with nothing behind it, or with some object nobody takes care of. -/
def create (now : UInt64) (foreign : Option Segment) : NameState :=
  match foreign with
  | none => { clock := now }
  | some object =>
      {
        bound := some 0
        segments := fun _ => { object with creator := none }
        count := 1
        clock := now
      }

def setCaller (s : NameState) (who : Nat) (c : Caller) : NameState :=
  { s with callers := assign s.callers who c }

def setHeader (s : NameState) (segment : Nat) (header : LLHeader) : NameState :=
  { s with segments := assign s.segments segment { s.segments segment with header } }

/-- The exclusive creation of a zero-filled object, if nothing is bound to the name. -/
def bindFresh (s : NameState) (who : Nat) : NameState :=
  let c := s.callers who
  let fresh : Segment := { size := (computeLayout c.cfg).totalSize, creator := some who }
  {
    s with
    bound := some s.count
    segments := assign s.segments s.count fresh
    count := s.count + 1
    callers := assign s.callers who { c with phase := .initialise s.count }
  }

/-- Entering `create`, which refuses a bad configuration at once. -/
def start (s : NameState) (who : Nat) (cfg : LLConfig) : Option NameState :=
  match (s.callers who).phase with
  | .idle =>
      let c := { s.callers who with cfg }
      some (s.setCaller who
        (if cfg.accepted then { c with phase := .firstCreate } else c.fail .invalidConfig))
  | _ => none

/-- The next operation of a call of `create` or of a destructor. -/
def access (s : NameState) (who : Nat) (session : UInt64) (fails : Bool) : Option NameState :=
  let c := s.callers who
  match c.phase with
  | .idle | .live _ | .gone => none
  | .firstCreate =>
      if fails then some (s.setCaller who (c.fail .mappingFailure))
      else
        match s.bound with
        | some _ => some (s.setCaller who { c with phase := .openExisting })
        | none => some (s.bindFresh who)
  | .openExisting =>
      match s.bound with
      | some segment =>
          if fails || (s.segments segment).size = 0 then
            some (s.setCaller who { c with phase := .unlink none })
          else some (s.setCaller who { c with phase := .validate segment })
      | none => some (s.setCaller who { c with phase := .unlink none })
  | .validate segment =>
      match validateHeader (s.segments segment).size (s.segments segment).header with
      | some _ => some (s.setCaller who { c with phase := .age segment })
      | none => some (s.setCaller who { c with phase := .unlink (some segment) })
  | .age segment =>
      let shut := (s.segments segment).header.shutdown ≠ 0
      let age := s.clock - (s.segments segment).header.lastHeartbeatNs
      if shut || age ≥ c.staleNs then
        some (s.setCaller who { c with phase := .unlink (some segment) })
      else some (s.setCaller who (c.fail .alreadyExists))
  | .unlink _ => some { s.setCaller who { c with phase := .secondCreate } with bound := none }
  | .secondCreate =>
      if fails then some (s.setCaller who (c.fail .mappingFailure))
      else
        match s.bound with
        | some _ => some (s.setCaller who (c.fail .alreadyExists))
        | none => some (s.bindFresh who)
  | .initialise segment =>
      some ((s.setHeader segment (.initialise c.cfg session s.clock)).setCaller who
        { c with phase := .storeMagic segment })
  | .storeMagic segment =>
      some ((s.setHeader segment { (s.segments segment).header with magic := kMagic }).setCaller
        who { c with phase := .live segment, status := some .ok })
  | .storeBeat segment value =>
      some ((s.setHeader segment
          { (s.segments segment).header with lastHeartbeatNs := value }).setCaller who
        { c with phase := .live segment })
  | .storeShutdown segment =>
      some ((s.setHeader segment { (s.segments segment).header with shutdown := 1 }).setCaller
        who { c with phase := .unlinkOwn segment })
  | .unlinkOwn _ => some { s.setCaller who { c with phase := .gone } with bound := none }

/-- One step; the clock never goes back. -/
def step (s : NameState) (action : CreateAction) : Option NameState :=
  match action with
  | .tick now => if s.clock ≤ now then some { s with clock := now } else none
  | .start who cfg => s.start who cfg
  | .access who session fails => s.access who session fails
  | .heartbeat who =>
      match (s.callers who).phase with
      | .live segment =>
          some (s.setCaller who
            { s.callers who with phase := .storeBeat segment s.clock })
      | _ => none
  | .destroy who =>
      match (s.callers who).phase with
      | .live segment =>
          some (s.setCaller who { s.callers who with phase := .storeShutdown segment })
      | _ => none
  | .crash who => some (s.setCaller who { s.callers who with phase := .gone })

end NameState

/-- Any number of callers on one name, interleaved in any order. -/
def nameMachine : Machine NameState CreateAction where
  step := NameState.step

-----------------------------------------------------------------------------------------
-- What one step can do
-----------------------------------------------------------------------------------------

/-- What an operation of a call does without changing the name or a header. -/
inductive CallerMove (s : NameState) (c : Caller) : Caller → Prop
  | failed {status} (unused : c.phase.using = none) (failed : status ≠ .ok)
    : CallerMove s c (c.fail status)
  | present (phase : c.phase = .firstCreate) : CallerMove s c { c with phase := .openExisting }
  | mapped {segment} (phase : c.phase = .openExisting) (bound : s.bound = some segment)
    : CallerMove s c { c with phase := .validate segment }
  | unmapped (phase : c.phase = .openExisting)
    : CallerMove s c { c with phase := .unlink none }
  | valid {segment layout} (phase : c.phase = .validate segment)
    (validates
      : validateHeader (s.segments segment).size (s.segments segment).header = some layout)
    : CallerMove s c { c with phase := .age segment }
  | invalid {segment} (phase : c.phase = .validate segment)
    (rejected
      : validateHeader (s.segments segment).size (s.segments segment).header = none)
    : CallerMove s c { c with phase := .unlink (some segment) }
  | abandoned {segment} (phase : c.phase = .age segment)
    (dead
      : (s.segments segment).header.shutdown ≠ 0
        ∨ s.clock - (s.segments segment).header.lastHeartbeatNs ≥ c.staleNs)
    : CallerMove s c { c with phase := .unlink (some segment) }

/-- What a publisher does to its own header. -/
inductive HeaderMove (s : NameState) (c : Caller) (segment : Nat) : LLHeader → Caller → Prop
  | initialise {session} (phase : c.phase = .initialise segment)
    : HeaderMove s c segment (.initialise c.cfg session s.clock)
        { c with phase := .storeMagic segment }
  | storeMagic (phase : c.phase = .storeMagic segment)
    : HeaderMove s c segment { (s.segments segment).header with magic := kMagic }
        { c with phase := .live segment, status := some .ok }
  | storeBeat {value} (phase : c.phase = .storeBeat segment value)
    : HeaderMove s c segment { (s.segments segment).header with lastHeartbeatNs := value }
        { c with phase := .live segment }
  | storeShutdown (phase : c.phase = .storeShutdown segment)
    : HeaderMove s c segment { (s.segments segment).header with shutdown := 1 }
        { c with phase := .unlinkOwn segment }

/-- What a caller does to remove the name. -/
inductive UnlinkMove (c : Caller) : Caller → Prop
  | reclaim {judged} (phase : c.phase = .unlink judged)
    : UnlinkMove c { c with phase := .secondCreate }
  | own {segment} (phase : c.phase = .unlinkOwn segment)
    : UnlinkMove c { c with phase := .gone }

/-- Everything one step can do. -/
inductive NameMove (s : NameState) : CreateAction → NameState → Prop
  | tick {now} (later : s.clock ≤ now) : NameMove s (.tick now) { s with clock := now }
  | start {who cfg} (phase : (s.callers who).phase = .idle) (accepted : cfg.accepted = true)
    : NameMove s (.start who cfg)
        (s.setCaller who { s.callers who with cfg, phase := .firstCreate })
  | refused {who cfg} (phase : (s.callers who).phase = .idle)
    : NameMove s (.start who cfg)
        (s.setCaller who ({ s.callers who with cfg }.fail .invalidConfig))
  | sampleBeat {who segment} (phase : (s.callers who).phase = .live segment)
    : NameMove s (.heartbeat who)
        (s.setCaller who { s.callers who with phase := .storeBeat segment s.clock })
  | caller {who session fails c} (moved : CallerMove s (s.callers who) c)
    : NameMove s (.access who session fails) (s.setCaller who c)
  | destroy {who segment} (phase : (s.callers who).phase = .live segment)
    : NameMove s (.destroy who)
        (s.setCaller who { s.callers who with phase := .storeShutdown segment })
  | crash {who}
    : NameMove s (.crash who) (s.setCaller who { s.callers who with phase := .gone })
  | bindFresh {who session fails}
    (phase : (s.callers who).phase = .firstCreate ∨ (s.callers who).phase = .secondCreate)
    (free : s.bound = none)
    : NameMove s (.access who session fails) (s.bindFresh who)
  | header {who session fails segment header c}
    (moved : HeaderMove s (s.callers who) segment header c)
    : NameMove s (.access who session fails) ((s.setHeader segment header).setCaller who c)
  | unlink {who session fails c} (moved : UnlinkMove (s.callers who) c)
    : NameMove s (.access who session fails) { s.setCaller who c with bound := none }

/-- An operation of a call is one of the listed moves, by cases on the phase and its test. -/
theorem NameState.access_move {s next : NameState} {who : Nat} {session : UInt64} {fails : Bool}
    (stepped : s.access who session fails = some next)
    : NameMove s (.access who session fails) next := by
  unfold NameState.access at stepped
  dsimp only at stepped
  split at stepped
  · cases stepped
  · cases stepped
  · cases stepped
  · rename_i phase
    split at stepped
    · cases stepped
      exact .caller (.failed (by simp [phase, CreatePhase.using]) (by decide))
    split at stepped
    · cases stepped
      exact .caller (.present phase)
    · rename_i free
      cases stepped
      exact .bindFresh (Or.inl phase) free
  · rename_i phase
    split at stepped
    · rename_i segment bound
      split at stepped
      · cases stepped
        exact .caller (.unmapped phase)
      · cases stepped
        exact .caller (.mapped phase bound)
    · cases stepped
      exact .caller (.unmapped phase)
  · rename_i segment phase
    split at stepped
    · rename_i layout validates
      cases stepped
      exact .caller (.valid phase validates)
    · rename_i rejected
      cases stepped
      exact .caller (.invalid phase rejected)
  · rename_i segment phase
    split at stepped
    · rename_i dead
      cases stepped
      exact .caller (.abandoned phase (by simpa using dead))
    · cases stepped
      exact .caller (.failed (by simp [phase, CreatePhase.using]) (by decide))
  · rename_i judged phase
    cases stepped
    exact .unlink (.reclaim phase)
  · rename_i phase
    split at stepped
    · cases stepped
      exact .caller (.failed (by simp [phase, CreatePhase.using]) (by decide))
    split at stepped
    · cases stepped
      exact .caller (.failed (by simp [phase, CreatePhase.using]) (by decide))
    · rename_i free
      cases stepped
      exact .bindFresh (Or.inr phase) free
  · rename_i segment phase
    cases stepped
    exact .header (.initialise phase)
  · rename_i segment phase
    cases stepped
    exact .header (.storeMagic phase)
  · rename_i segment value phase
    cases stepped
    exact .header (.storeBeat phase)
  · rename_i segment phase
    cases stepped
    exact .header (.storeShutdown phase)
  · rename_i segment phase
    cases stepped
    exact .unlink (.own phase)

/-- A step is one of the listed moves, by cases on the action. -/
theorem NameState.step_cases {s next : NameState} {action : CreateAction}
    (stepped : s.step action = some next)
    : NameMove s action next := by
  cases action with
  | tick now =>
      simp only [NameState.step] at stepped
      split at stepped
      · rename_i later
        cases stepped
        exact .tick later
      · cases stepped
  | start who cfg =>
      simp only [NameState.step, NameState.start] at stepped
      split at stepped
      · rename_i phase
        cases stepped
        split
        · rename_i accepted
          exact .start phase accepted
        · exact .refused phase
      · cases stepped
  | access who session fails => exact NameState.access_move stepped
  | heartbeat who =>
      simp only [NameState.step] at stepped
      split at stepped
      · rename_i segment phase
        cases stepped
        exact .sampleBeat phase
      · cases stepped
  | destroy who =>
      simp only [NameState.step] at stepped
      split at stepped
      · rename_i segment phase
        cases stepped
        exact .destroy phase
      · cases stepped
  | crash who =>
      cases stepped
      exact .crash

end ShmFrame.Names
