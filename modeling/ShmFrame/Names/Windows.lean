import ShmFrame.Foundation.Handles
import ShmFrame.Names.Create

/-! `LLPublisher::create` and `LLSubscriber::try_connect` where a name is a kernel object: it
stands for one segment as long as anybody holds a handle to it, and `LLSegment::unlink` does
nothing. Any number of callers, one operation on the name, the header or the clock at a time.
-/

namespace ShmFrame.Names

open ShmFrame.Foundation

/-- Who holds a handle: the segment of a publisher, the existing segment that `create` looks at,
the segment a subscriber is attached to or thinks of attaching to, and some other program.
-/
inductive Handle
  | foreign
  | publisher (who : Nat)
  | probe (who : Nat)
  | attached (who : Nat)
  | candidate (who : Nat)
deriving DecidableEq

/-- Where a call of `create`, and the publisher it returns, stands; `again` is its second call
of `LLSegment::create`.
-/
inductive WindowsPhase
  | idle
  | create (again : Bool)
  | refused (again : Bool) (segment : Nat)
  | openExisting
  | mapExisting (segment : Nat)
  | validate (segment : Nat)
  | age (segment : Nat)
  | closeExisting (reclaim : Bool) (segment : Nat)
  | mapFresh (segment : Nat)
  | initialise (segment : Nat)
  | storeMagic (segment : Nat)
  | live (segment : Nat)
  | storeBeat (segment : Nat) (value : UInt64)
  | storeShutdown (segment : Nat)
  | release (segment : Nat)
  | gone
deriving DecidableEq

/-- The segment that the call has created. -/
def WindowsPhase.publishing : WindowsPhase → Option Nat
  | .mapFresh segment | .initialise segment | .storeMagic segment | .live segment
  | .storeBeat segment _ | .storeShutdown segment | .release segment =>
      some segment
  | .idle | .create _ | .refused .. | .openExisting | .mapExisting _ | .validate _ | .age _
  | .closeExisting .. | .gone =>
      none

/-- The segment of somebody else that the call has opened. -/
def WindowsPhase.probing : WindowsPhase → Option Nat
  | .refused _ segment | .mapExisting segment | .validate segment | .age segment
  | .closeExisting _ segment =>
      some segment
  | .idle | .create _ | .openExisting | .mapFresh _ | .initialise _ | .storeMagic _ | .live _
  | .storeBeat .. | .storeShutdown _ | .release _ | .gone =>
      none

/-- How many operations a call that has created nothing makes at most before it returns, if it
creates nothing later either.
-/
def WindowsPhase.remaining : WindowsPhase → Nat
  | .idle | .create false => 9
  | .refused false _ => 8
  | .openExisting => 7
  | .mapExisting _ => 6
  | .validate _ => 5
  | .age _ => 4
  | .closeExisting .. => 3
  | .create true => 2
  | .refused true _ => 1
  | .mapFresh _ | .initialise _ | .storeMagic _ | .live _ | .storeBeat .. | .storeShutdown _
  | .release _ | .gone =>
      0

/-- One call of `create` and the publisher it returns. -/
structure WindowsCaller where
  cfg : LLConfig := {}
  phase : WindowsPhase := .idle
  status : Option LLStatus := none

def WindowsCaller.fail (c : WindowsCaller) (status : LLStatus) : WindowsCaller :=
  { c with phase := .gone, status := some status }

/-- Where a call of `try_connect` stands. -/
inductive AttachPhase
  | idle
  | mapCandidate (segment : Nat)
  | validate (segment : Nat)
  | compare (segment : Nat)
  | adopt (segment : Nat)
  | dropCandidate (segment : Nat)
deriving DecidableEq

def AttachPhase.candidate : AttachPhase → Option Nat
  | .mapCandidate segment | .validate segment | .compare segment | .adopt segment
  | .dropCandidate segment =>
      some segment
  | .idle => none

/-- A subscriber. -/
structure Attacher where
  attached : Option Nat := none
  session : UInt64 := 0
  phase : AttachPhase := .idle

/-- The name with all handles, everything that was ever bound to it, and everybody. -/
structure WindowsName where
  table : Handles Handle := {}
  segments : Nat → Segment := fun _ => {}
  clock : UInt64
  foreign : Bool := false
  callers : Nat → WindowsCaller := fun _ => {}
  attachers : Nat → Attacher := fun _ => {}

/-- Who moves next. `fails` is a refusal by the system. -/
inductive WindowsAction
  | tick (now : UInt64)
  | start (who : Nat) (cfg : LLConfig)
  | access (who : Nat) (session : UInt64) (fails : Bool)
  | heartbeat (who : Nat)
  | destroy (who : Nat)
  | crash (who : Nat)
  | connect (who : Nat) (fails : Bool)
  | detach (who : Nat)
  | crashAttacher (who : Nat)
  | foreignExit

namespace WindowsName

/-- A name nobody uses, or one that some other program uses. -/
def create (now : UInt64) : Option Segment → WindowsName
  | none => { clock := now }
  | some object => {
      table := { bound := some 0, count := 1, opened := {(.foreign, 0)} }
      segments := fun _ => { object with creator := none }
      clock := now
      foreign := true
    }

def setCaller (s : WindowsName) (who : Nat) (c : WindowsCaller) : WindowsName :=
  { s with callers := assign s.callers who c }

def setAttacher (s : WindowsName) (who : Nat) (a : Attacher) : WindowsName :=
  { s with attachers := assign s.attachers who a }

def setHeader (s : WindowsName) (segment : Nat) (header : LLHeader) : WindowsName :=
  { s with segments := assign s.segments segment { s.segments segment with header } }

def close (s : WindowsName) (handle : Handle) (segment : Nat) : WindowsName :=
  { s with table := s.table.close handle segment }

/-- Whoever opens the segment there is goes on with it. -/
def share (s : WindowsName) (handle : Handle) : WindowsName :=
  { s with table := s.table.share handle }

/-- `CreateFileMapping` when the name is free: a zero-filled object. -/
def bindFresh (s : WindowsName) (who : Nat) : WindowsName :=
  let c := s.callers who
  let fresh : Segment := { size := (computeLayout c.cfg).totalSize, creator := some who }
  {
    s with
    table := s.table.create (.publisher who)
    segments := assign s.segments s.table.count fresh
    callers := assign s.callers who { c with phase := .mapFresh s.table.count }
  }

/-- Entering `create`, which refuses a bad configuration at once. -/
def start (s : WindowsName) (who : Nat) (cfg : LLConfig) : Option WindowsName :=
  match (s.callers who).phase with
  | .idle =>
      let c := { s.callers who with cfg }
      some (s.setCaller who
        (if cfg.accepted then { c with phase := .create false } else c.fail .invalidConfig))
  | _ => none

/-- The next operation of a call of `create` or of a destructor. -/
def access (s : WindowsName) (who : Nat) (session : UInt64) (fails : Bool)
    : Option WindowsName :=
  let c := s.callers who
  match c.phase with
  | .idle | .live _ | .gone => none
  | .create again =>
      if fails then some (s.setCaller who (c.fail .mappingFailure))
      else
        match s.table.bound with
        | some segment =>
            -- The system opens the object there is and says that it existed already.
            some ((s.share (.probe who)).setCaller who { c with phase := .refused again segment })
        | none => some (s.bindFresh who)
  | .refused again segment =>
      some ((s.close (.probe who) segment).setCaller who
        (if again then c.fail .alreadyExists else { c with phase := .openExisting }))
  | .openExisting =>
      match s.table.bound with
      | some segment =>
          if fails then some (s.setCaller who { c with phase := .create true })
          else some ((s.share (.probe who)).setCaller who { c with phase := .mapExisting segment })
      | none => some (s.setCaller who { c with phase := .create true })
  | .mapExisting segment =>
      if fails || (s.segments segment).size = 0 then
        some (s.setCaller who { c with phase := .closeExisting true segment })
      else some (s.setCaller who { c with phase := .validate segment })
  | .validate segment =>
      match validateHeader (s.segments segment).size (s.segments segment).header with
      | some _ => some (s.setCaller who { c with phase := .age segment })
      | none => some (s.setCaller who { c with phase := .closeExisting true segment })
  | .age segment =>
      let shut := (s.segments segment).header.shutdown ≠ 0
      let age := s.clock - (s.segments segment).header.lastHeartbeatNs
      let staleNs := c.cfg.staleProducerMs.toUInt64 * 1000000
      some (s.setCaller who { c with phase := .closeExisting (shut || age ≥ staleNs) segment })
  | .closeExisting reclaim segment =>
      -- Unlinking the name does nothing.
      some ((s.close (.probe who) segment).setCaller who
        (if reclaim then { c with phase := .create true } else c.fail .alreadyExists))
  | .mapFresh segment =>
      if fails then
        some ((s.close (.publisher who) segment).setCaller who (c.fail .mappingFailure))
      else some (s.setCaller who { c with phase := .initialise segment })
  | .initialise segment =>
      some ((s.setHeader segment (.initialise c.cfg session s.clock)).setCaller who
        { c with phase := .storeMagic segment })
  | .storeMagic segment =>
      some ((s.setHeader segment { (s.segments segment).header with magic := kMagic }).setCaller
        who { c with phase := .live segment, status := some .ok })
  | .storeBeat segment value =>
      some ((s.setHeader segment
          { (s.segments segment).header with lastHeartbeatNs := value }).setCaller who
        { c with phase := .live segment })
  | .storeShutdown segment =>
      some ((s.setHeader segment { (s.segments segment).header with shutdown := 1 }).setCaller
        who { c with phase := .release segment })
  | .release segment =>
      some ((s.close (.publisher who) segment).setCaller who { c with phase := .gone })

/-- The next operation of `try_connect`. -/
def connect (s : WindowsName) (who : Nat) (fails : Bool) : WindowsName :=
  let a := s.attachers who
  match a.phase with
  | .idle =>
      match s.table.bound with
      | some segment =>
          if fails then s
          else
            (s.share (.candidate who)).setAttacher who { a with phase := .mapCandidate segment }
      | none => s
  | .mapCandidate segment =>
      if fails || (s.segments segment).size = 0 then
        s.setAttacher who { a with phase := .dropCandidate segment }
      else s.setAttacher who { a with phase := .validate segment }
  | .validate segment =>
      match validateHeader (s.segments segment).size (s.segments segment).header with
      | some _ => s.setAttacher who { a with phase := .compare segment }
      | none => s.setAttacher who { a with phase := .dropCandidate segment }
  | .compare segment =>
      if a.attached.isSome && (s.segments segment).header.sessionId = a.session then
        s.setAttacher who { a with phase := .dropCandidate segment }
      else s.setAttacher who { a with phase := .adopt segment }
  | .adopt segment =>
      let released := s.table.closeAny (.attached who) a.attached
      let table := released.handOver (.candidate who) (.attached who) segment
      let session := (s.segments segment).header.sessionId
      { s with table }.setAttacher who { attached := some segment, session }
  | .dropCandidate segment =>
      (s.close (.candidate who) segment).setAttacher who { a with phase := .idle }

/-- One step; the clock never goes back. The handles of a process that dies are closed. -/
def step (s : WindowsName) : WindowsAction → Option WindowsName
  | .tick now => if s.clock ≤ now then some { s with clock := now } else none
  | .start who cfg => s.start who cfg
  | .access who session fails => s.access who session fails
  | .heartbeat who =>
      match (s.callers who).phase with
      | .live segment =>
          some (s.setCaller who { s.callers who with phase := .storeBeat segment s.clock })
      | _ => none
  | .destroy who =>
      match (s.callers who).phase with
      | .live segment =>
          some (s.setCaller who { s.callers who with phase := .storeShutdown segment })
      | _ => none
  | .crash who =>
      let c := s.callers who
      let released := s.table.closeAny (.publisher who) c.phase.publishing
      let table := released.closeAny (.probe who) c.phase.probing
      some ({ s with table }.setCaller who { c with phase := .gone })
  | .connect who fails => some (s.connect who fails)
  | .detach who =>
      let a := s.attachers who
      match a.phase, a.attached with
      | .idle, some segment => some ((s.close (.attached who) segment).setAttacher who {})
      | _, _ => none
  | .crashAttacher who =>
      let a := s.attachers who
      let released := s.table.closeAny (.attached who) a.attached
      let table := released.closeAny (.candidate who) a.phase.candidate
      some ({ s with table }.setAttacher who {})
  | .foreignExit =>
      if s.foreign then some { s.close .foreign 0 with foreign := false } else none

end WindowsName

/-- Any number of callers and subscribers on one name, interleaved in any order. -/
def windowsMachine : Machine WindowsName WindowsAction where
  step := WindowsName.step

-----------------------------------------------------------------------------------------
-- Who holds what
-----------------------------------------------------------------------------------------

namespace WindowsName

/-- The segment that a handle refers to. -/
def held (s : WindowsName) : Handle → Option Nat
  | .foreign => if s.foreign then some 0 else none
  | .publisher who => (s.callers who).phase.publishing
  | .probe who => (s.callers who).phase.probing
  | .attached who => (s.attachers who).attached
  | .candidate who => (s.attachers who).phase.candidate

/-- The table of the kernel is right, and everything was created by whoever publishes in it. -/
structure Inv (s : WindowsName) : Prop where
  tracks : s.table.Tracks s.held
  creator
    : ∀ who segment,
        s.held (.publisher who) = some segment → (s.segments segment).creator = some who
  idle : ∀ who, (s.callers who).phase = .idle → (s.callers who).status = none

variable {s : WindowsName} {who : Nat}

theorem held_setCaller (c : WindowsCaller)
    : (s.setCaller who c).held
      = assign (assign s.held (.publisher who) c.phase.publishing) (.probe who)
          c.phase.probing := by
  funext handle
  cases handle with
  | publisher other | probe other =>
      by_cases same : other = who
      · subst same
        simp [held, setCaller, assign]
      · simp [held, setCaller, assign, same]
  | foreign | attached | candidate => rfl

theorem held_setAttacher (a : Attacher)
    : (s.setAttacher who a).held
      = assign (assign s.held (.attached who) a.attached) (.candidate who) a.phase.candidate := by
  funext handle
  cases handle with
  | attached other | candidate other =>
      by_cases same : other = who
      · subst same
        simp [held, setAttacher, assign]
      · simp [held, setAttacher, assign, same]
  | foreign | publisher | probe => rfl

-----------------------------------------------------------------------------------------
-- What one step can do
-----------------------------------------------------------------------------------------

/-- How a call that has not created anything goes on: it may be refused. -/
structure Goes (fails : Bool) (c next : WindowsCaller) : Prop where
  started : next.phase ≠ .idle
  cfg : next.cfg = c.cfg
  status
    : next.status = c.status
      ∨ next.status = some .alreadyExists
      ∨ fails = true ∧ next.status = some .mappingFailure
  nearer : c.phase.publishing = none → next.phase.remaining < c.phase.remaining
  returns : next.phase = .gone → next.status.isSome = true

/-- Everything an operation of a call of `create` or of a destructor can do. -/
inductive CallTurn (s : WindowsName) (who : Nat) (fails : Bool) : WindowsName → Prop
  | stays {c} (publishing : c.phase.publishing = (s.callers who).phase.publishing)
    (probing : c.phase.probing = (s.callers who).phase.probing)
    (goes : Goes fails (s.callers who) c)
    : CallTurn s who fails (s.setCaller who c)
  | shares {segment c} (bound : s.table.bound = some segment)
    (free : (s.callers who).phase.probing = none) (probing : c.phase.probing = some segment)
    (publishing : c.phase.publishing = (s.callers who).phase.publishing)
    (goes : Goes fails (s.callers who) c)
    : CallTurn s who fails ((s.share (.probe who)).setCaller who c)
  | closes {segment c} (open_ : (s.callers who).phase.probing = some segment)
    (probing : c.phase.probing = none)
    (publishing : c.phase.publishing = (s.callers who).phase.publishing)
    (goes : Goes fails (s.callers who) c)
    : CallTurn s who fails ((s.close (.probe who) segment).setCaller who c)
  | creates (free : s.table.bound = none) (probing : (s.callers who).phase.probing = none)
    : CallTurn s who fails (s.bindFresh who)
  | writes {segment header c} (own : (s.callers who).phase.publishing = some segment)
    (publishing : c.phase.publishing = some segment)
    (probing : c.phase.probing = (s.callers who).phase.probing) (started : c.phase ≠ .idle)
    : CallTurn s who fails ((s.setHeader segment header).setCaller who c)
  | releases {segment c} (own : (s.callers who).phase.publishing = some segment)
    (publishing : c.phase.publishing = none)
    (probing : c.phase.probing = (s.callers who).phase.probing) (started : c.phase ≠ .idle)
    : CallTurn s who fails ((s.close (.publisher who) segment).setCaller who c)

/-- A call of `create` does nothing to a subscriber. -/
theorem CallTurn.attachers {fails : Bool} {next : WindowsName} (turn : CallTurn s who fails next)
    : next.attachers = s.attachers := by
  cases turn <;> rfl

theorem Goes.moves {fails : Bool} {c : WindowsCaller} {before phase : WindowsPhase}
    (here : c.phase = before) (started : phase ≠ .idle) (going : phase ≠ .gone)
    (nearer : before.publishing = none → phase.remaining < before.remaining)
    : Goes fails c { c with phase } := by
  subst here
  exact ⟨started, rfl, Or.inl rfl, nearer, fun gone => absurd gone going⟩

theorem Goes.refused {fails : Bool} {c : WindowsCaller} {before : WindowsPhase}
    (here : c.phase = before) (left : 0 < before.remaining)
    : Goes fails c (c.fail .alreadyExists) := by
  subst here
  exact ⟨nofun, rfl, Or.inr (Or.inl rfl), fun _ => left, fun _ => rfl⟩

theorem Goes.failed {c : WindowsCaller} {before : WindowsPhase}
    (here : c.phase = before) (left : 0 < before.remaining)
    : Goes true c (c.fail .mappingFailure) := by
  subst here
  exact ⟨nofun, rfl, Or.inr (Or.inr ⟨rfl, rfl⟩), fun _ => left, fun _ => rfl⟩

/-- An operation of a call is one of these, by cases on the phase and its tests. -/
theorem access_turn {next : WindowsName} {session : UInt64} {fails : Bool}
    (stepped : s.access who session fails = some next)
    : CallTurn s who fails next := by
  unfold access at stepped
  dsimp only at stepped
  split at stepped
  · cases stepped
  · cases stepped
  · cases stepped
  · rename_i again phase
    split at stepped
    · rename_i failing
      subst failing
      cases stepped
      refine .stays (by rw [phase]; rfl) (by rw [phase]; rfl) (.failed phase ?_)
      cases again <;> decide
    split at stepped
    · rename_i segment bound
      cases stepped
      refine .shares bound (by rw [phase]; rfl) rfl (by rw [phase]; rfl)
        (.moves phase nofun nofun fun _ => ?_)
      cases again <;> exact Nat.lt_succ_self _
    · rename_i free
      cases stepped
      exact .creates free (by rw [phase]; rfl)
  · rename_i again segment phase
    cases stepped
    split
    · rename_i again
      subst again
      exact .closes (by rw [phase]; rfl) rfl (by rw [phase]; rfl) (.refused phase Nat.one_pos)
    · rename_i first
      rw [Bool.not_eq_true] at first
      subst first
      exact .closes (by rw [phase]; rfl) rfl (by rw [phase]; rfl)
        (.moves phase nofun nofun fun _ => Nat.lt_succ_self _)
  · rename_i phase
    split at stepped
    · rename_i segment bound
      split at stepped
      · cases stepped
        exact .stays (by rw [phase]; rfl) (by rw [phase]; rfl)
          (.moves phase nofun nofun fun _ => by decide)
      · cases stepped
        exact .shares bound (by rw [phase]; rfl) rfl (by rw [phase]; rfl)
          (.moves phase nofun nofun fun _ => Nat.lt_succ_self _)
    · cases stepped
      exact .stays (by rw [phase]; rfl) (by rw [phase]; rfl)
        (.moves phase nofun nofun fun _ => by decide)
  · rename_i segment phase
    split at stepped
    · cases stepped
      exact .stays (by rw [phase]; rfl) (by rw [phase]; rfl)
        (.moves phase nofun nofun fun _ => by simp [WindowsPhase.remaining])
    · cases stepped
      exact .stays (by rw [phase]; rfl) (by rw [phase]; rfl)
        (.moves phase nofun nofun fun _ => by simp [WindowsPhase.remaining])
  · rename_i segment phase
    split at stepped
    · cases stepped
      exact .stays (by rw [phase]; rfl) (by rw [phase]; rfl)
        (.moves phase nofun nofun fun _ => by simp [WindowsPhase.remaining])
    · cases stepped
      exact .stays (by rw [phase]; rfl) (by rw [phase]; rfl)
        (.moves phase nofun nofun fun _ => by simp [WindowsPhase.remaining])
  · rename_i segment phase
    cases stepped
    exact .stays (by rw [phase]; rfl) (by rw [phase]; rfl)
      (.moves phase nofun nofun fun _ => by simp [WindowsPhase.remaining])
  · rename_i reclaim segment phase
    cases stepped
    split
    · exact .closes (by rw [phase]; rfl) rfl (by rw [phase]; rfl)
        (.moves phase nofun nofun fun _ => Nat.lt_succ_self _)
    · exact .closes (by rw [phase]; rfl) rfl (by rw [phase]; rfl)
        (.refused phase (Nat.succ_pos _))
  · rename_i segment phase
    split at stepped
    · cases stepped
      exact .releases (by rw [phase]; rfl) rfl (by rw [phase]; rfl) nofun
    · cases stepped
      exact .stays (by rw [phase]; rfl) (by rw [phase]; rfl)
        (.moves phase nofun nofun fun idle => by simp [WindowsPhase.publishing] at idle)
  · rename_i segment phase
    cases stepped
    exact .writes (by rw [phase]; rfl) rfl (by rw [phase]; rfl) nofun
  · rename_i segment phase
    cases stepped
    exact .writes (by rw [phase]; rfl) rfl (by rw [phase]; rfl) nofun
  · rename_i segment value phase
    cases stepped
    exact .writes (by rw [phase]; rfl) rfl (by rw [phase]; rfl) nofun
  · rename_i segment phase
    cases stepped
    exact .writes (by rw [phase]; rfl) rfl (by rw [phase]; rfl) nofun
  · rename_i segment phase
    cases stepped
    exact .releases (by rw [phase]; rfl) rfl (by rw [phase]; rfl) nofun

-----------------------------------------------------------------------------------------
-- The invariant
-----------------------------------------------------------------------------------------

/-- A call that is under way is not idle. -/
theorem Inv.idle_assign (inv : s.Inv) {c : WindowsCaller} (started : c.phase ≠ .idle) (other : Nat)
    (idle : (assign s.callers who c other).phase = .idle)
    : (assign s.callers who c other).status = none := by
  by_cases same : other = who
  · subst same
    rw [assign_same] at idle
    exact absurd idle started
  · rw [assign_apart _ _ same] at idle ⊢
    exact inv.idle other idle

/-- A call goes on, and it is known who has created what. -/
theorem Inv.setCaller (inv : s.Inv) {table : Handles Handle} {segments : Nat → Segment}
    {c : WindowsCaller}
    (tracks
      : table.Tracks
          (assign (assign s.held (.publisher who) c.phase.publishing) (.probe who) c.phase.probing))
    (started : c.phase ≠ .idle)
    (own : ∀ segment, c.phase.publishing = some segment → (segments segment).creator = some who)
    (others
      : ∀ other segment,
          s.held (.publisher other) = some segment
          → (segments segment).creator = (s.segments segment).creator)
    : ({ s with table, segments }.setCaller who c).Inv where
  tracks := by
    have same : ({ s with table, segments }.setCaller who c).held = _ := held_setCaller c
    rw [same]
    exact tracks
  creator := by
    intro other segment holds
    have same : ({ s with table, segments }.setCaller who c).held = _ := held_setCaller c
    rw [same, assign_apart _ _ (by simp)] at holds
    by_cases here : other = who
    · subst here
      rw [assign_same] at holds
      exact own segment holds
    · rw [assign_apart _ _ (by simp [here])] at holds
      exact (others other segment holds).trans (inv.creator other segment holds)
  idle := inv.idle_assign started

/-- A call that only changes what it has opened of somebody else. -/
theorem Inv.setProbe (inv : s.Inv) {table : Handles Handle} {c : WindowsCaller}
    (tracks : table.Tracks (assign s.held (.probe who) c.phase.probing))
    (publishing : c.phase.publishing = (s.callers who).phase.publishing)
    (started : c.phase ≠ .idle)
    : ({ s with table }.setCaller who c).Inv := by
  refine inv.setCaller ?_ started ?_ fun _ _ _ => rfl
  · have same : s.held (.publisher who) = c.phase.publishing := publishing.symm
    rw [Handles.assign_unchanged same]
    exact tracks
  · exact fun segment holds => inv.creator who segment (publishing.symm.trans holds)

/-- A subscriber goes on. -/
theorem Inv.setAttacher (inv : s.Inv) {table : Handles Handle} {a : Attacher}
    (tracks
      : table.Tracks
          (assign (assign s.held (.attached who) a.attached) (.candidate who) a.phase.candidate))
    : ({ s with table }.setAttacher who a).Inv where
  tracks := by
    have same : ({ s with table }.setAttacher who a).held = _ := held_setAttacher a
    rw [same]
    exact tracks
  creator := inv.creator
  idle := inv.idle

/-- Nothing is held at first, or one handle of some other program. -/
theorem Inv.create (now : UInt64) (foreign : Option Segment) : (create now foreign).Inv := by
  cases foreign with
  | none =>
      refine ⟨⟨fun owner object => ?_, fun owner object holds => ?_, nofun, nofun⟩, nofun,
        fun _ _ => rfl⟩
      · cases owner <;> simp [WindowsName.create, held, WindowsPhase.publishing,
          WindowsPhase.probing, AttachPhase.candidate]
      · cases owner <;> cases holds
  | some object =>
      refine ⟨⟨fun owner object => ?_, fun owner object holds => ?_, fun object found => ?_,
        fun object found => ?_⟩, nofun, fun _ _ => rfl⟩
      · cases owner <;> simp [WindowsName.create, held, WindowsPhase.publishing,
          WindowsPhase.probing, AttachPhase.candidate, eq_comm]
      · cases owner with
        | foreign => exact holds
        | publisher | probe | attached | candidate => cases holds
      · exact ⟨.foreign, found⟩
      · obtain rfl := Option.some.inj found
        exact Nat.one_pos

/-- Whoever publishes in a segment is the only one. -/
theorem Inv.publisher_unique (inv : s.Inv) {other segment second : Nat}
    (here : s.held (.publisher who) = some segment)
    (there : s.held (.publisher other) = some second)
    : other = who ∧ second = segment := by
  obtain rfl := inv.tracks.same here there
  exact ⟨Option.some.inj ((inv.creator other _ there).symm.trans (inv.creator who _ here)), rfl⟩

/-- An operation of a call, by cases on what it does. -/
theorem Inv.access (inv : s.Inv) {fails : Bool} {next : WindowsName}
    (turn : CallTurn s who fails next)
    : next.Inv := by
  cases turn with
  | @stays c publishing probing goes =>
      refine inv.setProbe ?_ publishing goes.started
      have same : s.held (.probe who) = c.phase.probing := probing.symm
      rw [Handles.assign_unchanged same]
      exact inv.tracks
  | shares bound free probing publishing goes =>
      refine inv.setProbe ?_ publishing goes.started
      rw [probing]
      exact inv.tracks.share free bound
  | closes open_ probing publishing goes =>
      refine inv.setProbe ?_ publishing goes.started
      rw [probing]
      exact inv.tracks.close open_
  | creates free probing =>
      refine inv.setCaller ?_ nofun ?_ ?_
      · have same : assign s.held (.publisher who) (some s.table.count) (.probe who) = none :=
          (assign_apart _ _ (by simp)).trans probing
        exact (Handles.assign_unchanged same).symm ▸ inv.tracks.create free
      · intro segment own
        obtain rfl := Option.some.inj own
        exact congrArg Segment.creator (assign_same ..)
      · intro other segment holds
        exact absurd (inv.tracks.one _ _ holds) (by simp [free])
  | @writes segment header c own publishing probing started =>
      have creators (other : Nat)
          : (assign s.segments segment { s.segments segment with header } other).creator
            = (s.segments other).creator := by
        unfold assign
        split
        · rename_i same
          rw [same]
        · rfl
      refine inv.setCaller ?_ started ?_ fun other second _ => creators second
      · have published : s.held (.publisher who) = c.phase.publishing :=
          own.trans publishing.symm
        have probed : s.held (.probe who) = c.phase.probing := probing.symm
        rw [Handles.assign_unchanged published, Handles.assign_unchanged probed]
        exact inv.tracks
      · intro second found
        refine (creators second).trans (inv.creator who second ?_)
        exact own.trans (publishing.symm.trans found)
  | @releases segment c own publishing probing started =>
      refine inv.setCaller ?_ started ?_ fun _ _ _ => rfl
      · have probed : assign s.held (.publisher who) none (.probe who) = c.phase.probing :=
          (assign_apart _ _ (by simp)).trans probing.symm
        rw [publishing, Handles.assign_unchanged probed]
        exact inv.tracks.close own
      · intro second found
        rw [publishing] at found
        cases found

/-- An operation of `try_connect`, by cases on where it stands. -/
theorem Inv.connect (inv : s.Inv) (who : Nat) (fails : Bool) : (s.connect who fails).Inv := by
  -- Whoever only changes the phase, with the same candidate.
  have stays {a : Attacher} (attached : a.attached = (s.attachers who).attached)
      (candidate : a.phase.candidate = (s.attachers who).phase.candidate)
      : (s.setAttacher who a).Inv := by
    refine inv.setAttacher ?_
    have same : s.held (.attached who) = a.attached := attached.symm
    have looking : s.held (.candidate who) = a.phase.candidate := candidate.symm
    rw [Handles.assign_unchanged same, Handles.assign_unchanged looking]
    exact inv.tracks
  unfold WindowsName.connect
  dsimp only
  split
  · rename_i phase
    split
    · rename_i segment bound
      split
      · exact inv
      · refine inv.setAttacher ?_
        have free : s.held (.candidate who) = none := congrArg AttachPhase.candidate phase
        have same : s.held (.attached who) = (s.attachers who).attached := rfl
        rw [Handles.assign_unchanged same]
        exact inv.tracks.share free bound
    · exact inv
  · rename_i segment phase
    split
    · exact stays rfl (by rw [phase]; rfl)
    · exact stays rfl (by rw [phase]; rfl)
  · rename_i segment phase
    split
    · exact stays rfl (by rw [phase]; rfl)
    · exact stays rfl (by rw [phase]; rfl)
  · rename_i segment phase
    split
    · exact stays rfl (by rw [phase]; rfl)
    · exact stays rfl (by rw [phase]; rfl)
  · rename_i segment phase
    refine inv.setAttacher ?_
    have looking : assign s.held (.attached who) none (.candidate who) = some segment :=
      (assign_apart _ _ (by simp)).trans (congrArg AttachPhase.candidate phase)
    have given := (inv.tracks.closeAny (.attached who)).handOver looking (assign_same ..)
    have same
        : assign (assign (assign s.held (.attached who) none) (.candidate who) none) (.attached who)
            (some segment)
          = assign (assign s.held (.attached who) (some segment)) (.candidate who) none := by
      funext handle
      unfold assign
      split_ifs with here there
      · exact absurd (here.symm.trans there) (by simp)
      · rfl
      · rfl
      · rfl
    rw [same] at given
    exact given
  · rename_i segment phase
    refine inv.setAttacher ?_
    have looking : s.held (.candidate who) = some segment :=
      congrArg AttachPhase.candidate phase
    have same : s.held (.attached who) = (s.attachers who).attached := rfl
    rw [Handles.assign_unchanged same]
    exact inv.tracks.close looking

/-- One step, by cases on the action. -/
theorem Inv.step (inv : s.Inv) {action : WindowsAction} {next : WindowsName}
    (stepped : s.step action = some next)
    : next.Inv := by
  cases action with
  | tick now =>
      unfold WindowsName.step at stepped
      dsimp only at stepped
      split at stepped
      · cases stepped
        exact ⟨inv.tracks, inv.creator, inv.idle⟩
      · cases stepped
  | start who cfg =>
      unfold WindowsName.step WindowsName.start at stepped
      dsimp only at stepped
      split at stepped
      · rename_i phase
        cases stepped
        refine inv.setProbe ?_ ?_ ?_
        · have same : s.held (.probe who) = none := congrArg WindowsPhase.probing phase
          split <;> exact (Handles.assign_unchanged same).symm ▸ inv.tracks
        · rw [phase]
          split <;> rfl
        · split <;> exact fun impossible => by cases impossible
      · cases stepped
  | access who session fails => exact inv.access (access_turn stepped)
  | heartbeat who =>
      unfold WindowsName.step at stepped
      dsimp only at stepped
      split at stepped
      · rename_i segment phase
        cases stepped
        refine inv.setProbe ?_ (by rw [phase]; rfl) fun impossible => by cases impossible
        have same : s.held (.probe who) = none := congrArg WindowsPhase.probing phase
        exact (Handles.assign_unchanged same).symm ▸ inv.tracks
      · cases stepped
  | destroy who =>
      unfold WindowsName.step at stepped
      dsimp only at stepped
      split at stepped
      · rename_i segment phase
        cases stepped
        refine inv.setProbe ?_ (by rw [phase]; rfl) fun impossible => by cases impossible
        have same : s.held (.probe who) = none := congrArg WindowsPhase.probing phase
        exact (Handles.assign_unchanged same).symm ▸ inv.tracks
      · cases stepped
  | crash who =>
      cases stepped
      have probing
          : assign s.held (.publisher who) none (.probe who) = (s.callers who).phase.probing :=
        assign_apart _ _ (by simp)
      have released := (inv.tracks.closeAny (.publisher who)).closeAny (.probe who)
      rw [probing] at released
      exact inv.setCaller released (by simp) (by simp [WindowsPhase.publishing]) fun _ _ _ => rfl
  | connect who fails =>
      cases stepped
      exact inv.connect who fails
  | detach who =>
      unfold WindowsName.step at stepped
      dsimp only at stepped
      split at stepped
      · rename_i segment phase attached
        cases stepped
        refine inv.setAttacher ?_
        have looking : assign s.held (.attached who) none (.candidate who) = none :=
          (assign_apart _ _ (by simp)).trans (congrArg AttachPhase.candidate phase)
        exact (Handles.assign_unchanged looking).symm ▸ inv.tracks.close attached
      · cases stepped
  | crashAttacher who =>
      cases stepped
      have looking : assign s.held (.attached who) none (.candidate who)
          = (s.attachers who).phase.candidate :=
        assign_apart _ _ (by simp)
      have released := (inv.tracks.closeAny (.attached who)).closeAny (.candidate who)
      rw [looking] at released
      exact inv.setAttacher released
  | foreignExit =>
      unfold WindowsName.step at stepped
      dsimp only at stepped
      split at stepped
      · rename_i present
        cases stepped
        have holds : s.held .foreign = some 0 := if_pos present
        have without : { s.close .foreign 0 with foreign := false }.held
            = assign s.held .foreign none := by
          funext handle
          cases handle <;> rfl
        refine ⟨without.symm ▸ inv.tracks.close holds, inv.creator, inv.idle⟩
      · cases stepped

/-- A subscriber does nothing to a call of `create`. -/
theorem connect_callers (who : Nat) (fails : Bool) : (s.connect who fails).callers = s.callers := by
  unfold WindowsName.connect
  dsimp only
  split
  · split
    · split <;> rfl
    · rfl
  · split <;> rfl
  · split <;> rfl
  · split <;> rfl
  · rfl
  · rfl

end WindowsName
end ShmFrame.Names
