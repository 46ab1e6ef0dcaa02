import ShmFrame.Names.Create

/-! When a live publisher keeps its name. Judging, unlinking and creating anew are separate
operations, so a contender may judge a segment before its header is complete, or unlink a
segment it never judged; apart from that the name stays where it is.
-/

namespace ShmFrame.Names

open ShmFrame.Foundation

-----------------------------------------------------------------------------------------
-- The condition
-----------------------------------------------------------------------------------------

/-- The call that bound the name to the segment is still initialising it. -/
def NameState.Initialising (s : NameState) (segment : Nat) : Prop :=
  ∃ who ∈ (s.segments segment).creator, (s.callers who).phase.initialising = some segment

/-- The segment belongs to a publisher that is being created or is live. -/
def NameState.InUse (s : NameState) (segment : Nat) : Prop :=
  ∃ who ∈ (s.segments segment).creator, (s.callers who).phase.using = some segment

instance (s : NameState) (segment : Nat) : Decidable (s.Initialising segment) :=
  inferInstanceAs (Decidable (∃ who ∈ _, _))

instance (s : NameState) (segment : Nat) : Decidable (s.InUse segment) :=
  inferInstanceAs (Decidable (∃ who ∈ _, _))

/-- The condition on the next operation of a call: no header is validated while it is being
initialised, and what is unlinked is the segment that was judged, or the caller's own, or
in nobody's use.
-/
def SoundPhase (s : NameState) : CreatePhase → Prop
  | .validate segment => ¬ s.Initialising segment
  | .unlink judged => ∀ segment ∈ s.bound, judged = some segment ∨ ¬ s.InUse segment
  | .unlinkOwn own => ∀ segment ∈ s.bound, own = segment ∨ ¬ s.InUse segment
  | _ => True

instance (s : NameState) : (phase : CreatePhase) → Decidable (SoundPhase s phase)
  | .validate segment => inferInstanceAs (Decidable (¬ s.Initialising segment))
  | .unlink judged =>
      inferInstanceAs (Decidable (∀ segment ∈ s.bound, judged = some segment ∨ ¬ s.InUse segment))
  | .unlinkOwn own =>
      inferInstanceAs (Decidable (∀ segment ∈ s.bound, own = segment ∨ ¬ s.InUse segment))
  | .idle | .firstCreate | .openExisting | .age _ | .secondCreate => isTrue True.intro
  | .initialise _ | .storeMagic _ | .live _ | .storeBeat _ _ => isTrue True.intro
  | .storeShutdown _ | .gone => isTrue True.intro

/-- The condition on a step. -/
def Sound (s : NameState) : CreateAction → Prop
  | .access who _ _ => SoundPhase s (s.callers who).phase
  | _ => True

instance (s : NameState) : (action : CreateAction) → Decidable (Sound s action)
  | .access who _ _ => inferInstanceAs (Decidable (SoundPhase s (s.callers who).phase))
  | .tick _ | .start _ _ | .heartbeat _ | .destroy _ | .crash _ => isTrue True.intro

/-- A call that judges the segment by its age finds a heartbeat younger than its limit. -/
def Fresh (segment : Nat) (s : NameState) : CreateAction → Prop
  | .access who _ _ =>
      (s.callers who).phase = .age segment
      → s.clock - (s.segments segment).header.lastHeartbeatNs < (s.callers who).staleNs
  | _ => True

instance (segment : Nat) (s : NameState)
    : (action : CreateAction) → Decidable (Fresh segment s action)
  | .access who _ _ =>
      inferInstanceAs
        (Decidable
          ((s.callers who).phase = .age segment
            → s.clock - (s.segments segment).header.lastHeartbeatNs
              < (s.callers who).staleNs))
  | .tick _ | .start _ _ | .heartbeat _ | .destroy _ | .crash _ => isTrue True.intro

-----------------------------------------------------------------------------------------
-- What every caller knows
-----------------------------------------------------------------------------------------

/-- The segment a call has bound the name to. -/
def CreatePhase.owning : CreatePhase → Option Nat
  | .initialise segment | .storeMagic segment | .live segment | .storeBeat segment _ => some segment
  | .storeShutdown segment | .unlinkOwn segment => some segment
  | _ => none

/-- The segment of somebody else a call has come across. -/
def CreatePhase.seen : CreatePhase → Option Nat
  | .validate segment | .age segment | .unlink (some segment) => some segment
  | _ => none

/-- What a call knows about the segments there are. -/
structure CallerInv (segments : Nat → Segment) (count who : Nat) (c : Caller) : Prop where
  accepted : c.phase ≠ .idle → c.phase ≠ .gone → c.cfg.accepted = true
  seen : ∀ segment, c.phase.seen = some segment → segment < count
  owned
    : ∀ segment,
        c.phase.owning = some segment
        → segment < count
          ∧ (segments segment).creator = some who
          ∧ (segments segment).size = (computeLayout c.cfg).totalSize
  written
    : ∀ segment,
        c.phase = .storeMagic segment
        → ∃ session now, (segments segment).header = .initialise c.cfg session now

/-- What holds between the steps of a sound run: the name is bound to the segment that is
being initialised, if there is one, and nobody has given up on that one.
-/
structure NameInv (s : NameState) : Prop where
  callers : ∀ who, CallerInv s.segments s.count who (s.callers who)
  bound : ∀ segment ∈ s.bound, segment < s.count
  named
    : ∀ who segment, (s.callers who).phase.initialising = some segment → s.bound = some segment
  spared
    : ∀ who other segment,
        (s.callers who).phase.examined = some segment
        → (s.callers other).phase.initialising ≠ some segment

/-- A caller that is done knows nothing any more. -/
theorem CallerInv.gone {segments : Nat → Segment} {count who : Nat} {c : Caller}
    (phase : c.phase = .gone)
    : CallerInv segments count who c where
  accepted := fun _ running => absurd phase running
  seen := fun segment seen => by simp [phase, CreatePhase.seen] at seen
  owned := fun segment owns => by simp [phase, CreatePhase.owning] at owns
  written := fun segment storing => by simp [phase] at storing

/-- A caller that never called knows nothing yet. -/
theorem CallerInv.idle {segments : Nat → Segment} {count who : Nat}
    : CallerInv segments count who {} where
  accepted := fun idle => absurd rfl idle
  seen := fun segment seen => by simp [CreatePhase.seen] at seen
  owned := fun segment owns => by simp [CreatePhase.owning] at owns
  written := fun segment storing => by simp at storing

/-- A change of phase that acquires nothing keeps what a caller knows. -/
theorem CallerInv.goTo {segments : Nat → Segment} {count who : Nat} {c : Caller}
    (inv : CallerInv segments count who c) (running : c.phase ≠ .idle ∧ c.phase ≠ .gone)
    {phase : CreatePhase}
    (seen : ∀ segment, phase.seen = some segment → segment < count)
    (owning : ∀ segment, phase.owning = some segment → c.phase.owning = some segment)
    (storing : ∀ segment, phase ≠ .storeMagic segment)
    (status : Option LLStatus)
    : CallerInv segments count who { c with phase, status } where
  accepted := fun _ _ => inv.accepted running.1 running.2
  seen := seen
  owned := fun segment owns => inv.owned segment (owning segment owns)
  written := fun segment stores => absurd stores (storing segment)

/-- Moves that leave name and headers alone keep what a caller knows. -/
theorem CallerInv.move {s : NameState} {who : Nat} {c after : Caller}
    (inv : CallerInv s.segments s.count who c) (bound : ∀ segment ∈ s.bound, segment < s.count)
    (moved : CallerMove s c after)
    : CallerInv s.segments s.count who after := by
  cases moved with
  | failed => exact .gone rfl
  | present phase =>
      exact inv.goTo (by simp [phase]) (by simp [CreatePhase.seen])
        (by simp [CreatePhase.owning]) (by simp) c.status
  | @mapped segment phase there =>
      refine inv.goTo (by simp [phase]) (fun other seen => ?_)
        (by simp [CreatePhase.owning]) (by simp) c.status
      obtain rfl : segment = other := by simpa [CreatePhase.seen] using seen
      exact bound segment there
  | unmapped phase =>
      exact inv.goTo (by simp [phase]) (by simp [CreatePhase.seen])
        (by simp [CreatePhase.owning]) (by simp) c.status
  | @valid segment layout phase | @invalid segment phase | @abandoned segment phase =>
      refine inv.goTo (by simp [phase]) (fun other seen => inv.seen other ?_)
        (by simp [CreatePhase.owning]) (by simp) c.status
      simpa [phase, CreatePhase.seen] using seen

/-- Segments keep their creators and sizes, and new ones only come on top. -/
structure Grows (segments after : Nat → Segment) (count more : Nat) : Prop where
  more : count ≤ more
  creator : ∀ segment < count, (after segment).creator = (segments segment).creator
  size : ∀ segment < count, (after segment).size = (segments segment).size

/-- What a caller knows survives the growth of the segments unless its header is changed. -/
theorem CallerInv.grow {segments after : Nat → Segment} {count more who : Nat} {c : Caller}
    (inv : CallerInv segments count who c) (grows : Grows segments after count more)
    (header
      : ∀ segment,
          c.phase = .storeMagic segment
          → (after segment).header = (segments segment).header)
    : CallerInv after more who c where
  accepted := inv.accepted
  seen := fun segment seen => (inv.seen segment seen).trans_le grows.more
  owned := fun segment owns => by
    obtain ⟨inside, creator, size⟩ := inv.owned segment owns
    exact ⟨inside.trans_le grows.more, (grows.creator segment inside).trans creator,
      (grows.size segment inside).trans size⟩
  written := fun segment storing => by
    rw [header segment storing]
    exact inv.written segment storing

/-- Overwriting a header leaves creators and sizes alone. -/
theorem Grows.setHeader (s : NameState) (segment : Nat) (header : LLHeader)
    : Grows s.segments (s.setHeader segment header).segments s.count s.count where
  more := Nat.le_refl _
  creator := fun other _ => by
    by_cases same : other = segment
    · subst same
      simp [NameState.setHeader]
    · simp [NameState.setHeader, assign_apart _ _ same]
  size := fun other _ => by
    by_cases same : other = segment
    · subst same
      simp [NameState.setHeader]
    · simp [NameState.setHeader, assign_apart _ _ same]

/-- So does binding the name to a fresh segment. -/
theorem Grows.bindFresh (s : NameState) (who : Nat)
    : Grows s.segments (s.bindFresh who).segments s.count (s.count + 1) where
  more := Nat.le_succ _
  creator := fun other inside => by
    simp [NameState.bindFresh, assign_apart _ _ (Nat.ne_of_lt inside)]
  size := fun other inside => by
    simp [NameState.bindFresh, assign_apart _ _ (Nat.ne_of_lt inside)]

-----------------------------------------------------------------------------------------
-- Every sound step keeps the invariant
-----------------------------------------------------------------------------------------

/-- At the start nobody has called yet. -/
theorem NameInv.create (now : UInt64) (foreign : Option Segment)
    : NameInv (.create now foreign) := by
  have nobody (who : Nat) : (NameState.create now foreign).callers who = {} := by
    cases foreign <;> rfl
  refine ⟨fun who => ?_, fun segment there => ?_, fun who segment starts => ?_,
    fun who other segment judged => ?_⟩
  · rw [nobody]
    exact .idle
  · cases foreign with
    | none => simp [NameState.create] at there
    | some object =>
        obtain rfl : 0 = segment := by simpa [NameState.create] using there
        exact Nat.zero_lt_one
  · simp [nobody, CreatePhase.initialising] at starts
  · simp [nobody, CreatePhase.examined] at judged

/-- A call that is initialising a segment uses it. -/
theorem CreatePhase.using_of_initialising {phase : CreatePhase} {segment : Nat}
    (starts : phase.initialising = some segment)
    : phase.using = some segment := by
  cases phase <;> simp_all [CreatePhase.initialising, CreatePhase.using]

/-- A call only uses the segment it has bound the name to. -/
theorem CreatePhase.owning_of_using {phase : CreatePhase} {segment : Nat}
    (used : phase.using = some segment)
    : phase.owning = some segment := by
  cases phase <;> simp_all [CreatePhase.using, CreatePhase.owning]

/-- A call that has bound the name to a segment has had its configuration accepted. -/
theorem CallerInv.accepted_of_owning {segments : Nat → Segment} {count who segment : Nat}
    {c : Caller} (inv : CallerInv segments count who c)
    (owns : c.phase.owning = some segment)
    : c.cfg.accepted = true := by
  refine inv.accepted ?_ ?_
  · intro idle
    simp [idle, CreatePhase.owning] at owns
  · intro gone
    simp [gone, CreatePhase.owning] at owns

/-- Nobody initialises a segment whose creator does not. -/
theorem NameInv.not_initialising {s : NameState} (inv : NameInv s) {segment : Nat}
    (settled : ¬ s.Initialising segment) (other : Nat)
    : (s.callers other).phase.initialising ≠ some segment := by
  intro starts
  have used := CreatePhase.using_of_initialising starts
  obtain ⟨-, creator, -⟩ :=
    (inv.callers other).owned segment (CreatePhase.owning_of_using used)
  exact settled ⟨other, creator, starts⟩

/-- A step that replaces one caller, lets the segments grow and possibly rebinds the name
keeps the invariant, if the new caller fits the others.
-/
theorem NameInv.replace {s next : NameState} {who : Nat} {c : Caller} (inv : NameInv s)
    (callers : next.callers = assign s.callers who c)
    (grows : Grows s.segments next.segments s.count next.count)
    (header
      : ∀ other segment,
          other ≠ who
          → (s.callers other).phase = .storeMagic segment
          → (next.segments segment).header = (s.segments segment).header)
    (known : CallerInv next.segments next.count who c)
    (bound : ∀ segment ∈ next.bound, segment < next.count)
    (named : ∀ segment, c.phase.initialising = some segment → next.bound = some segment)
    (others
      : ∀ other segment,
          other ≠ who
          → (s.callers other).phase.initialising = some segment
          → next.bound = some segment)
    (judged
      : ∀ segment,
          c.phase.examined = some segment
          → ∀ other, (s.callers other).phase.initialising ≠ some segment)
    (spared
      : ∀ segment,
          c.phase.initialising = some segment
          → ∀ other, (s.callers other).phase.examined ≠ some segment)
    : NameInv next where
  callers := by
    rw [callers]
    exact forall_assign known fun other apart =>
      (inv.callers other).grow grows fun segment => header other segment apart
  bound := bound
  named := by
    rw [callers]
    exact @forall_assign _ _ _ s.callers who c
      (fun _ c => ∀ segment, c.phase.initialising = some segment → next.bound = some segment)
      named fun other apart segment => others other segment apart
  spared := by
    rw [callers]
    intro judge other segment judging starting
    by_cases self : judge = who
    · subst self
      rw [assign_same] at judging
      by_cases same : other = judge
      · subst same
        rw [assign_same] at starting
        revert judging starting
        cases c.phase <;> simp [CreatePhase.examined, CreatePhase.initialising]
      · rw [assign_apart _ _ same] at starting
        exact judged segment judging other starting
    · rw [assign_apart _ _ self] at judging
      by_cases same : other = who
      · subst same
        rw [assign_same] at starting
        exact spared segment starting judge judging
      · rw [assign_apart _ _ same] at starting
        exact inv.spared judge other segment judging starting

/-- A step that changes neither name nor segments keeps the invariant. -/
theorem NameInv.setCaller {s : NameState} {who : Nat} {c : Caller} (inv : NameInv s)
    (known : CallerInv s.segments s.count who c) (quiet : c.phase.initialising = none)
    (judged
      : ∀ segment,
          c.phase.examined = some segment
          → ∀ other, (s.callers other).phase.initialising ≠ some segment)
    : NameInv (s.setCaller who c) :=
  inv.replace rfl ⟨Nat.le_refl _, fun _ _ => rfl, fun _ _ => rfl⟩ (fun _ _ _ _ => rfl) known
    inv.bound (fun segment starts => by simp [quiet] at starts)
    (fun other segment _ => inv.named other segment) judged
    (fun segment starts => by simp [quiet] at starts)

/-- An operation that changes neither name nor header keeps the invariant. -/
theorem NameInv.callerMove {s : NameState} {who : Nat} {c : Caller} (inv : NameInv s)
    (sound : SoundPhase s (s.callers who).phase) (moved : CallerMove s (s.callers who) c)
    : NameInv (s.setCaller who c) := by
  have known := (inv.callers who).move inv.bound moved
  cases moved with
  | @valid segment layout phase | @invalid segment phase =>
      rw [phase] at sound
      refine inv.setCaller known rfl fun other judged => ?_
      obtain rfl : segment = other := by simpa [CreatePhase.examined] using judged
      exact inv.not_initialising sound
  | @abandoned segment phase =>
      refine inv.setCaller known rfl fun other judged another => ?_
      exact inv.spared who another other (by simpa [phase, CreatePhase.examined] using judged)
  | _ => exact inv.setCaller known rfl (by simp [CreatePhase.examined, Caller.fail])

/-- Binding the free name to a fresh segment keeps the invariant. -/
theorem NameInv.bindFresh {s : NameState} {who : Nat} (inv : NameInv s)
    (phase : (s.callers who).phase = .firstCreate ∨ (s.callers who).phase = .secondCreate)
    (free : s.bound = none)
    : NameInv (s.bindFresh who) := by
  have running : (s.callers who).phase ≠ .idle ∧ (s.callers who).phase ≠ .gone := by
    rcases phase with first | second
    · simp [first]
    · simp [second]
  have known := inv.callers who
  refine inv.replace rfl (Grows.bindFresh s who) (fun other segment apart storing => ?_) ?_
    (fun segment there => ?_) (fun segment starts => ?_) (fun other segment _ starts => ?_)
    (fun segment judged => ?_) (fun segment starts other judged => ?_)
  · obtain ⟨inside, -⟩ :=
      (inv.callers other).owned segment (by rw [storing]; rfl)
    exact congrArg Segment.header (assign_apart _ _ (Nat.ne_of_lt inside))
  · exact {
      accepted := fun _ _ => known.accepted running.1 running.2
      seen := fun segment seen => by simp [CreatePhase.seen] at seen
      owned := fun segment owns => by
        obtain rfl : s.count = segment := by simpa [CreatePhase.owning] using owns
        simp [NameState.bindFresh]
      written := fun segment storing => by simp at storing
    }
  · obtain rfl : s.count = segment := by simpa [NameState.bindFresh] using there
    exact Nat.lt_succ_self _
  · obtain rfl : s.count = segment := by simpa [CreatePhase.initialising] using starts
    rfl
  · have bound := inv.named other segment starts
    rw [free] at bound
    cases bound
  · simp [CreatePhase.examined] at judged
  · obtain rfl : s.count = segment := by simpa [CreatePhase.initialising] using starts
    have seen : (s.callers other).phase.seen = some s.count := by
      revert judged
      cases (s.callers other).phase with
      | unlink judged => cases judged <;> simp [CreatePhase.examined, CreatePhase.seen]
      | _ => simp [CreatePhase.examined, CreatePhase.seen]
    exact absurd ((inv.callers other).seen _ seen) (Nat.lt_irrefl _)

/-- Writing to the own header keeps the invariant. -/
theorem NameInv.headerMove {s : NameState} {who segment : Nat} {header : LLHeader}
    {c : Caller} (inv : NameInv s) (moved : HeaderMove s (s.callers who) segment header c)
    : NameInv ((s.setHeader segment header).setCaller who c) := by
  have known := inv.callers who
  have owns : (s.callers who).phase.owning = some segment := by
    cases moved <;> simp_all [CreatePhase.owning]
  obtain ⟨inside, creator, size⟩ := known.owned segment owns
  have grows := Grows.setHeader s segment header
  have kept (other : Nat) : c.phase.initialising = some other
      → (s.callers who).phase.initialising = some other := by
    cases moved <;> simp_all [CreatePhase.initialising]
  refine inv.replace rfl grows (fun other target apart storing => ?_) ?_ inv.bound
    (fun target starts => inv.named who target (kept target starts))
    (fun other target _ => inv.named other target)
    (fun target judged => by cases moved <;> simp [CreatePhase.examined] at judged)
    (fun target starts other judged =>
      inv.spared other who target judged (kept target starts))
  · obtain ⟨-, another, -⟩ := (inv.callers other).owned target (by rw [storing]; rfl)
    have distinct : target ≠ segment := by
      intro same
      subst same
      exact apart (Option.some.inj (another.symm.trans creator))
    exact congrArg Segment.header (assign_apart _ _ distinct)
  · have here (target : Nat) (own : (s.callers who).phase.owning = some target)
        : target < s.count
          ∧ ((s.setHeader segment header).segments target).creator = some who
          ∧ ((s.setHeader segment header).segments target).size
            = (computeLayout (s.callers who).cfg).totalSize := by
      obtain ⟨inside, creator, size⟩ := known.owned target own
      exact ⟨inside, (grows.creator target inside).trans creator,
        (grows.size target inside).trans size⟩
    have running := known.accepted_of_owning owns
    cases moved with
    | @initialise session phase =>
        exact {
          accepted := fun _ _ => running
          seen := fun target seen => by simp [CreatePhase.seen] at seen
          owned := fun target own => here target (by simpa [phase, CreatePhase.owning] using own)
          written := fun target storing => by
            obtain rfl : segment = target := by simpa using storing
            exact ⟨session, s.clock, congrArg Segment.header (assign_same _ _ _)⟩
        }
    | storeMagic phase | storeBeat phase | storeShutdown phase =>
        exact {
          accepted := fun _ _ => running
          seen := fun target seen => by simp [CreatePhase.seen] at seen
          owned := fun target own => here target (by simpa [phase, CreatePhase.owning] using own)
          written := fun target storing => by simp at storing
        }

/-- Unlinking keeps the invariant where the condition holds: nobody is initialising a
segment then.
-/
theorem NameInv.unlinkMove {s : NameState} {who : Nat} {c : Caller} (inv : NameInv s)
    (sound : SoundPhase s (s.callers who).phase) (moved : UnlinkMove (s.callers who) c)
    : NameInv { s.setCaller who c with bound := none } := by
  have known := inv.callers who
  have nobody (other segment : Nat)
      : (s.callers other).phase.initialising ≠ some segment := by
    intro starts
    have bound := inv.named other segment starts
    have using_ := CreatePhase.using_of_initialising starts
    obtain ⟨-, creator, -⟩ :=
      (inv.callers other).owned segment (CreatePhase.owning_of_using using_)
    have used : s.InUse segment := ⟨other, creator, using_⟩
    cases moved with
    | @reclaim judged phase =>
        rw [phase] at sound
        rcases sound segment bound with same | unused
        · exact inv.spared who other segment (by simp [phase, same, CreatePhase.examined]) starts
        · exact unused used
    | @own mine phase =>
        rw [phase] at sound
        rcases sound segment bound with same | unused
        · subst same
          obtain ⟨-, mine, -⟩ := known.owned _ (by rw [phase]; rfl)
          obtain rfl := Option.some.inj (mine.symm.trans creator)
          simp [phase, CreatePhase.initialising] at starts
        · exact unused used
  have quiet : c.phase.initialising = none := by cases moved <;> rfl
  refine inv.replace rfl ⟨Nat.le_refl _, fun _ _ => rfl, fun _ _ => rfl⟩ (fun _ _ _ _ => rfl)
    ?_ (fun segment there => by simp at there) (fun segment starts => by simp [quiet] at starts)
    (fun other segment _ starts => absurd starts (nobody other segment))
    (fun segment judged other => nobody other segment)
    (fun segment starts => by simp [quiet] at starts)
  cases moved with
  | reclaim phase =>
      exact known.goTo (by simp [phase]) (by simp [CreatePhase.seen])
        (by simp [CreatePhase.owning]) (by simp) _
  | own phase => exact .gone rfl

/-- Every sound step keeps the invariant, by cases on the move. -/
theorem NameInv.step {s next : NameState} {action : CreateAction} (inv : NameInv s)
    (sound : Sound s action) (stepped : s.step action = some next)
    : NameInv next := by
  cases NameState.step_cases stepped with
  | tick later => exact ⟨inv.callers, inv.bound, inv.named, inv.spared⟩
  | @start who cfg phase accepted =>
      refine inv.setCaller ?_ rfl (by simp [CreatePhase.examined])
      exact {
        accepted := fun _ _ => accepted
        seen := fun segment seen => by simp [CreatePhase.seen] at seen
        owned := fun segment owns => by simp [CreatePhase.owning] at owns
        written := fun segment storing => by simp at storing
      }
  | refused phase =>
      exact inv.setCaller (.gone rfl) rfl (by simp [Caller.fail, CreatePhase.examined])
  | @sampleBeat who segment phase | @destroy who segment phase =>
      refine inv.setCaller ?_ rfl (by simp [CreatePhase.examined])
      exact (inv.callers who).goTo (by simp [phase]) (by simp [CreatePhase.seen])
        (by simp [phase, CreatePhase.owning]) (by simp) _
  | caller moved => exact inv.callerMove sound moved
  | crash => exact inv.setCaller (.gone rfl) rfl (by simp [CreatePhase.examined])
  | bindFresh phase free => exact inv.bindFresh phase free
  | header moved => exact inv.headerMove moved
  | unlink moved => exact inv.unlinkMove sound moved

-----------------------------------------------------------------------------------------
-- From the return of create on
-----------------------------------------------------------------------------------------

/-- What holds from the moment `create` has returned a publisher that stays alive and fresh:
its segment keeps the name, is described by its header, and nobody has given up on it; and
no other call has returned a publisher since.
-/
structure Kept (returned : Nat → Option LLStatus) (who segment : Nat) (s : NameState)
    : Prop where
  bound : s.bound = some segment
  using_ : (s.callers who).phase.using = some segment
  describes : (s.segments segment).header.Describes (s.callers who).cfg
  running : (s.segments segment).header.shutdown = 0
  alone : ∀ other, (s.callers other).phase.initialising = none
  spared : ∀ other, (s.callers other).phase ≠ .unlink (some segment)
  settled : ∀ other, (s.callers other).status = some .ok → returned other = some .ok

namespace Kept

variable {returned : Nat → Option LLStatus} {who segment : Nat} {s next : NameState}

/-- The store of the magic establishes it. -/
theorem of_return (inv : NameInv s) (phase : (s.callers who).phase = .storeMagic segment)
    {session : UInt64} {fails : Bool}
    (stepped : s.step (.access who session fails) = some next)
    : Kept (fun other => (next.callers other).status) who segment next := by
  have starts : (s.callers who).phase.initialising = some segment := by
    rw [phase]
    rfl
  have bound := inv.named who segment starts
  have known := inv.callers who
  obtain ⟨-, creator, -⟩ := known.owned segment (by rw [phase]; rfl)
  obtain ⟨session', now, written⟩ := known.written segment phase
  obtain rfl
      : (s.setHeader segment { (s.segments segment).header with magic := kMagic }).setCaller who
          { s.callers who with phase := .live segment, status := some .ok } = next := by
    simpa [NameState.step, NameState.access, phase] using stepped
  have others (other : Nat) (apart : other ≠ who)
      : (s.callers other).phase.initialising = none := by
    cases also : (s.callers other).phase.initialising with
    | none => rfl
    | some target =>
        obtain rfl : segment = target :=
          Option.some.inj (bound.symm.trans (inv.named other target also))
        have used := CreatePhase.using_of_initialising also
        obtain ⟨-, another, -⟩ :=
          (inv.callers other).owned segment (CreatePhase.owning_of_using used)
        exact absurd (Option.some.inj (another.symm.trans creator)) apart
  refine ⟨bound, ?_, ?_, ?_, ?_, ?_, fun _ ok => ok⟩
  · simp [NameState.setCaller, CreatePhase.using]
  · refine ⟨session', ?_⟩
    simp [NameState.setCaller, NameState.setHeader, written, LLHeader.initialise]
  · simp [NameState.setCaller, NameState.setHeader, written, LLHeader.initialise]
  · exact @forall_assign _ _ _ s.callers who _ (fun _ c => c.phase.initialising = none) rfl
      others
  · refine @forall_assign _ _ _ s.callers who _ (fun _ c => c.phase ≠ .unlink (some segment))
      (by simp) fun other _ judged => ?_
    exact inv.spared other who segment (by rw [judged]; rfl) starts

/-- Another caller may be replaced by one that initialises nothing, has not given up on the
segment and has not newly returned a publisher.
-/
theorem setCaller (kept : Kept returned who segment s) {other : Nat} {c : Caller}
    (apart : other ≠ who)
    (quiet : c.phase.initialising = none) (spares : c.phase ≠ .unlink (some segment))
    (settled : c.status = some .ok → (s.callers other).status = some .ok)
    : Kept returned who segment (s.setCaller other c) := by
  have same : (s.setCaller other c).callers who = s.callers who :=
    assign_apart _ _ (Ne.symm apart)
  refine ⟨kept.bound, ?_, ?_, kept.running, ?_, ?_, ?_⟩
  · rw [same]
    exact kept.using_
  · rw [same]
    exact kept.describes
  · exact @forall_assign _ _ _ s.callers other c (fun _ c => c.phase.initialising = none) quiet
      fun party _ => kept.alone party
  · exact @forall_assign _ _ _ s.callers other c (fun _ c => c.phase ≠ .unlink (some segment))
      spares fun party _ => kept.spared party
  · exact @forall_assign _ _ _ s.callers other c
      (fun party c => c.status = some .ok → returned party = some .ok)
      (fun ok => kept.settled other (settled ok)) fun party _ => kept.settled party

/-- The publisher's own caller may be replaced by one that keeps using the segment. -/
theorem setOwn (kept : Kept returned who segment s) {phase : CreatePhase}
    (using_ : phase.using = some segment) (quiet : phase.initialising = none)
    : Kept returned who segment (s.setCaller who { s.callers who with phase }) := by
  have same : (s.setCaller who { s.callers who with phase }).callers who
      = { s.callers who with phase } :=
    assign_same _ _ _
  refine ⟨kept.bound, ?_, ?_, kept.running, ?_, ?_, ?_⟩
  · rw [same]
    exact using_
  · rw [same]
    exact kept.describes
  · exact @forall_assign _ _ _ s.callers who _ (fun _ c => c.phase.initialising = none) quiet
      fun party _ => kept.alone party
  · refine @forall_assign _ _ _ s.callers who _ (fun _ c => c.phase ≠ .unlink (some segment))
      (fun judged => ?_) fun party _ => kept.spared party
    have judged : phase = .unlink (some segment) := judged
    simp [judged, CreatePhase.using] at using_
  · exact @forall_assign _ _ _ s.callers who _
      (fun party c => c.status = some .ok → returned party = some .ok)
      (kept.settled who) fun party _ => kept.settled party

/-- A caller in a phase that uses no segment is another one. -/
theorem apart (kept : Kept returned who segment s) {other : Nat}
    (unused : (s.callers other).phase.using = none)
    : other ≠ who := by
  rintro rfl
  have used := kept.using_
  rw [unused] at used
  cases used

/-- Another caller has bound the name to another segment. -/
theorem distinct (kept : Kept returned who segment s) (inv : NameInv s) {other target : Nat}
    (apart : other ≠ who) (owns : (s.callers other).phase.owning = some target)
    : target ≠ segment := by
  rintro rfl
  obtain ⟨-, theirs, -⟩ := (inv.callers other).owned target owns
  obtain ⟨-, ours, -⟩ :=
    (inv.callers who).owned target (CreatePhase.owning_of_using kept.using_)
  exact apart (Option.some.inj (theirs.symm.trans ours))

/-- A header that still describes a running publisher may be stored. -/
theorem setHeader (kept : Kept returned who segment s) {target : Nat} {header : LLHeader}
    (harmless
      : target = segment
        → header.Describes (s.callers who).cfg
          ∧ header.shutdown = (s.segments target).header.shutdown)
    : Kept returned who segment (s.setHeader target header) := by
  have fields
      : ((s.setHeader target header).segments segment).header.Describes (s.callers who).cfg
        ∧ ((s.setHeader target header).segments segment).header.shutdown = 0 := by
    by_cases same : segment = target
    · subst same
      obtain ⟨describes, shutdown⟩ := harmless rfl
      have stored
          : (s.setHeader segment header).segments segment
            = { s.segments segment with header } :=
        assign_same _ _ _
      rw [stored]
      exact ⟨describes, shutdown.trans kept.running⟩
    · have untouched
          : (s.setHeader target header).segments segment = s.segments segment :=
        assign_apart _ _ same
      rw [untouched]
      exact ⟨kept.describes, kept.running⟩
  exact ⟨kept.bound, kept.using_, fields.1, fields.2, kept.alone, kept.spared, kept.settled⟩

/-- An operation that changes neither name nor header keeps it while the heartbeat is fresh. -/
theorem callerMove (kept : Kept returned who segment s) (inv : NameInv s) {other : Nat}
    {c : Caller}
    (fresh
      : (s.callers other).phase = .age segment
        → s.clock - (s.segments segment).header.lastHeartbeatNs < (s.callers other).staleNs)
    (moved : CallerMove s (s.callers other) c)
    : Kept returned who segment (s.setCaller other c) := by
  cases moved with
  | failed unused failed =>
      exact kept.setCaller (kept.apart unused) rfl (by simp [Caller.fail])
        (fun ok => absurd (Option.some.inj ok) failed)
  | present phase | mapped phase | unmapped phase | valid phase =>
      exact kept.setCaller (kept.apart (by rw [phase]; rfl)) rfl (by simp) id
  | @invalid target phase rejected =>
      refine kept.setCaller (kept.apart (by rw [phase]; rfl)) rfl (fun judged => ?_) id
      obtain rfl : target = segment := by simpa using judged
      have known := inv.callers who
      have owns := CreatePhase.owning_of_using kept.using_
      have validates := kept.describes.validates (known.accepted_of_owning owns)
      rw [(known.owned target owns).2.2, validates] at rejected
      cases rejected
  | @abandoned target phase dead =>
      refine kept.setCaller (kept.apart (by rw [phase]; rfl)) rfl (fun judged => ?_) id
      obtain rfl : target = segment := by simpa using judged
      rcases dead with shut | stale
      · exact shut kept.running
      · exact UInt64.not_lt.mpr stale (fresh phase)

/-- Every sound step keeps it while the heartbeat is fresh and the publisher is neither
destroyed nor crashes, by cases on the move.
-/
theorem step (kept : Kept returned who segment s) (inv : NameInv s) {action : CreateAction}
    (sound : Sound s action) (fresh : Fresh segment s action)
    (alive : action ≠ .destroy who ∧ action ≠ .crash who)
    (stepped : s.step action = some next)
    : Kept returned who segment next := by
  cases NameState.step_cases stepped with
  | tick later =>
      exact ⟨kept.bound, kept.using_, kept.describes, kept.running, kept.alone, kept.spared,
        kept.settled⟩
  | start phase | refused phase =>
      exact kept.setCaller (kept.apart (by rw [phase]; rfl)) rfl (by simp [Caller.fail])
        (by simp [Caller.fail])
  | @sampleBeat other target phase =>
      by_cases same : other = who
      · subst same
        have used := kept.using_
        rw [phase] at used
        exact kept.setOwn used rfl
      · exact kept.setCaller same rfl (by simp) id
  | @destroy other target phase =>
      have apart : other ≠ who := fun same => alive.1 (by rw [same])
      exact kept.setCaller apart rfl (by simp) id
  | @crash other =>
      have apart : other ≠ who := fun same => alive.2 (by rw [same])
      exact kept.setCaller apart rfl (by simp) id
  | caller moved => exact kept.callerMove inv fresh moved
  | bindFresh phase free =>
      have bound := kept.bound
      rw [free] at bound
      cases bound
  | @header other session fails target header c moved =>
      have quiet := kept.alone other
      cases moved with
      | initialise phase | storeMagic phase =>
          rw [phase] at quiet
          cases quiet
      | @storeBeat value phase =>
          by_cases same : other = who
          · subst same
            have used := kept.using_
            rw [phase] at used
            obtain rfl : target = segment := by simpa [CreatePhase.using] using used
            have beaten := @setHeader _ _ _ _ kept target
              { (s.segments target).header with lastHeartbeatNs := value }
              fun _ => ⟨kept.describes.beat value, rfl⟩
            exact beaten.setOwn rfl rfl
          · have elsewhere := kept.distinct inv same (by rw [phase]; rfl)
            have stored := @setHeader _ _ _ _ kept target
              { (s.segments target).header with lastHeartbeatNs := value }
              fun here => absurd here elsewhere
            exact stored.setCaller same rfl (by simp) id
      | storeShutdown phase =>
          have apart := kept.apart (by rw [phase]; rfl)
          have elsewhere := kept.distinct inv apart (by rw [phase]; rfl)
          have stored := @setHeader _ _ _ _ kept target
            { (s.segments target).header with shutdown := 1 }
            fun here => absurd here elsewhere
          exact stored.setCaller apart rfl (by simp) id
  | @unlink other session fails c moved =>
      obtain ⟨-, creator, -⟩ :=
        (inv.callers who).owned segment (CreatePhase.owning_of_using kept.using_)
      have used : s.InUse segment := ⟨who, creator, kept.using_⟩
      cases moved with
      | @reclaim judged phase =>
          simp only [Sound, phase] at sound
          rcases sound segment kept.bound with same | unused
          · exact absurd (by rw [phase, same]) (kept.spared other)
          · exact absurd used unused
      | @own mine phase =>
          simp only [Sound, phase] at sound
          rcases sound segment kept.bound with same | unused
          · have apart := kept.apart (by rw [phase]; rfl)
            exact absurd same (kept.distinct inv apart (by rw [phase]; rfl))
          · exact absurd used unused

end Kept

-----------------------------------------------------------------------------------------
-- Whole runs
-----------------------------------------------------------------------------------------

/-- In every run in which nobody validates a header that is being initialised or unlinks a
segment in use that it has not judged: once `create` has returned `Ok` to a caller (its
store of the magic), and as long as that publisher is neither destroyed nor crashes and
every judge of its age finds its heartbeat fresh, the name stays bound to its segment and
no other call returns `Ok`.
-/
theorem create_keepsName (now : UInt64) (foreign : Option Segment)
    {before after : List CreateAction} {who segment : Nat} {session : UInt64} {fails : Bool}
    {storing returned s : NameState}
    (sound
      : nameMachine.Meets Sound (.create now foreign)
          (before ++ .access who session fails :: after))
    (reached : nameMachine.run (.create now foreign) before = some storing)
    (phase : (storing.callers who).phase = .storeMagic segment)
    (returns : nameMachine.step storing (.access who session fails) = some returned)
    (fresh : nameMachine.Meets (Fresh segment) returned after)
    (alive : ∀ action ∈ after, action ≠ .destroy who ∧ action ≠ .crash who)
    (onward : nameMachine.run returned after = some s)
    : s.bound = some segment
      ∧ ∀ other, (s.callers other).status = some .ok
          → (returned.callers other).status = some .ok := by
  obtain ⟨soundBefore, soundReturn, soundAfter⟩ := (Machine.meets_append reached).mp sound
  have inv : NameInv storing :=
    Machine.invariant_of_run Sound NameInv
      (fun _ _ _ inv sound stepped => inv.step sound stepped) (.create now foreign)
      soundBefore reached
  let settled (other : Nat) : Option LLStatus := (returned.callers other).status
  have kept : NameInv s ∧ Kept settled who segment s := by
    refine Machine.invariant_of_run
      (fun s action => (Sound s action ∧ Fresh segment s action)
        ∧ action ≠ .destroy who ∧ action ≠ .crash who)
      (fun s => NameInv s ∧ Kept settled who segment s) ?_
      ⟨inv.step soundReturn returns, .of_return inv phase returns⟩
      (((soundAfter returned returns).and fresh).and
        (Machine.meets_of_forall (fun _ _ alive => alive) alive)) onward
    rintro s action next ⟨inv, kept⟩ ⟨⟨sound, fresh⟩, alive⟩ stepped
    exact ⟨inv.step sound stepped, kept.step inv sound fresh alive stepped⟩
  exact ⟨kept.2.bound, kept.2.settled⟩

/-- The first caller up to the store of its magic, which nobody disturbs. -/
def createAlone : List CreateAction :=
  [.start 0 {}, .access 0 77 false, .access 0 77 false]

/-- A second caller that finds the first one's publisher alive. -/
def createAgain : List CreateAction :=
  .start 1 {} :: List.replicate 4 (.access 1 78 false)

/-- The hypotheses are met by a second call of `create`, which is refused. -/
theorem create_keepsName_createAgain
    : ∃ returned s,
        nameMachine.run returned createAgain = some s
        ∧ (returned.callers 0).status = some .ok
        ∧ (s.callers 1).status = some .alreadyExists
        ∧ s.bound = some 0 := by
  have passes
      : (nameMachine.run (.create 9000000000 none) createAlone).any (fun storing =>
          (storing.callers 0).phase = .storeMagic 0
          ∧ (nameMachine.step storing (.access 0 77 false)).any (fun returned =>
              nameMachine.Meets (Fresh 0) returned createAgain
              ∧ (returned.callers 0).status = some .ok
              ∧ (nameMachine.run returned createAgain).any (fun s =>
                  (s.callers 1).status = some .alreadyExists)))
        = true := by
    decide +kernel
  have sound
      : nameMachine.Meets Sound (.create 9000000000 none)
          (createAlone ++ .access 0 77 false :: createAgain) := by
    decide +kernel
  have alive : ∀ action ∈ createAgain, action ≠ .destroy 0 ∧ action ≠ .crash 0 := by
    simp [createAgain]
  simp only [Option.any_eq_true, decide_eq_true_eq] at passes
  obtain ⟨storing, reached, phase, returned, returns, fresh, ok, s, onward, refused⟩ := passes
  exact ⟨returned, s, onward, ok, refused,
    (create_keepsName _ _ sound reached phase returns fresh alive onward).1⟩

/-- A second caller finds the name bound to a segment whose header is not written yet, and
takes it for foreign.
-/
def judgedEarly : List CreateAction :=
  [.start 0 {}, .access 0 77 false]
  ++ .start 1 {} :: List.replicate 3 (.access 1 78 false)
  ++ [.access 0 77 false]

/-- The second caller unlinks the name, creates it anew and returns. -/
def stealName : List CreateAction := List.replicate 4 (.access 1 78 false)

/-- Both calls return `Ok` at the same clock reading; the name ends up bound to the second
caller's segment while the first publisher is alive and fresh.
-/
theorem name_stolen
    : ∃ storing returned s,
        nameMachine.run (.create 9000000000 none) judgedEarly = some storing
        ∧ (storing.callers 0).phase = .storeMagic 0
        ∧ nameMachine.step storing (.access 0 77 false) = some returned
        ∧ nameMachine.run returned stealName = some s
        ∧ (∀ action ∈ stealName, action ≠ .destroy 0 ∧ action ≠ .crash 0)
        ∧ (s.callers 0).phase = .live 0
        ∧ s.clock = (s.segments 0).header.lastHeartbeatNs
        ∧ (returned.callers 1).status = none
        ∧ (s.callers 1).status = some .ok
        ∧ s.bound = some 1 := by
  have passes
      : (nameMachine.run (.create 9000000000 none) judgedEarly).any (fun storing =>
          (storing.callers 0).phase = .storeMagic 0
          ∧ (nameMachine.step storing (.access 0 77 false)).any (fun returned =>
              (returned.callers 1).status = none
              ∧ (nameMachine.run returned stealName).any (fun s =>
                  (s.callers 0).phase = .live 0
                  ∧ s.clock = (s.segments 0).header.lastHeartbeatNs
                  ∧ (s.callers 1).status = some .ok
                  ∧ s.bound = some 1)))
        = true := by
    decide +kernel
  have alive : ∀ action ∈ stealName, action ≠ .destroy 0 ∧ action ≠ .crash 0 := by
    simp [stealName]
  simp only [Option.any_eq_true, decide_eq_true_eq] at passes
  obtain ⟨storing, reached, phase, returned, returns, pending, s, onward, live, fresh, ok,
    bound⟩ := passes
  exact ⟨storing, returned, s, reached, phase, returns, onward, alive, live, fresh, pending,
    ok, bound⟩

end ShmFrame.Names
