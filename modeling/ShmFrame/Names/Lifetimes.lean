import ShmFrame.Names.SystemCalls

/-! Lifetimes of any number of publishers, every call atomic: who takes a name away from
whom. The destructor removes the name of its configuration whatever it is bound to by then.
-/

namespace ShmFrame.Names

open ShmFrame.Foundation

-----------------------------------------------------------------------------------------
-- The machine
-----------------------------------------------------------------------------------------

/-- Where a publisher is in its life. -/
inductive Lifetime
  | idle
  | live (segment : Nat)
  | gone
deriving DecidableEq

structure Publisher where
  cfg : LLConfig := {}
  phase : Lifetime := .idle

/-- Why an object lost its name: somebody's destruction, or a `create`, with what it found of
the object.
-/
inductive Cause
  | destroyed (who : Nat)
  | reclaimed (shut stale : Bool)

/-- An object that a publisher had bound to a name lost it. -/
structure Removal where
  creator : Nat
  cause : Cause

/-- A name is removed by its creator, or from an object found shut down or stale. -/
def Removal.Lawful (removal : Removal) : Prop :=
  match removal.cause with
  | .destroyed who => who = removal.creator
  | .reclaimed shut stale => shut = true ∨ stale = true

instance (removal : Removal) : Decidable removal.Lawful := by
  unfold Removal.Lawful
  split <;> infer_instance

/-- The names with their objects, the clock and all publishers. History variables: which
publisher created which object, and all removals so far.
-/
structure Lifetimes where
  table : NameTable := {}
  clock : UInt64 := 0
  publishers : Nat → Publisher := fun _ => {}
  creators : Nat → Option Nat := fun _ => none
  removals : List Removal := []

/-- What can happen. The clock stands still during a call. -/
inductive LifetimeAction
  | advance (now : UInt64)
  | create (who : Nat) (cfg : LLConfig) (call : CreateCall)
  | heartbeat (who : Nat)
  | commit (who : Nat) (latest : UInt64)
  | destroy (who : Nat) (removes : Bool)

/-- A call of `create` that reads the same time whenever it reads the clock. -/
def CreateCall.during (call : CreateCall) (now : UInt64) : CreateCall :=
  { call with judged := now, started := now }

/-- What a call of `create` finds of an object. -/
def found (cfg : LLConfig) (now : UInt64) (object : SharedObject) : Cause :=
  .reclaimed (object.header.shutdown ≠ 0)
    (now - object.header.lastHeartbeatNs ≥ LLConfig.staleNs cfg)

namespace Lifetimes

/-- Notes that an object lost its name, if it did. -/
def noted (s : Lifetimes) (name : Name) (cause : SharedObject → Cause) (after : NameTable)
    : List Removal :=
  match s.table.bound name with
  | none => s.removals
  | some object =>
      if after.bound name = some object then s.removals
      else
        match s.creators object with
        | none => s.removals
        | some creator => { creator, cause := cause (s.table.objects object) } :: s.removals

def setPublisher (s : Lifetimes) (who : Nat) (p : Publisher) : Lifetimes :=
  { s with publishers := assign s.publishers who p }

/-- Replaces the header of an object. -/
def setHeader (s : Lifetimes) (object : Nat) (header : LLHeader) : Lifetimes :=
  { s with table := s.table.setObject object { s.table.objects object with header } }

/-- One step; the clock never goes back. -/
def step (s : Lifetimes) (action : LifetimeAction) : Option Lifetimes :=
  match action with
  | .advance now => if s.clock ≤ now then some { s with clock := now } else none
  | .create who cfg call =>
      match (s.publishers who).phase with
      | .idle =>
          let (table, result) := createPublisher s.table cfg (call.during s.clock)
          let after := { s with table, removals := s.noted cfg.name (found cfg s.clock) table }
          match result with
          | .error _ => some after
          | .ok segment =>
              some {
                after.setPublisher who { cfg, phase := .live segment } with
                creators := assign s.creators segment (some who)
              }
      | _ => none
  | .heartbeat who =>
      match (s.publishers who).phase with
      | .live segment =>
          let h := (s.table.objects segment).header
          some (s.setHeader segment { h with lastHeartbeatNs := s.clock })
      | _ => none
  | .commit who latest =>
      match (s.publishers who).phase with
      | .live segment =>
          let h := (s.table.objects segment).header
          some (s.setHeader segment { h with latest, lastHeartbeatNs := s.clock })
      | _ => none
  | .destroy who removes =>
      match (s.publishers who).phase with
      | .live segment =>
          let p := s.publishers who
          let h := (s.table.objects segment).header
          let shut := s.setHeader segment { h with shutdown := 1 }
          let table := unlink shut.table p.cfg.name removes
          some {
            shut.setPublisher who { p with phase := .gone } with
            table
            removals := shut.noted p.cfg.name (fun _ => .destroyed who) table
          }
      | _ => none

end Lifetimes

/-- Publishers on any names, one call at a time. -/
def lifetimeMachine : Machine Lifetimes LifetimeAction where
  step := Lifetimes.step

/-- What a call of `create` does: it only ever gets its own object recorded. -/
theorem Lifetimes.step_create {s next : Lifetimes} {who : Nat} {cfg : LLConfig}
    {call : CreateCall}
    (stepped : lifetimeMachine.step s (.create who cfg call) = some next)
    : (s.publishers who).phase = .idle
      ∧ next.table = (createPublisher s.table cfg (call.during s.clock)).1
      ∧ next.removals = s.noted cfg.name (found cfg s.clock) next.table
      ∧ ∀ object creator,
          next.creators object = some creator
          → s.creators object = some creator
            ∨ (createPublisher s.table cfg (call.during s.clock)).2 = .ok object := by
  simp only [lifetimeMachine, step] at stepped
  split at stepped
  · rename_i idle
    split at stepped
    · cases stepped
      exact ⟨idle, rfl, rfl, fun _ _ known => Or.inl known⟩
    · rename_i segment success
      cases stepped
      refine ⟨idle, rfl, rfl, fun object creator known => ?_⟩
      by_cases fresh : object = segment
      · exact Or.inr (fresh ▸ success)
      · exact Or.inl ((assign_apart _ _ fresh).symm.trans known)
  · cases stepped

/-- The condition on a step: a destructor removes the name only from its own object, and an
object that could not be opened is only removed if it is shut down or stale. Objects that
were there before all publishers do not matter.
-/
def Rightful (s : Lifetimes) : LifetimeAction → Prop
  | .destroy who removes =>
      (s.publishers who).phase ≠ .idle
      → (s.publishers who).phase ≠ .gone
      → removes = true
      → ∀ object ∈ s.table.bound (s.publishers who).cfg.name,
          ∀ creator ∈ s.creators object, who = creator
  | .create who cfg call =>
      (s.publishers who).phase = .idle
      → cfg.accepted = true ∧ call.first.refuses = false ∧ call.opens = false
        ∧ call.removes = true
      → ∀ object ∈ s.table.bound cfg.name,
          s.creators object ≠ none
          → (s.table.objects object).header.shutdown ≠ 0
            ∨ s.clock - (s.table.objects object).header.lastHeartbeatNs
              ≥ LLConfig.staleNs cfg
  | _ => True

-----------------------------------------------------------------------------------------
-- What one call of create does to the objects and to the name
-----------------------------------------------------------------------------------------

/-- Objects that are there stay as they are. -/
theorem createPublisher_keeps {t : NameTable} {cfg : LLConfig} {call : CreateCall}
    {object : Nat} (below : object < t.count)
    : object < (createPublisher t cfg call).1.count
      ∧ (createPublisher t cfg call).1.objects object = t.objects object := by
  have outcome := createPublisher_cases t cfg call
  have apart : object ≠ t.count := Nat.ne_of_lt below
  generalize createPublisher t cfg call = result at outcome
  cases outcome with
  | invalid | refused | spared | stuck | removed => exact ⟨below, rfl⟩
  | broken _ _ _ _ adds | rebroken _ _ _ _ _ _ _ adds =>
      exact ⟨adds.count ▸ Nat.lt_succ_of_lt below, adds.others object apart⟩
  | created _ _ _ installs | recreated _ _ _ _ _ _ _ installs =>
      exact ⟨installs.adds.count ▸ Nat.lt_succ_of_lt below, installs.adds.others object apart⟩

/-- The segment of a new publisher is a new object with a started header. -/
theorem createPublisher_installs {t : NameTable} {cfg : LLConfig} {call : CreateCall}
    {segment : Nat} (created : (createPublisher t cfg call).2 = .ok segment)
    : cfg.accepted = true
      ∧ segment < (createPublisher t cfg call).1.count
      ∧ (createPublisher t cfg call).1.objects segment
        = { size := (computeLayout cfg).totalSize, header := startedHeader cfg call } := by
  have outcome := createPublisher_cases t cfg call
  generalize createPublisher t cfg call = result at outcome created
  cases outcome with
  | invalid | refused | broken | spared | stuck | removed | rebroken => cases created
  | created accepted _ _ installs | recreated accepted _ _ _ _ _ _ installs =>
      cases created
      exact ⟨accepted, installs.adds.count ▸ Nat.lt_succ_self _, installs.object⟩

/-- An object loses its name to a call of `create` that gets as far as the reclaim test,
which it passes by being abandoned or by not being opened.
-/
theorem createPublisher_takes_iff {t : NameTable} {cfg : LLConfig} {call : CreateCall}
    {object : Nat} (taken : t.bound cfg.name = some object)
    : (createPublisher t cfg call).1.bound cfg.name ≠ some object
      ↔ cfg.accepted = true
        ∧ call.first.refuses = false
        ∧ (call.opens = false ∨ abandoned cfg call.judged (t.objects object) = true)
        ∧ call.removes = true := by
  have outcome := createPublisher_cases t cfg call
  have older : t.count ≠ object := (Nat.ne_of_lt (t.below _ _ taken)).symm
  generalize createPublisher t cfg call = result at outcome
  cases outcome with
  | invalid rejected => simp [taken, rejected]
  | refused refuses => simp [taken, refuses]
  | broken _ _ free | created _ free => simp [taken] at free
  | stuck _ fails => simp [taken, fails]
  | spared again opens alive =>
      obtain rfl := Option.some.inj (taken.symm.trans again)
      simp [taken, opens, alive]
  | removed accepted proceeds again reclaimed removes refuses =>
      obtain rfl := Option.some.inj (taken.symm.trans again)
      simp [accepted, proceeds, reclaimed, removes]
  | rebroken accepted proceeds again reclaimed removes _ _ adds =>
      obtain rfl := Option.some.inj (taken.symm.trans again)
      have fresh := adds.bound
      simp [accepted, proceeds, reclaimed, removes, fresh, NameTable.unbind, older]
  | recreated accepted proceeds again reclaimed removes _ _ installs =>
      obtain rfl := Option.some.inj (taken.symm.trans again)
      have fresh := installs.adds.bound
      simp [accepted, proceeds, reclaimed, removes, fresh, NameTable.unbind, older]

-----------------------------------------------------------------------------------------
-- What is known about the objects
-----------------------------------------------------------------------------------------

/-- Every object a publisher created has been created before and has a valid header. -/
structure LifetimesInv (s : Lifetimes) : Prop where
  described
    : ∀ object who,
        s.creators object = some who
        → object < s.table.count
          ∧ ∃ cfg : LLConfig,
              cfg.accepted = true
              ∧ (s.table.objects object).size = (computeLayout cfg).totalSize
              ∧ (s.table.objects object).header.Describes cfg

namespace LifetimesInv

variable {s : Lifetimes}

/-- An object with a valid header is abandoned if it is shut down or stale. -/
theorem abandoned_iff (inv : LifetimesInv s) {object who : Nat}
    (created : s.creators object = some who) (cfg : LLConfig) (now : UInt64)
    : abandoned cfg now (s.table.objects object) = true
      ↔ (s.table.objects object).header.shutdown ≠ 0
        ∨ now - (s.table.objects object).header.lastHeartbeatNs ≥ LLConfig.staleNs cfg := by
  obtain ⟨-, own, accepted, size, describes⟩ := inv.described object who created
  have valid := describes.validates accepted
  rw [← size] at valid
  simp [abandoned, valid]

/-- Replacing a header by one that describes the same keeps the invariant. -/
theorem setHeader (inv : LifetimesInv s) {target : Nat} {header : LLHeader}
    (same
      : ∀ cfg,
          (s.table.objects target).header.Describes cfg → header.Describes cfg)
    : LifetimesInv (s.setHeader target header) where
  described := fun object who created => by
    obtain ⟨below, cfg, accepted, size, describes⟩ := inv.described object who created
    refine ⟨below, cfg, accepted, ?_⟩
    simp only [Lifetimes.setHeader, NameTable.setObject]
    by_cases here : object = target
    · subst here
      rw [assign_same]
      exact ⟨size, same cfg describes⟩
    · rw [assign_apart _ _ here]
      exact ⟨size, describes⟩

/-- A call of `create` keeps what is known of the objects that are there. -/
theorem created (inv : LifetimesInv s) {who : Nat} {cfg : LLConfig} {call : CreateCall}
    {next : Lifetimes}
    (stepped : lifetimeMachine.step s (.create who cfg call) = some next)
    : LifetimesInv next where
  described := fun object creator known => by
    obtain ⟨-, table, -, creators⟩ := Lifetimes.step_create stepped
    rw [table]
    rcases creators object creator known with was | new
    · obtain ⟨below, own, accepted, size, describes⟩ := inv.described object creator was
      have keeps
          : object < (createPublisher s.table cfg (call.during s.clock)).1.count ∧ _ :=
        createPublisher_keeps below
      obtain ⟨still, same⟩ := keeps
      rw [same]
      exact ⟨still, own, accepted, size, describes⟩
    · obtain ⟨accepted, below, installed⟩ := createPublisher_installs new
      rw [installed]
      exact ⟨below, cfg, accepted, rfl, _, rfl⟩

/-- Every step keeps what is known of the objects. -/
theorem step (inv : LifetimesInv s) {action : LifetimeAction} {next : Lifetimes}
    (stepped : lifetimeMachine.step s action = some next)
    : LifetimesInv next := by
  cases action with
  | create who cfg call => exact inv.created stepped
  | advance now =>
      simp only [lifetimeMachine, Lifetimes.step] at stepped
      split at stepped <;> cases stepped
      exact ⟨inv.described⟩
  | heartbeat who =>
      simp only [lifetimeMachine, Lifetimes.step] at stepped
      split at stepped <;> cases stepped
      exact inv.setHeader fun cfg describes => describes.beat _
  | commit who latest =>
      simp only [lifetimeMachine, Lifetimes.step] at stepped
      split at stepped <;> cases stepped
      exact inv.setHeader fun cfg ⟨session, written⟩ => ⟨session, by rw [written]; rfl⟩
  | destroy who removes =>
      simp only [lifetimeMachine, Lifetimes.step] at stepped
      split at stepped <;> cases stepped
      rename_i segment live
      have shut
          : LifetimesInv
              (s.setHeader segment { (s.table.objects segment).header with shutdown := 1 }) :=
        inv.setHeader fun cfg ⟨session, written⟩ => ⟨session, by rw [written]; rfl⟩
      refine ⟨fun object creator known => ?_⟩
      have same := shut.described object creator known
      simp only [unlink]
      split <;> exact same

end LifetimesInv

-----------------------------------------------------------------------------------------
-- Exactness of the condition
-----------------------------------------------------------------------------------------

/-- Every removal so far was lawful. -/
def Lifetimes.AllLawful (s : Lifetimes) : Prop := ∀ removal ∈ s.removals, removal.Lawful

/-- What is noted is lawful if the object of a publisher that loses its name loses it to a
lawful cause.
-/
theorem Lifetimes.noted_lawful_iff {s : Lifetimes} {name : Name}
    {cause : SharedObject → Cause} {after : NameTable} (lawful : s.AllLawful)
    : (∀ removal ∈ s.noted name cause after, removal.Lawful)
      ↔ ∀ object, s.table.bound name = some object
          → after.bound name ≠ some object
          → ∀ creator, s.creators object = some creator
          → Removal.Lawful { creator, cause := cause (s.table.objects object) } := by
  unfold Lifetimes.noted
  split
  · rename_i unbound
    exact ⟨fun _ object bound => by simp [unbound] at bound, fun _ => lawful⟩
  rename_i object bound
  split
  · rename_i kept
    refine ⟨fun _ other taken lost => ?_, fun _ => lawful⟩
    obtain rfl := Option.some.inj (bound.symm.trans taken)
    exact absurd kept lost
  rename_i lost
  split
  · rename_i foreign
    refine ⟨fun _ other taken _ creator known => ?_, fun _ => lawful⟩
    obtain rfl := Option.some.inj (bound.symm.trans taken)
    simp [foreign] at known
  rename_i creator known
  constructor
  · intro all other taken _ owner known'
    obtain rfl := Option.some.inj (bound.symm.trans taken)
    obtain rfl := Option.some.inj (known.symm.trans known')
    exact all _ (List.mem_cons_self ..)
  · intro new removal member
    rcases List.mem_cons.mp member with rfl | old
    · exact new object bound lost creator known
    · exact lawful removal old

/-- A call of `create` is lawful if what could not be opened is shut down or stale. -/
theorem LifetimesInv.create_lawful_iff {s next : Lifetimes} (inv : LifetimesInv s)
    (lawful : s.AllLawful) {who : Nat} {cfg : LLConfig} {call : CreateCall}
    (stepped : lifetimeMachine.step s (.create who cfg call) = some next)
    : next.AllLawful ↔ Rightful s (.create who cfg call) := by
  obtain ⟨idle, table, removals, -⟩ := Lifetimes.step_create stepped
  rw [Lifetimes.AllLawful, removals, Lifetimes.noted_lawful_iff lawful, table]
  have dead {object creator : Nat} (known : s.creators object = some creator) :=
    inv.abandoned_iff known cfg s.clock
  constructor
  · rintro only - ⟨accepted, proceeds, shut, removes⟩ object bound made
    obtain ⟨creator, known⟩ := Option.ne_none_iff_exists'.mp made
    have takes
        : (createPublisher s.table cfg (call.during s.clock)).1.bound cfg.name ≠ some object :=
      (createPublisher_takes_iff bound).mpr ⟨accepted, proceeds, Or.inl shut, removes⟩
    simpa [Removal.Lawful, found] using only object bound takes creator known
  · intro rightful object bound takes creator known
    obtain ⟨accepted, proceeds, reclaimed, removes⟩ :=
      (createPublisher_takes_iff bound).mp takes
    have gone
        : (s.table.objects object).header.shutdown ≠ 0
          ∨ s.clock - (s.table.objects object).header.lastHeartbeatNs
            ≥ LLConfig.staleNs cfg := by
      rcases reclaimed with shut | abandoned
      · exact rightful idle ⟨accepted, proceeds, shut, removes⟩ object bound (by simp [known])
      · exact (dead known).mp abandoned
    simpa [Removal.Lawful, found] using gone

/-- What a destruction does: the shutdown flag, and whatever the name is bound to. -/
theorem Lifetimes.step_destroy {s next : Lifetimes} {who : Nat} {removes : Bool}
    (stepped : lifetimeMachine.step s (.destroy who removes) = some next)
    : ∃ segment header,
        (s.publishers who).phase = .live segment
        ∧ next.table
          = unlink (s.setHeader segment header).table (s.publishers who).cfg.name removes
        ∧ next.removals
          = (s.setHeader segment header).noted (s.publishers who).cfg.name
              (fun _ => .destroyed who) next.table := by
  simp only [lifetimeMachine, step] at stepped
  split at stepped
  · rename_i segment live
    cases stepped
    exact ⟨segment, _, live, rfl, rfl⟩
  · cases stepped

/-- A destruction is lawful if the name it removes is bound to the publisher's own object. -/
theorem destroy_lawful_iff {s next : Lifetimes} (lawful : s.AllLawful) {who : Nat}
    {removes : Bool} (stepped : lifetimeMachine.step s (.destroy who removes) = some next)
    : next.AllLawful ↔ Rightful s (.destroy who removes) := by
  obtain ⟨segment, header, live, table, removals⟩ := Lifetimes.step_destroy stepped
  have lawful : (s.setHeader segment header).AllLawful := lawful
  rw [Lifetimes.AllLawful, removals, Lifetimes.noted_lawful_iff lawful, table]
  have bound : (s.setHeader segment header).table.bound = s.table.bound := rfl
  have creators : (s.setHeader segment header).creators = s.creators := rfl
  cases removes with
  | false => exact ⟨fun _ _ _ kept => (by cases kept), fun _ _ kept lost => absurd kept lost⟩
  | true => simp [Rightful, unlink, live, Removal.Lawful, bound, creators]

/-- A step is lawful if and only if it meets the condition. -/
theorem LifetimesInv.step_lawful_iff {s next : Lifetimes} (inv : LifetimesInv s)
    (lawful : s.AllLawful) {action : LifetimeAction}
    (stepped : lifetimeMachine.step s action = some next)
    : next.AllLawful ↔ Rightful s action := by
  cases action with
  | create who cfg call => exact inv.create_lawful_iff lawful stepped
  | destroy who removes => exact destroy_lawful_iff lawful stepped
  | advance now | heartbeat who | commit who latest =>
      simp only [lifetimeMachine, Lifetimes.step] at stepped
      split at stepped <;> cases stepped
      exact ⟨fun _ => trivial, fun _ => lawful⟩

/-- A step that is not enabled meets the condition. -/
theorem rightful_of_blocked {s : Lifetimes} {action : LifetimeAction}
    (blocked : lifetimeMachine.step s action = none)
    : Rightful s action := by
  cases action with
  | advance now | heartbeat who | commit who latest => trivial
  | create who cfg call =>
      intro idle
      simp only [lifetimeMachine, Lifetimes.step, idle] at blocked
      split at blocked <;> cases blocked
  | destroy who removes =>
      intro started alive
      cases phase : (s.publishers who).phase with
      | idle => exact absurd phase started
      | gone => exact absurd phase alive
      | live segment => simp [lifetimeMachine, Lifetimes.step, phase] at blocked

/-- Whatever the names are bound to at the start, for every sequence of calls by any number
of publishers on any names, at any times: every name a successful `create` bound is removed
by its own publisher or by a `create` that found it shut down or stale, if and only if every
step meets the condition.
-/
theorem lifetimes_lawful_iff (table : NameTable) (clock : UInt64)
    (schedule : List LifetimeAction)
    : lifetimeMachine.Along Lifetimes.AllLawful { table, clock } schedule
      ↔ lifetimeMachine.Meets Rightful { table, clock } schedule := by
  exact
    Machine.along_iff_meets Rightful LifetimesInv Lifetimes.AllLawful
      (fun _ _ _ inv stepped => inv.step stepped)
      (fun _ _ _ inv lawful stepped => inv.step_lawful_iff lawful stepped)
      (fun _ _ _ blocked => rightful_of_blocked blocked) ⟨fun _ _ known => by cases known⟩
      fun _ member => by cases member

/-- Publisher 0 is quiet for three seconds, publisher 1 takes its name over, and the first
one is destroyed.
-/
def destroyOfQuiet : List LifetimeAction :=
  [.create 0 {} {}, .advance 3000000000, .create 1 {} {}, .heartbeat 1, .destroy 0 true]

/-- Publisher 1 is alive and has just set its heartbeat, and loses its name all the same. -/
theorem destroy_takesForeignName
    : ∃ s,
        lifetimeMachine.run {} destroyOfQuiet = some s
        ∧ (s.publishers 1).phase = .live 1
        ∧ s.table.bound ({} : LLConfig).name = none
        ∧ ¬ s.AllLawful := by
  have passes
      : (lifetimeMachine.run {} destroyOfQuiet).any
          (fun s => (s.publishers 1).phase = .live 1
            ∧ s.table.bound ({} : LLConfig).name = none
            ∧ ¬ ∀ removal ∈ s.removals, removal.Lawful)
        = true := by
    decide +kernel
  obtain ⟨s, reached, tested⟩ := Machine.reaches_of_any passes
  rw [decide_eq_true_eq] at tested
  exact ⟨s, reached, tested⟩

end ShmFrame.Names
