import ShmFrame.Commands.Channel
import ShmFrame.Commands.RingLossless

/-! Commands are delivered exactly once across changes of ownership, as long as no claim is
installed while another subscriber is at work on a ring: the ring then has one producer and
one consumer at a time, whoever they are.
-/

namespace ShmFrame.Commands

open ShmFrame.Foundation

-----------------------------------------------------------------------------------------
-- Mutual exclusion
-----------------------------------------------------------------------------------------

/-- At most one owner, and only the owner is at work on a ring. -/
structure Guarded (s : OwnerState) : Prop where
  sane : ∀ who, (s.claimants who).Sane
  exclusive : s.Exclusive
  critical : ∀ who, (s.claimants who).phase.critical = true → s.Owns who

/-- Nobody owns a fresh session. -/
theorem Guarded.create (cfg : LLConfig) (now : UInt64)
    : Guarded (OwnerState.create cfg now) where
  sane := fun _ => .create
  exclusive := fun first second owns => by simp [OwnerState.create, OwnerState.Owns] at owns
  critical := fun who critical => by
    simp [OwnerState.create, ClaimPhase.critical] at critical

/-- Remembering a moment changes nobody's ownership. -/
theorem Guarded.record {s : OwnerState} (guarded : Guarded s)
    : Guarded { s with words := s.words.record } :=
  ⟨guarded.sane, guarded.exclusive, guarded.critical⟩

/-- Two subscribers at work on a ring are the same one. -/
theorem Guarded.unique {s : OwnerState} (guarded : Guarded s) {first second : Nat}
    (one : (s.claimants first).phase.critical = true)
    (two : (s.claimants second).phase.critical = true)
    : first = second :=
  guarded.exclusive first second (guarded.critical first one) (guarded.critical second two)

/-- A move under which a subscriber at work keeps its claim keeps it the owner. -/
theorem Guarded.move_critical {s next : OwnerState} {action : OwnerAction}
    (guarded : Guarded s) (fenced : FencedClaim s action) (moved : OwnerMove s action next)
    (who : Nat) (critical : (next.claimants who).phase.critical = true)
    : next.Owns who := by
  have live {c : Claimant} (working : c.phase.critical = true) : c.Live := by
    intro gone
    rw [gone] at working
    cases working
  -- A mover that is at work afterwards was so before, or has just passed its check.
  have mover {mover : Nat} {c : Claimant} {gen : UInt64}
      (working : (assign s.claimants mover c who).phase.critical = true)
      (here : c.phase.critical = true → c.impl.ownsCommands = true ∧ gen = c.impl.ownerGen)
      (apart
        : who ≠ mover → (s.claimants who).phase.critical = true → gen = s.words.gen)
      : (assign s.claimants mover c who).Live
        ∧ (assign s.claimants mover c who).impl.ownsCommands = true
        ∧ gen = (assign s.claimants mover c who).impl.ownerGen := by
    refine ⟨live working, ?_⟩
    by_cases same : who = mover
    · subst same
      rw [assign_same] at working ⊢
      exact here working
    · rw [assign_apart _ _ same] at working ⊢
      obtain ⟨-, own, token⟩ := guarded.critical who working
      exact ⟨own, (apart same working).trans token⟩
  cases moved with
  | tick | judge | judgeAccess => exact guarded.critical who critical
  | privately noAccess moved =>
      refine mover critical (fun working => ?_) (fun _ _ => rfl)
      cases moved with
      | refused phase => simp [phase, ClaimPhase.critical] at working
      | _ => simp [ClaimPhase.critical] at working
  | @access actor choice words c moved =>
      have kept (working : (s.claimants actor).phase.critical = true)
          : (s.claimants actor).impl.ownsCommands = true
            ∧ s.words.gen = (s.claimants actor).impl.ownerGen :=
        (guarded.critical actor working).2
      cases moved with
      | claimed phase strong =>
          subst strong
          refine mover critical (fun working => by simp [ClaimPhase.critical] at working)
            (fun apart working => ?_)
          simp [fenced.2 _ phase who apart] at working
      | release phase =>
          refine mover critical (fun working => by simp [ClaimPhase.critical] at working)
            (fun apart working => if_neg fun own => apart ?_)
          refine guarded.exclusive who actor (guarded.critical who working) ⟨?_, ?_, own⟩
          · simp [Claimant.Live, phase]
          · exact (guarded.sane actor).release phase
      | confirmed phase own =>
          exact mover critical (fun _ => ⟨(guarded.sane actor).checking _ phase, own⟩)
            (fun _ _ => rfl)
      | @sampleBeat purpose phase =>
          refine mover critical (fun working => kept ?_) (fun _ _ => rfl)
          rw [phase]
          cases purpose <;> first | rfl | simp [ClaimPhase.critical] at working
      | @storeBeat purpose value phase =>
          refine mover critical (fun working => kept ?_) (fun _ _ => rfl)
          rw [phase]
          cases purpose <;> first | rfl | simp [Purpose.next, ClaimPhase.critical] at working
      | loadGen | lost =>
          refine mover critical (fun working => ?_) (fun _ _ => rfl)
          unfold Claimant.loopTop at working
          dsimp only at working
          split at working <;> simp [ClaimPhase.critical] at working
      | _ =>
          exact mover critical (fun working => by simp [ClaimPhase.critical] at working)
            (fun _ _ => rfl)

/-- Every fenced move keeps at most one owner, and only the owner at work. -/
theorem Guarded.move {s next : OwnerState} {action : OwnerAction} (guarded : Guarded s)
    (fenced : FencedClaim s action) (moved : OwnerMove s action next)
    : Guarded next where
  sane := moved.sane guarded.sane
  exclusive := by
    refine (moved.exclusive_iff guarded.sane guarded.exclusive).mpr ?_
    cases action with
    | access who choice =>
        cases choice with
        | true => trivial
        | false => exact fenced.1
    | _ => trivial
  critical := guarded.move_critical fenced moved

/-- The subscriber that an action is a step of. -/
def OwnerAction.actor : OwnerAction → Option Nat
  | .tick _ | .judge | .judgeAccess _ => none
  | .attach who _ | .call who _ | .leave who | .close who | .crash who | .access who _ =>
      some who

/-- A step leaves every subscriber alone but the one it is a step of. -/
theorem OwnerState.step_other {s next : OwnerState} {action : OwnerAction} {other : Nat}
    (stepped : s.step action = some next) (apart : action.actor ≠ some other)
    : next.claimants other = s.claimants other := by
  obtain ⟨moved, moveEq, rfl⟩ := Option.map_eq_some_iff.mp stepped
  change moved.claimants other = s.claimants other
  have single {who : Nat} {outcome : Option Claimant}
      (replaced : s.withClaimant who outcome = some moved) (actor : action.actor = some who)
      : moved.claimants other = s.claimants other := by
    obtain ⟨c, -, rfl⟩ := Option.map_eq_some_iff.mp replaced
    exact assign_apart _ _ fun same => apart (by rw [actor, same])
  cases action with
  | tick now =>
      simp only [OwnerState.move] at moveEq
      split at moveEq <;> cases moveEq
      rfl
  | call who purpose =>
      simp only [OwnerState.move] at moveEq
      split at moveEq
      · cases moveEq
      · exact single moveEq rfl
  | attach who | leave who | close who | crash who => exact single moveEq rfl
  | access who choice =>
      obtain ⟨⟨words, c⟩, -, rfl⟩ := Option.map_eq_some_iff.mp moveEq
      exact assign_apart _ _ fun same => apart (by rw [same]; rfl)
  | judge =>
      simp only [OwnerState.move] at moveEq
      split at moveEq <;> cases moveEq
      rfl
  | judgeAccess beatFirst =>
      obtain ⟨judge, -, rfl⟩ := Option.map_eq_some_iff.mp moveEq
      rfl

/-- Only returning and crashing take a subscriber off a ring. -/
theorem OwnerState.step_inside {s next : OwnerState} {action : OwnerAction} {who : Nat}
    {purpose : Purpose} (stepped : s.step action = some next)
    (stays : action ≠ .leave who ∧ action ≠ .crash who)
    (inside : (s.claimants who).phase = .inside purpose)
    : (next.claimants who).phase = .inside purpose := by
  by_cases apart : action.actor = some who
  · obtain ⟨moved, moveEq, rfl⟩ := Option.map_eq_some_iff.mp stepped
    exfalso
    cases action with
    | tick | judge | judgeAccess => cases apart
    | attach mover session =>
        cases apart
        simp [OwnerState.move, OwnerState.withClaimant, Claimant.attach, inside] at moveEq
    | call mover purpose =>
        cases apart
        simp [OwnerState.move, OwnerState.withClaimant, Claimant.call, inside] at moveEq
    | leave mover =>
        cases apart
        exact stays.1 rfl
    | close mover =>
        cases apart
        simp [OwnerState.move, OwnerState.withClaimant, Claimant.close, inside] at moveEq
    | crash mover =>
        cases apart
        exact stays.2 rfl
    | access mover choice =>
        cases apart
        simp [OwnerState.move, Claimant.access, inside] at moveEq
  · rw [OwnerState.step_other stepped apart]
    exact inside

/-- The rings of an accepted configuration have a power-of-two number of cells. -/
theorem LLConfig.accepted_mapped {cfg : LLConfig} (accepted : cfg.accepted = true)
    : ∃ bits, Mapped cfg.upstreamRing bits ∧ Mapped cfg.downstreamRing bits := by
  obtain ⟨some, single⟩ := (LLConfig.accepted_bounded accepted).commands
  have masked : cfg.commandSlots.toNat &&& (cfg.commandSlots.toNat - 1) = 0 := by
    have one : (1 : UInt32) ≤ cfg.commandSlots := UInt32.le_iff_toNat_le.mpr some
    have same := congrArg UInt32.toNat single
    rwa [UInt32.toNat_and, UInt32.toNat_sub_of_le _ _ one] at same
  obtain ⟨bits, power⟩ :=
    (Nat.and_sub_one_eq_zero_iff_isPowerOfTwo (by omega)).mp masked
  exact ⟨bits, ⟨rfl, power⟩, ⟨rfl, power⟩⟩

/-- The subscriber that an action is a step of. -/
def ChannelAction.actor : ChannelAction → Option Nat
  | .owner action => action.actor
  | .send who _ | .push who _ | .pushAccess who | .pushByte who _ => some who
  | .receive who | .pop who _ | .popAccess who _ | .popByte who _ => some who
  | .publisherSend .. | .publisherPending _ | .publisherPush | .publisherPushByte _ => none
  | .publisherReceive | .publisherPop | .publisherPopByte _ => none

/-- A step leaves the ownership of every subscriber alone but the one it is a step of. -/
theorem Channel.step_other {s next : Channel} {action : ChannelAction} {other : Nat}
    (stepped : s.step action = some next) (apart : action.actor ≠ some other)
    : next.owner.claimants other = s.owner.claimants other := by
  have around {owned : OwnerAction} {rest : OwnerState → Channel}
      (moved : (s.owner.step owned).map rest = some next)
      (same : ∀ owner, (rest owner).owner = owner) (apart : owned.actor ≠ some other)
      : next.owner.claimants other = s.owner.claimants other := by
    obtain ⟨owner, advanced, rfl⟩ := Option.map_eq_some_iff.mp moved
    rw [same]
    exact OwnerState.step_other advanced apart
  have sent {who : Nat} {outcome : Option (RingData × Pusher)}
      (moved : s.sent who outcome = some next) (mover : other ≠ who)
      : next.owner.claimants other = s.owner.claimants other := by
    obtain ⟨⟨up, pusher⟩, -, rfl⟩ := Option.map_eq_some_iff.mp moved
    dsimp only
    split
    · split
      · exact assign_apart _ _ mover
      · exact assign_apart _ _ mover
    · rfl
  have received {who : Nat} {now : UInt64} {outcome : Option (RingData × Popper)}
      (moved : s.received who now outcome = some next) (mover : other ≠ who)
      : next.owner.claimants other = s.owner.claimants other := by
    obtain ⟨⟨down, popper⟩, -, rfl⟩ := Option.map_eq_some_iff.mp moved
    dsimp only
    split
    · split
      · exact assign_apart _ _ mover
      · exact assign_apart _ _ mover
    · rfl
  have published {outcome : Option (RingData × Pusher)}
      (moved : s.published outcome = some next)
      : next.owner.claimants other = s.owner.claimants other := by
    obtain ⟨⟨down, pusher⟩, -, rfl⟩ := Option.map_eq_some_iff.mp moved
    dsimp only
    split
    · rfl
    · rfl
    · split <;> rfl
    · rfl
  have consumed {outcome : Option (RingData × Popper)}
      (moved : s.consumed outcome = some next)
      : next.owner.claimants other = s.owner.claimants other := by
    obtain ⟨⟨up, popper⟩, -, rfl⟩ := Option.map_eq_some_iff.mp moved
    dsimp only
    split
    · split <;> rfl
    · rfl
  let owned (owner : OwnerState) : Channel := { s with owner }
  have mover {who : Nat} (actor : action.actor = some who) : other ≠ who := by
    intro same
    exact apart (same ▸ actor)
  cases action with
  | owner action =>
      cases action with
      | leave who => cases stepped
      | call who purpose =>
          cases purpose with
          | send | receive => cases stepped
          | attach => exact @around (.call who .attach) owned stepped (fun _ => rfl) apart
          | poll => exact @around (.call who .poll) owned stepped (fun _ => rfl) apart
      | crash who =>
          exact @around (.crash who) (fun owner => { owned owner with ports := _ }) stepped
            (fun _ => rfl) apart
      | _ => exact around stepped (fun _ => rfl) apart
  | send who | receive who => exact around stepped (fun _ => rfl) apart
  | push who now =>
      simp only [Channel.step] at stepped
      split at stepped
      · exact sent stepped (mover rfl)
      · cases stepped
  | pushAccess who | pushByte who => exact sent stepped (mover rfl)
  | pop who now =>
      simp only [Channel.step] at stepped
      split at stepped
      · exact received stepped (mover rfl)
      · cases stepped
  | popAccess who | popByte who => exact received stepped (mover rfl)
  | publisherSend args now =>
      simp only [Channel.step] at stepped
      split at stepped
      · exact published stepped
      · cases stepped
  | publisherPending tailFirst =>
      simp only [Channel.step] at stepped
      split at stepped <;> cases stepped
      rfl
  | publisherPush | publisherPushByte => exact published stepped
  | publisherReceive =>
      simp only [Channel.step] at stepped
      split at stepped
      · exact consumed stepped
      · cases stepped
  | publisherPop | publisherPopByte => exact consumed stepped

-----------------------------------------------------------------------------------------
-- The session
-----------------------------------------------------------------------------------------

/-- A subscriber's ends of the rings satisfy their invariants, and only the call that uses
an end has it in motion.
-/
structure PortInv (cfg : LLConfig) (up down : RingData) (phase : ClaimPhase) (port : Port)
    : Prop where
  pusher : PusherInv cfg.upstreamRing 0 up port.pusher
  popper : PopperInv cfg.downstreamRing 0 down port.popper
  pushing : port.pusher.phase ≠ .idle → phase = .inside .send
  popping : port.popper.phase ≠ .idle → phase = .inside .receive

namespace PortInv

variable {cfg : LLConfig} {up up' down down' : RingData} {phase : ClaimPhase} {port : Port}

/-- A subscriber that never called has both ends at rest. -/
theorem create : PortInv cfg up down phase {} where
  pusher := .create
  popper := .create
  pushing := fun busy => absurd rfl busy
  popping := fun busy => absurd rfl busy

/-- Nothing else changes for a subscriber while the other parties work on the rings. -/
theorem keep (inv : PortInv cfg up down phase port) (room : KeepsRoom up up')
    (oldest : KeepsOldest cfg.downstreamRing 0 down down')
    : PortInv cfg up' down' phase port :=
  { inv with pusher := inv.pusher.keep room, popper := inv.popper.keep oldest }

/-- Off the rings, both ends are at rest. -/
theorem at_rest (inv : PortInv cfg up down phase port)
    (outside : phase ≠ .inside .send ∧ phase ≠ .inside .receive)
    : port.pusher.phase = .idle ∧ port.popper.phase = .idle := by
  constructor
  · by_contra busy
    exact outside.1 (inv.pushing busy)
  · by_contra busy
    exact outside.2 (inv.popping busy)

/-- With both ends at rest, neither the rings nor the ownership matter. -/
theorem of_rest (inv : PortInv cfg up down phase port)
    (rest : port.pusher.phase = .idle ∧ port.popper.phase = .idle)
    {up' down' : RingData} {phase' : ClaimPhase}
    : PortInv cfg up' down' phase' port where
  pusher := inv.pusher.of_idle rest.1
  popper := inv.popper.of_idle rest.2
  pushing := fun busy => absurd rest.1 busy
  popping := fun busy => absurd rest.2 busy

/-- A step around the rings that is no return and no crash keeps the ends in their calls. -/
theorem around {s next : OwnerState} {action : OwnerAction} {who : Nat}
    (inv : PortInv cfg up down (s.claimants who).phase port)
    (stepped : s.step action = some next)
    (stays : action ≠ .leave who ∧ action ≠ .crash who)
    : PortInv cfg up down (next.claimants who).phase port :=
  {
    inv with
    pushing := fun busy => OwnerState.step_inside stepped stays (inv.pushing busy)
    popping := fun busy => OwnerState.step_inside stepped stays (inv.popping busy)
  }

end PortInv

/-- What holds between the steps of a fenced session: only the owner is on a ring, and each
ring with the endpoints at it satisfies its invariant.
-/
structure ChannelInv (cfg : LLConfig) (s : Channel) : Prop where
  handle : s.owner.cfg = cfg
  guarded : Guarded s.owner
  up : RingInv cfg.upstreamRing 0 s.up
  down : RingInv cfg.downstreamRing 0 s.down
  ports : ∀ who, PortInv cfg s.up s.down (s.owner.claimants who).phase (s.ports who)
  pusher : PusherInv cfg.downstreamRing 0 s.down s.pusher
  popper : PopperInv cfg.upstreamRing 0 s.up s.popper

namespace ChannelInv

variable {cfg : LLConfig} {s next : Channel} {who : Nat}

/-- A fresh session satisfies the invariant. -/
theorem create (now : UInt64) : ChannelInv cfg (Channel.create cfg now) where
  handle := rfl
  guarded := .create cfg now
  up := .create _
  down := .create _
  ports := fun _ => .create
  pusher := .create
  popper := .create

/-- While a subscriber is on a ring, all others are between calls. -/
theorem others_rest (inv : ChannelInv cfg s) {purpose : Purpose}
    (inside : (s.owner.claimants who).phase = .inside purpose) {other : Nat}
    (apart : other ≠ who)
    : (s.ports other).pusher.phase = .idle ∧ (s.ports other).popper.phase = .idle := by
  have outside (purpose' : Purpose)
      : (s.owner.claimants other).phase ≠ .inside purpose' := by
    intro there
    refine apart (inv.guarded.unique ?_ ?_)
    · rw [there]
      rfl
    · rw [inside]
      rfl
  exact (inv.ports other).at_rest ⟨outside _, outside _⟩

/-- A subscriber on a ring may replace its ends of the rings, and the rings, as long as the
publisher's ends are kept.
-/
theorem replace (inv : ChannelInv cfg s) {purpose : Purpose}
    (inside : (s.owner.claimants who).phase = .inside purpose) {up down : RingData}
    {port : Port} (upInv : RingInv cfg.upstreamRing 0 up)
    (downInv : RingInv cfg.downstreamRing 0 down)
    (portInv : PortInv cfg up down (.inside purpose) port)
    (room : KeepsRoom s.down down) (oldest : KeepsOldest cfg.upstreamRing 0 s.up up)
    : ChannelInv cfg { s with up, down, ports := assign s.ports who port } where
  handle := inv.handle
  guarded := inv.guarded
  up := upInv
  down := downInv
  ports :=
    @forall_assign _ _ _ s.ports who port
      (fun who port => PortInv cfg up down (s.owner.claimants who).phase port)
      (inside ▸ portInv)
      fun other apart => (inv.ports other).of_rest (inv.others_rest inside apart)
  pusher := inv.pusher.keep room
  popper := inv.popper.keep oldest

/-- A subscriber may return from `send` or `receive` once its ends are at rest. -/
theorem leave (inv : ChannelInv cfg s) {purpose : Purpose}
    (inside : (s.owner.claimants who).phase = .inside purpose)
    (rest : (s.ports who).pusher.phase = .idle ∧ (s.ports who).popper.phase = .idle)
    {impl : LLSubscriber.Impl}
    (owns : impl.ownsCommands = (s.owner.claimants who).impl.ownsCommands)
    (gen : impl.ownerGen = (s.owner.claimants who).impl.ownerGen)
    : ChannelInv cfg { s with owner := s.leave who impl } := by
  have moved : OwnerMove s.owner (.leave who) (s.leave who impl) :=
    .privately (by simp) (.leave inside owns gen)
  have fenced : FencedClaim s.owner (.leave who) := True.intro
  refine {
    inv with
    guarded := inv.guarded.move fenced moved
    ports := fun other => ?_
  }
  by_cases same : other = who
  · subst same
    exact (inv.ports other).of_rest rest
  · change PortInv cfg s.up s.down (assign s.owner.claimants who _ other).phase _
    rw [assign_apart _ _ same]
    exact inv.ports other

/-- A producer step of the subscriber inside `send` keeps the invariant. -/
theorem sent (inv : ChannelInv cfg s) (inside : (s.owner.claimants who).phase = .inside .send)
    {outcome : Option (RingData × Pusher)} (moved : s.sent who outcome = some next)
    (kept
      : ∀ up pusher,
          outcome = some (up, pusher)
          → RingInv cfg.upstreamRing 0 up
            ∧ PusherInv cfg.upstreamRing 0 up pusher
            ∧ KeepsOldest cfg.upstreamRing 0 s.up up)
    : ChannelInv cfg next := by
  obtain ⟨⟨up, pusher⟩, outcomeEq, rfl⟩ := Option.map_eq_some_iff.mp moved
  obtain ⟨ring, known, keeps⟩ := kept up pusher outcomeEq
  have port := inv.ports who
  rw [inside] at port
  have still : (s.ports who).popper.phase = .idle := by
    by_contra busy
    simpa using port.popping busy
  have ends : PortInv cfg up s.down (.inside .send) { s.ports who with pusher } :=
    ⟨known, port.popper, fun _ => rfl, fun busy => absurd still busy⟩
  have replaced := inv.replace inside ring inv.down ends (.refl _) keeps
  dsimp only
  split
  · rename_i idle
    have rest
        : (assign s.ports who { s.ports who with pusher } who).pusher.phase = .idle
          ∧ (assign s.ports who { s.ports who with pusher } who).popper.phase = .idle := by
      rw [assign_same]
      exact ⟨idle, still⟩
    split
    · exact replaced.leave inside rest rfl rfl
    · exact replaced.leave inside rest rfl rfl
  · exact replaced

/-- A consumer step of the subscriber inside `receive` keeps the invariant. -/
theorem received (inv : ChannelInv cfg s)
    (inside : (s.owner.claimants who).phase = .inside .receive) {now : UInt64}
    {outcome : Option (RingData × Popper)} (moved : s.received who now outcome = some next)
    (kept
      : ∀ down popper,
          outcome = some (down, popper)
          → RingInv cfg.downstreamRing 0 down
            ∧ PopperInv cfg.downstreamRing 0 down popper
            ∧ KeepsRoom s.down down)
    : ChannelInv cfg next := by
  obtain ⟨⟨down, popper⟩, outcomeEq, rfl⟩ := Option.map_eq_some_iff.mp moved
  obtain ⟨ring, known, keeps⟩ := kept down popper outcomeEq
  have port := inv.ports who
  rw [inside] at port
  have still : (s.ports who).pusher.phase = .idle := by
    by_contra busy
    simpa using port.pushing busy
  have ends : PortInv cfg s.up down (.inside .receive) { s.ports who with popper } :=
    ⟨port.pusher, known, fun busy => absurd still busy, fun _ => rfl⟩
  have replaced := inv.replace inside inv.up ring ends keeps (.refl _)
  dsimp only
  split
  · rename_i idle
    have rest
        : (assign s.ports who { s.ports who with popper } who).pusher.phase = .idle
          ∧ (assign s.ports who { s.ports who with popper } who).popper.phase = .idle := by
      rw [assign_same]
      exact ⟨still, idle⟩
    split
    · exact replaced.leave inside rest rfl rfl
    · exact replaced.leave inside rest rfl rfl
  · exact replaced

/-- A producer step of the publisher keeps the invariant. -/
theorem published (inv : ChannelInv cfg s) {outcome : Option (RingData × Pusher)}
    (moved : s.published outcome = some next)
    (kept
      : ∀ down pusher,
          outcome = some (down, pusher)
          → RingInv cfg.downstreamRing 0 down
            ∧ PusherInv cfg.downstreamRing 0 down pusher
            ∧ KeepsOldest cfg.downstreamRing 0 s.down down)
    : ChannelInv cfg next := by
  obtain ⟨⟨down, pusher⟩, outcomeEq, rfl⟩ := Option.map_eq_some_iff.mp moved
  obtain ⟨ring, known, keeps⟩ := kept down pusher outcomeEq
  have replaced {impl : LLPublisher.Impl} : ChannelInv cfg { s with down, pusher, impl } :=
    {
      inv with
      down := ring
      ports := fun who => (inv.ports who).keep (.refl _) keeps
      pusher := known
    }
  dsimp only
  split
  · exact replaced
  · exact replaced
  · split
    · exact replaced
    · exact replaced
  · exact replaced

/-- A consumer step of the publisher keeps the invariant. -/
theorem consumed (inv : ChannelInv cfg s) {outcome : Option (RingData × Popper)}
    (moved : s.consumed outcome = some next)
    (kept
      : ∀ up popper,
          outcome = some (up, popper)
          → RingInv cfg.upstreamRing 0 up
            ∧ PopperInv cfg.upstreamRing 0 up popper
            ∧ KeepsRoom s.up up)
    : ChannelInv cfg next := by
  obtain ⟨⟨up, popper⟩, outcomeEq, rfl⟩ := Option.map_eq_some_iff.mp moved
  obtain ⟨ring, known, keeps⟩ := kept up popper outcomeEq
  have replaced {impl : LLPublisher.Impl} : ChannelInv cfg { s with up, popper, impl } :=
    {
      inv with
      up := ring
      ports := fun who => (inv.ports who).keep keeps (.refl _)
      popper := known
    }
  dsimp only
  split
  · split
    · exact replaced
    · exact replaced
  · exact replaced

/-- A fenced step around the rings keeps the invariant if the ends of the rings it leaves
behind fit the phases it leads to.
-/
theorem around (inv : ChannelInv cfg s) {action : OwnerAction}
    (fenced : FencedClaim s.owner action) {owner : OwnerState}
    (stepped : s.owner.step action = some owner) {ports : Nat → Port}
    (kept
      : ∀ who,
          PortInv cfg s.up s.down (owner.claimants who).phase (ports who))
    : ChannelInv cfg { s with owner, ports } := by
  obtain ⟨moved, moveEq, rfl⟩ := Option.map_eq_some_iff.mp stepped
  have move := OwnerState.move_cases moveEq
  refine {
    inv with
    handle := ?_
    guarded := (inv.guarded.move fenced move).record
    ports := kept
  }
  have handle := inv.handle
  cases move <;> exact handle

/-- Every fenced step keeps the invariant, by cases on the action. -/
theorem step {bits : Nat} (inv : ChannelInv cfg s) (upstream : Mapped cfg.upstreamRing bits)
    (downstream : Mapped cfg.downstreamRing bits) {action : ChannelAction}
    (fenced : Fenced s action) (stepped : s.step action = some next)
    : ChannelInv cfg next := by
  have handle := inv.handle
  have ordinary (action : OwnerAction) (fenced : FencedClaim s.owner action)
      (stays : ∀ who, action ≠ .leave who ∧ action ≠ .crash who)
      (moved : (s.owner.step action).map (fun owner => { s with owner }) = some next)
      : ChannelInv cfg next := by
    obtain ⟨owner, advanced, rfl⟩ := Option.map_eq_some_iff.mp moved
    exact inv.around fenced advanced fun who => (inv.ports who).around advanced (stays who)
  cases action with
  | owner action =>
      cases action with
      | leave who => cases stepped
      | crash who =>
          obtain ⟨owner, crashed, rfl⟩
              : ∃ owner,
                  s.owner.step (.crash who) = some owner
                  ∧ { s with owner, ports := assign s.ports who {} } = next :=
            Option.map_eq_some_iff.mp stepped
          have ends := @forall_assign _ _ _ s.ports who {}
            (fun who port => PortInv cfg s.up s.down (owner.claimants who).phase port) .create
            fun other apart =>
              (inv.ports other).around crashed ⟨by simp, by simpa using Ne.symm apart⟩
          have fenced : FencedClaim s.owner (.crash who) := True.intro
          exact inv.around fenced crashed ends
      | call who purpose =>
          cases purpose with
          | send | receive => cases stepped
          | attach => exact ordinary (.call who .attach) fenced (by simp) stepped
          | poll => exact ordinary (.call who .poll) fenced (by simp) stepped
      | tick now => exact ordinary (.tick now) fenced (by simp) stepped
      | attach who session => exact ordinary (.attach who session) fenced (by simp) stepped
      | close who => exact ordinary (.close who) fenced (by simp) stepped
      | access who choice => exact ordinary (.access who choice) fenced (by simp) stepped
      | judge => exact ordinary .judge fenced (by simp) stepped
      | judgeAccess first => exact ordinary (.judgeAccess first) fenced (by simp) stepped
  | send who args =>
      obtain ⟨owner, called, rfl⟩ := Option.map_eq_some_iff.mp stepped
      have fenced : FencedClaim s.owner (.call who .send) := True.intro
      have ends (other : Nat) := (inv.ports other).around called (by simp)
      have same : PortInv cfg s.up s.down (owner.claimants who).phase
          { s.ports who with args } := { ends who with }
      exact inv.around fenced called
        (@forall_assign _ _ _ s.ports who _
          (fun who port => PortInv cfg s.up s.down (owner.claimants who).phase port)
          same fun other _ => ends other)
  | push who now =>
      simp only [Channel.step, handle] at stepped
      split at stepped
      · rename_i inside idle
        refine inv.sent inside stepped fun up pusher entered => ?_
        cases entered
        exact ⟨inv.up, (inv.ports who).pusher.enterPush upstream idle _, .refl _⟩
      · cases stepped
  | pushAccess who =>
      simp only [Channel.step, handle] at stepped
      have inside : (s.owner.claimants who).phase = .inside .send := by
        refine (inv.ports who).pushing fun idle => ?_
        simp [Channel.sent, Pusher.access, idle] at stepped
      exact inv.sent inside stepped fun up pusher moved =>
        (inv.ports who).pusher.access inv.up upstream moved
  | pushByte who index =>
      simp only [Channel.step, handle] at stepped
      have inside : (s.owner.claimants who).phase = .inside .send := by
        refine (inv.ports who).pushing fun idle => ?_
        simp [Channel.sent, Pusher.copyByte, idle] at stepped
      exact inv.sent inside stepped fun up pusher moved =>
        (inv.ports who).pusher.copyByte inv.up upstream moved
  | receive who => exact ordinary (.call who .receive) True.intro (by simp) stepped
  | pop who now =>
      simp only [Channel.step, handle] at stepped
      split at stepped
      · rename_i inside idle
        refine inv.received inside stepped fun down popper entered => ?_
        cases entered
        exact ⟨inv.down, .enterPop downstream, .refl _⟩
      · cases stepped
  | popAccess who now =>
      simp only [Channel.step, handle] at stepped
      have inside : (s.owner.claimants who).phase = .inside .receive := by
        refine (inv.ports who).popping fun idle => ?_
        simp [Channel.received, Popper.access, idle] at stepped
      exact inv.received inside stepped fun down popper moved =>
        (inv.ports who).popper.access inv.down moved
  | popByte who index =>
      simp only [Channel.step, handle] at stepped
      have inside : (s.owner.claimants who).phase = .inside .receive := by
        refine (inv.ports who).popping fun idle => ?_
        simp [Channel.received, Popper.copyByte, idle] at stepped
      refine inv.received inside stepped fun down popper moved => ?_
      obtain ⟨copied, moved, same⟩ := Option.map_eq_some_iff.mp moved
      cases same
      exact ⟨inv.down, (inv.ports who).popper.copyByte moved, .refl _⟩
  | publisherSend args now =>
      simp only [Channel.step, handle] at stepped
      split at stepped
      · rename_i idle
        refine inv.published stepped fun down pusher entered => ?_
        cases entered
        exact ⟨inv.down, inv.pusher.enterPush downstream idle _, .refl _⟩
      · cases stepped
  | publisherPending tailFirst =>
      simp only [Channel.step, handle] at stepped
      split at stepped
      · cases stepped
        exact { inv with pusher := inv.pusher.enterPending downstream tailFirst }
      · cases stepped
  | publisherPush =>
      simp only [Channel.step, handle] at stepped
      exact inv.published stepped fun down pusher moved =>
        inv.pusher.access inv.down downstream moved
  | publisherPushByte index =>
      simp only [Channel.step, handle] at stepped
      exact inv.published stepped fun down pusher moved =>
        inv.pusher.copyByte inv.down downstream moved
  | publisherReceive =>
      simp only [Channel.step, handle] at stepped
      split at stepped
      · refine inv.consumed stepped fun up popper entered => ?_
        cases entered
        exact ⟨inv.up, .enterPop upstream, .refl _⟩
      · cases stepped
  | publisherPop =>
      simp only [Channel.step, handle] at stepped
      exact inv.consumed stepped fun up popper moved => inv.popper.access inv.up moved
  | publisherPopByte index =>
      simp only [Channel.step, handle] at stepped
      refine inv.consumed stepped fun up popper moved => ?_
      obtain ⟨copied, moved, same⟩ := Option.map_eq_some_iff.mp moved
      cases same
      exact ⟨inv.up, inv.popper.copyByte moved, .refl _⟩

end ChannelInv

end ShmFrame.Commands
