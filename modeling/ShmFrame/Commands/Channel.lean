import ShmFrame.Commands.OwnerExclusive
import ShmFrame.Commands.Ring

/-! The command channel as a whole: `send` and `receive` of any number of subscribers, which
check the ownership first and work on the rings afterwards, and those of the publisher.
-/

namespace ShmFrame.Commands

open ShmFrame.Foundation

/-- The arguments of `send`; the id and the time stamp are added by the call. -/
structure SendArgs where
  type : UInt32 := 0
  data : Option (Nat → UInt8) := none
  size : UInt32 := 0
  replyTo : UInt64 := 0

/-- The call of `push` that `send` makes. -/
def SendArgs.push (args : SendArgs) (id now : UInt64) : PushCall where
  type := args.type
  data := args.data
  size := args.size
  id := id
  replyTo := args.replyTo
  timestampNs := now

/-- A subscriber's part in the rings: the arguments of the `send` it is in, and its ends of
both rings.
-/
structure Port where
  args : SendArgs := {}
  pusher : Pusher := {}
  popper : Popper := {}

/-- One session: the owner words and subscribers, both rings, the subscribers' ends of them,
and the publisher with its ends.
-/
structure Channel where
  owner : OwnerState
  up : RingData := {}
  down : RingData := {}
  ports : Nat → Port := fun _ => {}
  impl : LLPublisher.Impl
  pusher : Pusher := {}
  popper : Popper := {}

/-- Who moves next. `owner` covers everything around the rings: the clock, attaching,
`poll`, the accesses to the owner words, destructors and crashes.
-/
inductive ChannelAction
  | owner (action : OwnerAction)
  | send (who : Nat) (args : SendArgs)
  | push (who : Nat) (now : UInt64)
  | pushAccess (who : Nat)
  | pushByte (who : Nat) (index : Nat)
  | receive (who : Nat)
  | pop (who : Nat) (now : UInt64)
  | popAccess (who : Nat) (now : UInt64)
  | popByte (who : Nat) (index : Nat)
  | publisherSend (args : SendArgs) (now : UInt64)
  | publisherPending (tailFirst : Bool)
  | publisherPush
  | publisherPushByte (index : Nat)
  | publisherReceive
  | publisherPop
  | publisherPopByte (index : Nat)

namespace Channel

/-- A fresh session. -/
def create (cfg : LLConfig) (now : UInt64) : Channel where
  owner := OwnerState.create cfg now
  impl := { cfg }

/-- A subscriber returns from `send` or `receive` with new counters. -/
def leave (s : Channel) (who : Nat) (impl : LLSubscriber.Impl) : OwnerState :=
  let c := { s.owner.claimants who with impl := impl, phase := .ready }
  { s.owner with claimants := assign s.owner.claimants who c }

/-- The outcome of a producer step of a subscriber: once `push` has returned, `send` counts
the command or the drop and returns.
-/
def sent (s : Channel) (who : Nat) (outcome : Option (RingData × Pusher)) : Option Channel :=
  outcome.map fun (up, pusher) =>
    let m := (s.owner.claimants who).impl
    let moved := { s with
      up, ports := assign s.ports who { s.ports who with pusher } }
    match pusher.phase with
    | .idle =>
        if pusher.result = some true then
          {
            moved with
            owner := s.leave who { m with nextCmd := m.nextCmd + 1, sent := m.sent + 1 }
          }
        else { moved with owner := s.leave who { m with cmdDropped := m.cmdDropped + 1 } }
    | _ => moved

/-- The outcome of a consumer step of a subscriber: once `pop` has returned, `receive`
counts the command, if there was one, and returns.
-/
def received (s : Channel) (who : Nat) (now : UInt64)
    (outcome : Option (RingData × Popper))
    : Option Channel :=
  outcome.map fun (down, popper) =>
    let m := (s.owner.claimants who).impl
    let moved := { s with
      down, ports := assign s.ports who { s.ports who with popper } }
    match popper.phase with
    | .idle =>
        if popper.result = some true then
          { moved with owner := s.leave who { m with recvd := m.recvd + 1, lastProgress := now } }
        else { moved with owner := s.leave who m }
    | _ => moved

/-- The outcome of a producer step of the publisher, whose `send` counts likewise. -/
def published (s : Channel) (outcome : Option (RingData × Pusher)) : Option Channel :=
  outcome.map fun (down, pusher) =>
    let m := s.impl
    let moved := { s with down, pusher }
    match s.pusher.phase, pusher.phase with
    | .pendingHead _, _ | .pendingTail _, _ => moved
    | _, .idle =>
        if pusher.result = some true then
          { moved with impl := { m with nextCmd := m.nextCmd + 1, sent := m.sent + 1 } }
        else { moved with impl := { m with dropped := m.dropped + 1 } }
    | _, _ => moved

/-- The outcome of a consumer step of the publisher, whose `receive` counts likewise. -/
def consumed (s : Channel) (outcome : Option (RingData × Popper)) : Option Channel :=
  outcome.map fun (up, popper) =>
    let m := s.impl
    let moved := { s with up, popper }
    match popper.phase with
    | .idle =>
        if popper.result = some true then { moved with impl := { m with recvd := m.recvd + 1 } }
        else moved
    | _ => moved

/-- One step. `send` and `receive` are entered through the ownership check; the part on the
ring starts once the check has succeeded. A crash takes the subscriber's registers with it.
-/
def step (s : Channel) (action : ChannelAction) : Option Channel :=
  let cfg := s.owner.cfg
  match action with
  | .owner (.leave _) | .owner (.call _ .send) | .owner (.call _ .receive) => none
  | .owner (.crash who) =>
      (s.owner.step (.crash who)).map fun owner =>
        { s with owner, ports := assign s.ports who {} }
  | .owner action => (s.owner.step action).map fun owner => { s with owner }
  | .send who args =>
      (s.owner.step (.call who .send)).map fun owner =>
        { s with owner, ports := assign s.ports who { s.ports who with args } }
  | .push who now =>
      match (s.owner.claimants who).phase, (s.ports who).pusher.phase with
      | .inside .send, .idle =>
          let call := (s.ports who).args.push (s.owner.claimants who).impl.nextCmd now
          s.sent who
            (some (s.up, (s.ports who).pusher.enterPush cfg.upstreamRing call))
      | _, _ => none
  | .pushAccess who =>
      s.sent who ((s.ports who).pusher.access cfg.upstreamRing s.up)
  | .pushByte who index =>
      s.sent who ((s.ports who).pusher.copyByte cfg.upstreamRing s.up index)
  | .receive who => (s.owner.step (.call who .receive)).map fun owner => { s with owner }
  | .pop who now =>
      match (s.owner.claimants who).phase, (s.ports who).popper.phase with
      | .inside .receive, .idle =>
          s.received who now
            (some (s.down, (s.ports who).popper.enterPop cfg.downstreamRing))
      | _, _ => none
  | .popAccess who now =>
      s.received who now ((s.ports who).popper.access cfg.downstreamRing s.down)
  | .popByte who index =>
      s.received who 0
        (((s.ports who).popper.copyByte cfg.downstreamRing s.down index).map
          fun popper => (s.down, popper))
  | .publisherSend args now =>
      match s.pusher.phase with
      | .idle =>
          s.published
            (some (s.down,
              s.pusher.enterPush cfg.downstreamRing (args.push s.impl.nextCmd now)))
      | _ => none
  | .publisherPending tailFirst =>
      match s.pusher.phase with
      | .idle =>
          some { s with pusher := s.pusher.enterPending cfg.downstreamRing tailFirst }
      | _ => none
  | .publisherPush => s.published (s.pusher.access cfg.downstreamRing s.down)
  | .publisherPushByte index =>
      s.published (s.pusher.copyByte cfg.downstreamRing s.down index)
  | .publisherReceive =>
      match s.popper.phase with
      | .idle => s.consumed (some (s.up, s.popper.enterPop cfg.upstreamRing))
      | _ => none
  | .publisherPop => s.consumed (s.popper.access cfg.upstreamRing s.up)
  | .publisherPopByte index =>
      s.consumed ((s.popper.copyByte cfg.upstreamRing s.up index).map
        fun popper => (s.up, popper))

end Channel

/-- Between the ownership check of `send` or `receive` and the return from the ring. -/
def ClaimPhase.critical : ClaimPhase → Bool
  | .inside _ => true
  | .sampleBeat .send | .sampleBeat .receive => true
  | .storeBeat .send _ | .storeBeat .receive _ => true
  | _ => false

/-- A claim that is about to be installed carries a fresh token, and no other subscriber is
between its ownership check and the end of its work on a ring.
-/
def FencedClaim (s : OwnerState) : OwnerAction → Prop
  | .access who false =>
      DistinctToken s (.access who false)
      ∧ ∀ claim,
          (s.claimants who).phase = .exchange s.words.gen claim
          → ∀ other, other ≠ who → (s.claimants other).phase.critical = false
  | _ => True

/-- Claims are fenced off the work on the rings. -/
def Fenced (s : Channel) : ChannelAction → Prop
  | .owner action => FencedClaim s.owner action
  | _ => True

end ShmFrame.Commands
