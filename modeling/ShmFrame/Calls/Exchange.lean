import ShmFrame.Calls.Claiming

/-! The subscriber's calls that have to own the channel, and the two ends of its life, while
there is one session: `send` and `receive` work on the rings for the owner only, a destructor
gives up nothing but its own claim.
-/

namespace ShmFrame.Calls

open ShmFrame.Commands ShmFrame.Foundation Call

-----------------------------------------------------------------------------------------
-- Sending and receiving
-----------------------------------------------------------------------------------------

/-- A `push` that is refused leaves the ring as it is. -/
theorem push_refused {ring : LLRing} {d : RingData} {call : PushCall}
    (refused : (push ring d call).2 = false)
    : (push ring d call).1 = d := by
  unfold push at refused ⊢
  split
  · rfl
  rename_i fits
  rw [if_neg fits] at refused
  split
  · rfl
  · rename_i room
    rw [if_neg room] at refused
    cases refused

/-- A `pop` that finds nothing leaves the ring as it is. -/
theorem pop_nothing {ring : LLRing} {d : RingData} (nothing : (pop ring d).2 = none)
    : (pop ring d).1 = d := by
  unfold pop at nothing ⊢
  split
  · rfl
  rename_i valid
  rw [if_neg valid] at nothing
  split
  · rfl
  · rename_i some_
    rw [if_neg some_] at nothing
    cases nothing

/-- Both outcomes of `send` in the one session: nothing but a check of the claim, or the
owner's command in the ring.
-/
inductive SendOutcome (cfg : LLConfig) (session : UInt64) (request : PushCall) (s : Subscriber)
    : Option UInt64 × Subscriber → Prop
  | refused {next} (outcome : Outcome cfg session s next)
    : SendOutcome cfg session request s (none, next)
  | accepted {next now} (owns : Owns s.impl (s.world.segments 0).token)
    (stays : Owns next.impl (next.world.segments 0).token)
    (rooted : Rooted cfg session next.impl) (hosts : Hosts cfg session next.world)
    (token : (next.world.segments 0).token = (s.world.segments 0).token)
    (down : (next.world.segments 0).down = (s.world.segments 0).down)
    (pushed
      : push cfg.upstreamRing (s.world.segments 0).up
          { request with id := s.impl.nextCmd, timestampNs := now }
        = ((next.world.segments 0).up, true))
    : SendOutcome cfg session request s (some s.impl.nextCmd, next)

/-- Both outcomes of `receive`. -/
inductive ReceiveOutcome (cfg : LLConfig) (session : UInt64) (s : Subscriber)
    : Option LLShmCommand × Subscriber → Prop
  | nothing {next} (outcome : Outcome cfg session s next)
    : ReceiveOutcome cfg session s (none, next)
  | command {next command} (owns : Owns s.impl (s.world.segments 0).token)
    (stays : Owns next.impl (next.world.segments 0).token)
    (rooted : Rooted cfg session next.impl) (hosts : Hosts cfg session next.world)
    (token : (next.world.segments 0).token = (s.world.segments 0).token)
    (up : (next.world.segments 0).up = (s.world.segments 0).up)
    (popped
      : pop cfg.downstreamRing (s.world.segments 0).down
        = ((next.world.segments 0).down, some command))
    : ReceiveOutcome cfg session s (some command, next)

section Commands

variable {cfg : LLConfig} {session : UInt64} {s : Subscriber}

/-- The segment with another ring to the producer. -/
def Subscriber.withUp (s : Subscriber) (up : RingData) : Subscriber :=
  { s with world := s.world.setSegment 0 { s.world.segments 0 with up } }

/-- The segment with another ring to the subscriber. -/
def Subscriber.withDown (s : Subscriber) (down : RingData) : Subscriber :=
  { s with world := s.world.setSegment 0 { s.world.segments 0 with down } }

/-- What is found in the segment then. -/
theorem Subscriber.withUp_segment (s : Subscriber) (up : RingData)
    : (s.withUp up).world.segments 0 = { s.world.segments 0 with up } :=
  World.setSegment_same ..

theorem Subscriber.withDown_segment (s : Subscriber) (down : RingData)
    : (s.withDown down).world.segments 0 = { s.world.segments 0 with down } :=
  World.setSegment_same ..

/-- Putting a ring back as it is. -/
theorem course_withUp : Course cfg session s (s.withUp (s.world.segments 0).up) := by
  intro rooted hosts
  have segment := s.withUp_segment (s.world.segments 0).up
  exact .of_same rooted hosts (SameEnds.refl _) rfl _ (congrArg (·.header) segment)
    (congrArg (·.down) segment) (congrArg (·.up) segment)

theorem course_withDown : Course cfg session s (s.withDown (s.world.segments 0).down) := by
  intro rooted hosts
  have segment := s.withDown_segment (s.world.segments 0).down
  exact .of_same rooted hosts (SameEnds.refl _) rfl _ (congrArg (·.header) segment)
    (congrArg (·.down) segment) (congrArg (·.up) segment)

/-- The part of `send` after the ownership check. -/
def sendOwned (g : Nat) (request : PushCall) : Call (Option UInt64) := do
  let m ← impl
  let now ← nowNs
  let call := { request with id := m.nextCmd, timestampNs := now }
  if ← onUp g fun up => push m.tx up call then
    setImpl { m with nextCmd := m.nextCmd + 1, sent := m.sent + 1 }
    return some m.nextCmd
  else
    setImpl { m with cmdDropped := m.cmdDropped + 1 }
    return none

/-- What it does, by the outcome of `push`. -/
theorem sendOwned_run (request : PushCall) (s : Subscriber)
    : (sendOwned 0 request).run s
      = let call := { request with id := s.impl.nextCmd, timestampNs := s.clock 0 }
        let pushed := push s.impl.tx (s.world.segments 0).up call
        let next := (nowNs.run s).2.withUp pushed.1
        if pushed.2 then
          (some s.impl.nextCmd, {
            next with
            impl := { s.impl with nextCmd := s.impl.nextCmd + 1, sent := s.impl.sent + 1 }
          })
        else (none, { next with impl := { s.impl with cmdDropped := s.impl.cmdDropped + 1 } }) := by
  rw [sendOwned, Call.run_bind, Call.run_impl, Call.run_bind, Call.run_bind, Call.run_ite]
  rfl

/-- The part of `receive` after the ownership check. -/
def receiveOwned (g : Nat) : Call (Option LLShmCommand) := do
  let m ← impl
  let some command ← onDown g fun down => pop m.rx down | return none
  setImpl { m with recvd := m.recvd + 1, lastProgress := ← nowNs }
  return some command

/-- What it does, by the outcome of `pop`. -/
theorem receiveOwned_run (s : Subscriber)
    : (receiveOwned 0).run s
      = let popped := pop s.impl.rx (s.world.segments 0).down
        let next := s.withDown popped.1
        match popped.2 with
        | none => (none, next)
        | some command =>
            (some command, {
              (nowNs.run next).2 with
              impl := { s.impl with recvd := s.impl.recvd + 1, lastProgress := s.clock 0 }
            }) := by
  have worked
      : (onDown 0 fun down => pop s.impl.rx down).run s
        = let popped := pop s.impl.rx (s.world.segments 0).down
          (popped.2, s.withDown popped.1) :=
    rfl
  rw [receiveOwned, Call.run_bind, Call.run_impl, Call.run_bind, worked]
  dsimp only
  cases (pop s.impl.rx (s.world.segments 0).down).2 with
  | none => rfl
  | some command => rfl

/-- `send` has one of its outcomes. -/
theorem send_outcome (rooted : Rooted cfg session s.impl) (hosts : Hosts cfg session s.world)
    (request : PushCall)
    : SendOutcome cfg session request s ((send request).run s) := by
  rw [send, Call.run_bind, Call.run_impl]
  cases attached : s.impl.hdr with
  | none => exact .refused ((Std.Refl.refl s : Course cfg session s s) rooted hosts)
  | some g =>
      obtain rfl := rooted.attached attached
      dsimp only
      rw [Call.run_bind]
      have checked := stillOwnsCommands_checked 0 s
      have course := checked.course rooted hosts
      generalize (stillOwnsCommands 0).run s = result at checked course
      obtain ⟨yes, owner⟩ := result
      cases yes with
      | false => exact .refused course
      | true =>
          obtain ⟨impl, owns, same⟩ := checked.owned attached
          simp only [Bool.not_true, Bool.false_eq_true, if_false]
          change SendOutcome cfg session request s ((sendOwned 0 request).run owner)
          rw [sendOwned_run, impl, rooted.tx attached, course.up]
          dsimp only
          cases pushed
            : push cfg.upstreamRing (s.world.segments 0).up
                { request with id := s.impl.nextCmd, timestampNs := owner.clock 0 } with
          | mk up accepted =>
              let timed := (nowNs.run owner).2
              have segment := timed.withUp_segment up
              cases accepted with
              | false =>
                  have kept : up = (timed.world.segments 0).up := by
                    have refused := push_refused (congrArg Prod.snd pushed)
                    rw [pushed] at refused
                    exact refused.trans course.up.symm
                  have restored : Course cfg session owner (timed.withUp up) := by
                    rw [kept]
                    exact IsTrans.trans _ _ _ (waits_nowNs owner).course course_withUp
                  refine .refused (course.trans ?_)
                  refine IsTrans.trans _ _ _ restored (course_setImpl ?_) course.rooted course.hosts
                  exact impl ▸ ⟨rfl, rfl, rfl, rfl, rfl, rfl⟩
              | true =>
                  have announced : Hosts cfg session (timed.withUp up).world :=
                    ⟨course.hosts.bound, by rw [segment]; exact course.hosts.announces⟩
                  have tokens : ((timed.withUp up).world.segments 0).token = _ :=
                    (congrArg Segment.token segment).trans same
                  have ends : SameEnds s.impl
                      { s.impl with nextCmd := s.impl.nextCmd + 1, sent := s.impl.sent + 1 } :=
                    ⟨rfl, rfl, rfl, rfl, rfl, rfl⟩
                  exact .accepted owns (tokens ▸ owns) (ends.rooted rooted) announced tokens
                    ((congrArg (·.down) segment).trans course.down)
                    (pushed.trans (congrArg (·, true) (congrArg (·.up) segment).symm))

/-- `receive` has one of its outcomes. -/
theorem receive_outcome (rooted : Rooted cfg session s.impl)
    (hosts : Hosts cfg session s.world)
    : ReceiveOutcome cfg session s (receive.run s) := by
  rw [receive, Call.run_bind, Call.run_impl]
  cases attached : s.impl.hdr with
  | none => exact .nothing ((Std.Refl.refl s : Course cfg session s s) rooted hosts)
  | some g =>
      obtain rfl := rooted.attached attached
      dsimp only
      rw [Call.run_bind]
      have checked := stillOwnsCommands_checked 0 s
      have course := checked.course rooted hosts
      generalize (stillOwnsCommands 0).run s = result at checked course
      obtain ⟨yes, owner⟩ := result
      cases yes with
      | false => exact .nothing course
      | true =>
          obtain ⟨impl, owns, same⟩ := checked.owned attached
          simp only [Bool.not_true, Bool.false_eq_true, if_false]
          change ReceiveOutcome cfg session s ((receiveOwned 0).run owner)
          rw [receiveOwned_run, impl, rooted.rx attached, course.down]
          dsimp only
          cases popped : pop cfg.downstreamRing (s.world.segments 0).down with
          | mk down got =>
              have segment := owner.withDown_segment down
              cases got with
              | none =>
                  have kept : down = (owner.world.segments 0).down := by
                    have nothing := pop_nothing (congrArg Prod.snd popped)
                    rw [popped] at nothing
                    exact nothing.trans course.down.symm
                  refine .nothing (course.trans ?_)
                  rw [kept]
                  exact course_withDown course.rooted course.hosts
              | some command =>
                  have announced : Hosts cfg session (owner.withDown down).world :=
                    ⟨course.hosts.bound, by rw [segment]; exact course.hosts.announces⟩
                  have tokens : ((owner.withDown down).world.segments 0).token = _ :=
                    (congrArg Segment.token segment).trans same
                  have ends (lastProgress : UInt64) : SameEnds s.impl
                      { s.impl with recvd := s.impl.recvd + 1, lastProgress } :=
                    ⟨rfl, rfl, rfl, rfl, rfl, rfl⟩
                  exact .command owns (tokens ▸ owns) ((ends _).rooted rooted) announced tokens
                    ((congrArg (·.up) segment).trans course.up)
                    (popped.trans (congrArg (·, some command) (congrArg (·.down) segment).symm))

end Commands

-----------------------------------------------------------------------------------------
-- The two ends of a subscriber's life
-----------------------------------------------------------------------------------------

/-- The destructor of a subscriber, which exchanges the token for zero. -/
def closeSubscriber : Call Unit := do
  let m ← impl
  let some g := m.hdr | return
  if m.ownsCommands then
    let h ← header g
    if h.commandOwnerGen = m.ownerGen then storeOwnerGen g 0

section Lifetime

variable {cfg : LLConfig} {session : UInt64} {s : Subscriber}

/-- A subscriber that nobody has opened yet is not attached. -/
theorem Rooted.create : Rooted cfg session {} where
  hdr := .inl rfl
  session := fun attached => by cases attached
  tx := fun attached => by cases attached
  rx := fun attached => by cases attached
  token := fun owns => by cases owns

/-- A subscriber that is opened attaches to the session at most. -/
theorem open_outcome (hosts : Hosts cfg session s.world) (new : s.impl = {}) (name : Name)
    (system : Circumstances)
    : Outcome cfg session s ((openSubscriber name system).run s).2 := by
  let start : Subscriber :=
    { (nowNs.run s).2 with impl := { name, lastProgress := s.clock 0 } }
  have run : ((openSubscriber name system).run s).2 = ((tryConnect system).run start).2 := rfl
  have named : Outcome cfg session s start := by
    refine .of_same (new ▸ Rooted.create) hosts ?_ rfl _ rfl rfl rfl
    rw [new]
    exact ⟨rfl, rfl, rfl, rfl, rfl, rfl⟩
  rw [run]
  exact named.trans (course_tryConnect system start named.rooted named.hosts)

/-- What a destructor leaves behind: the token, or none. -/
structure Released (cfg : LLConfig) (session : UInt64) (s next : Subscriber) : Prop where
  hosts : Hosts cfg session next.world
  down : (next.world.segments 0).down = (s.world.segments 0).down
  up : (next.world.segments 0).up = (s.world.segments 0).up
  token
    : (next.world.segments 0).token = (s.world.segments 0).token
      ∨ (next.world.segments 0).token = 0

/-- The destructor leaves this behind. -/
theorem close_released (rooted : Rooted cfg session s.impl) (hosts : Hosts cfg session s.world)
    : Released cfg session s (closeSubscriber.run s).2 := by
  have same : Released cfg session s s := ⟨hosts, rfl, rfl, .inl rfl⟩
  rw [closeSubscriber, Call.run_bind, Call.run_impl]
  cases attached : s.impl.hdr with
  | none => exact same
  | some g =>
      obtain rfl := rooted.attached attached
      dsimp only
      rw [Call.run_ite]
      split
      · rw [Call.run_bind, Call.run_header, Call.run_ite]
        split
        · have segment := s.world.setSegment_same 0
          refine ⟨⟨hosts.bound, ?_⟩, ?_, ?_, .inr ?_⟩
          · refine (segment _).symm ▸ ?_
            exact hosts.announces.claimed _ _
          · exact (congrArg (·.down) (segment _)).trans rfl
          · exact (congrArg (·.up) (segment _)).trans rfl
          · exact (congrArg Segment.token (segment _)).trans rfl
        · exact same
      · exact same

end Lifetime

end ShmFrame.Calls
