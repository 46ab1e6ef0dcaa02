import ShmFrame.Calls.Connect
import ShmFrame.Commands.RingCalls

/-! The subscriber's command calls and timeouts, each performed without interruption. -/

namespace ShmFrame.Calls

open ShmFrame.Commands ShmFrame.Foundation

namespace Call

/-- Works on the ring that carries commands to the producer. -/
def onUp {Value : Type} (g : Nat) (use : RingData → RingData × Value) : Call Value :=
  modifyGet fun s =>
    let segment := s.world.segments g
    let (up, value) := use segment.up
    (value, { s with world := s.world.setSegment g { segment with up } })

/-- Works on the ring that carries commands to the subscriber. -/
def onDown {Value : Type} (g : Nat) (use : RingData → RingData × Value) : Call Value :=
  modifyGet fun s =>
    let segment := s.world.segments g
    let (down, value) := use segment.down
    (value, { s with world := s.world.setSegment g { segment with down } })

end Call

open Call

/-- `LLSubscriber::send`: the id of the command, if it was accepted. -/
def send (request : PushCall) : Call (Option UInt64) := do
  let m ← impl
  let some g := m.hdr | return none
  if !(← stillOwnsCommands g) then return none
  let m ← impl
  let now ← nowNs
  let call := { request with id := m.nextCmd, timestampNs := now }
  if ← onUp g fun up => push m.tx up call then
    setImpl { m with nextCmd := m.nextCmd + 1, sent := m.sent + 1 }
    return some m.nextCmd
  else
    setImpl { m with cmdDropped := m.cmdDropped + 1 }
    return none

/-- `LLSubscriber::receive`. -/
def receive : Call (Option LLShmCommand) := do
  let m ← impl
  let some g := m.hdr | return none
  if !(← stillOwnsCommands g) then return none
  let m ← impl
  let some command ← onDown g fun down => pop m.rx down | return none
  setImpl { m with recvd := m.recvd + 1, lastProgress := ← nowNs }
  return some command

/-- `set_stale_timeout_ms`. -/
def setStaleTimeoutMs (ms : UInt32) : Call Unit := do
  let m ← impl
  let staleNs := ms.toUInt64 * 1000 * 1000
  setImpl { m with staleNs, retryNs := if staleNs / 2 ≠ 0 then staleNs / 2 else 1 }

/-- The first half of `read_latest(dst, info)`: the result that ends the call early, if there
is one.
-/
def vectorGate (system : Circumstances) : Call (Option LLReadResult) := do
  if !(← poll system) then return some .disconnected
  if !(← cheapGate) then return some .throttled
  return none

/-- The call is its first half and then the other overload. -/
theorem readLatestVector_eq (first second : Circumstances) (dst : Buffer) (info : LLFrameInfo)
    : readLatestVector first second dst info
      = (do
          match ← vectorGate first with
          | some result => return { result, info, dst }
          | none => readLatest second (dst.resize (← impl).remote.maxPayload) info) := by
  simp only [readLatestVector, vectorGate, bind_assoc]
  congr 1
  funext alive
  cases alive with
  | false => rfl
  | true =>
      simp only [Bool.not_true, Bool.false_eq_true, if_false, bind_assoc]
      congr 1
      funext passes
      cases passes <;> rfl

-----------------------------------------------------------------------------------------
-- What they can do
-----------------------------------------------------------------------------------------

/-- Working on a ring changes nothing a producer's frames depend on. -/
theorem refreshes_onUp {Value : Type} (g : Nat) (use : RingData → RingData × Value)
    : Steady Refreshes (onUp g use) :=
  fun s => ⟨⟨⟨0, rfl⟩, rfl, s.world.produced_setSegment rfl⟩, rfl⟩

theorem refreshes_onDown {Value : Type} (g : Nat) (use : RingData → RingData × Value)
    : Steady Refreshes (onDown g use) :=
  fun s => ⟨⟨⟨0, rfl⟩, rfl, s.world.produced_setSegment rfl⟩, rfl⟩

/-- `send` changes its own counters and the claim at most. -/
theorem send_run (request : PushCall) (s : Subscriber)
    : ∃ result next nextCmd sent cmdDropped,
        (send request).run s = (result, next)
        ∧ Onward s next
        ∧ unclaimed next.impl = unclaimed { s.impl with nextCmd, sent, cmdDropped } := by
  have same
      : unclaimed s.impl
        = unclaimed {
            s.impl with
            nextCmd := s.impl.nextCmd
            sent := s.impl.sent
            cmdDropped := s.impl.cmdDropped
          } :=
    rfl
  rw [send, Call.run_bind, Call.run_impl]
  cases hdr : s.impl.hdr with
  | none => exact ⟨_, s, _, _, _, rfl, Std.Refl.refl s, same⟩
  | some g =>
      dsimp only
      rw [Call.run_bind]
      have owns := refreshes_stillOwnsCommands g s
      generalize (stillOwnsCommands g).run s = checked at owns
      obtain ⟨yes, owner⟩ := checked
      cases yes with
      | false => exact ⟨_, owner, _, _, _, rfl, owns.toOnward, owns.impl.trans same⟩
      | true =>
          simp only [Bool.not_true, Bool.false_eq_true, if_false]
          rw [Call.run_bind, Call.run_impl, Call.run_bind, Call.run_bind]
          let call :=
            { request with id := owner.impl.nextCmd, timestampNs := (nowNs.run owner).1 }
          have pushed :=
            refreshes_onUp g (fun up => push owner.impl.tx up call) (nowNs.run owner).2
          have whole : Refreshes s _ :=
            IsTrans.trans _ _ _ owns (IsTrans.trans _ _ _ (refreshes_nowNs owner) pushed)
          generalize (onUp g fun up => push owner.impl.tx up call).run (nowNs.run owner).2 = result
            at whole
          obtain ⟨accepted, rest⟩ := result
          have counted (nextCmd sent cmdDropped : UInt64) :=
            congrArg (fun m : LLSubscriber.Impl => { m with nextCmd, sent, cmdDropped }) owns.impl
          have onward (m : LLSubscriber.Impl) : Onward s { rest with impl := m } :=
            ⟨whole.clock, whole.bound, whole.produced⟩
          cases accepted with
          | false => exact ⟨_, _, _, _, _, rfl, onward _, counted _ _ _⟩
          | true => exact ⟨_, _, _, _, _, rfl, onward _, counted _ _ _⟩

/-- Everything `receive` can do. -/
inductive Received (s : Subscriber) : Option LLShmCommand × Subscriber → Prop
  | nothing {next} (refreshes : Refreshes s next) : Received s (none, next)
  | command {g start next command} (attached : s.impl.hdr = some g) (before : Onward s start)
    (after : Onward start next)
    (impl
      : unclaimed next.impl
        = unclaimed {
            s.impl with
            recvd := s.impl.recvd + 1
            lastProgress := start.clock 0
          })
    : Received s (some command, next)

/-- A call of `receive` does one of these things. -/
theorem receive_cases (s : Subscriber) : Received s (receive.run s) := by
  rw [receive, Call.run_bind, Call.run_impl]
  cases hdr : s.impl.hdr with
  | none => exact .nothing (Std.Refl.refl s)
  | some g =>
      dsimp only
      rw [Call.run_bind]
      have owns := refreshes_stillOwnsCommands g s
      generalize (stillOwnsCommands g).run s = checked at owns
      obtain ⟨yes, owner⟩ := checked
      cases yes with
      | false => exact .nothing owns
      | true =>
          simp only [Bool.not_true, Bool.false_eq_true, if_false]
          rw [Call.run_bind, Call.run_impl, Call.run_bind]
          have popped := refreshes_onDown g (fun down => pop owner.impl.rx down) owner
          generalize (onDown g fun down => pop owner.impl.rx down).run owner = result at popped
          obtain ⟨got, start⟩ := result
          have whole : Refreshes s start := IsTrans.trans _ _ _ owns popped
          cases got with
          | none => exact .nothing whole
          | some command =>
              have ticked := refreshes_nowNs start
              refine .command hdr whole.toOnward ⟨ticked.clock, ticked.bound, ticked.produced⟩ ?_
              have recvd : owner.impl.recvd = s.impl.recvd := congrArg (·.recvd) owns.impl
              have counted :=
                congrArg
                  (fun m : LLSubscriber.Impl =>
                    { m with recvd := s.impl.recvd + 1, lastProgress := start.clock 0 })
                  owns.impl
              rw [← recvd] at counted ⊢
              exact counted

end ShmFrame.Calls
