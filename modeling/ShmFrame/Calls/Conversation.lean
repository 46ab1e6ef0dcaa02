import ShmFrame.Calls.Exchange
import ShmFrame.Calls.Publisher

/-! Conversations: one publisher that answers what it receives, and any number of subscribers
that attach to its session one after the other. A reply carries the id of what it answers;
ids start over with every owner, while the rings are adopted as they are.
-/

namespace ShmFrame.Calls

open ShmFrame.Commands ShmFrame.Foundation Call

-----------------------------------------------------------------------------------------
-- The publisher's command calls
-----------------------------------------------------------------------------------------

namespace Publisher

/-- `LLPublisher::send`: the id of the command, if it was accepted. -/
def send (p : Publisher) (request : PushCall) (now : UInt64) : Publisher × Option UInt64 :=
  let call := { request with id := p.impl.nextCmd, timestampNs := now }
  let pushed := push p.impl.cfg.downstreamRing p.segment.down call
  if pushed.2 then
    ({
      impl := { p.impl with nextCmd := p.impl.nextCmd + 1, sent := p.impl.sent + 1 }
      segment := { p.segment with down := pushed.1 }
    }, some p.impl.nextCmd)
  else ({ p with impl := { p.impl with dropped := p.impl.dropped + 1 } }, none)

/-- `LLPublisher::receive`. -/
def receive (p : Publisher) : Publisher × Option LLShmCommand :=
  let popped := pop p.impl.cfg.upstreamRing p.segment.up
  match popped.2 with
  | none => (p, none)
  | some command =>
      ({
        impl := { p.impl with recvd := p.impl.recvd + 1 }
        segment := { p.segment with up := popped.1 }
      }, some command)

end Publisher

/-- What a publisher changes apart from the slots and the rings. -/
structure Publishes (p next : Publisher) : Prop where
  cfg : next.impl.cfg = p.impl.cfg
  header
    : ∃ latest shutdown beat,
        next.segment.header
          = { p.segment.header with latest, shutdown, lastHeartbeatNs := beat }
  down : next.segment.down = p.segment.down
  up : next.segment.up = p.segment.up

/-- The mark that a destructor leaves in the segment. -/
def Publisher.shutdown (p : Publisher) : Publisher :=
  { p with segment := { p.segment with header := { p.segment.header with shutdown := 1 } } }

/-- The calls on the frame path have nothing to do with commands, by cases on the call. -/
theorem Publisher.step_publishes {p next : Publisher} {action : PublisherAction}
    (own : ∀ gen beat down up, action ≠ .subscribers gen beat down up)
    (stepped : p.step action = some next)
    : Publishes p next := by
  have same : Publishes p p := ⟨rfl, ⟨_, _, _, rfl⟩, rfl, rfl⟩
  cases action with
  | subscribers gen beat down up => exact absurd rfl (own gen beat down up)
  | beginWrite width height now =>
      obtain rfl := Option.some.inj stepped
      simp only [beginWrite]
      rcases p.impl.admitWrite_cases width height now with same' | counted | ⟨-, begun⟩
      · rw [same']
        exact same
      · rw [counted]
        exact ⟨rfl, ⟨_, _, _, rfl⟩, rfl, rfl⟩
      · rw [begun]
        exact ⟨rfl, ⟨_, _, _, rfl⟩, rfl, rfl⟩
  | storeByte offset byte =>
      simp only [step, storeByte] at stepped
      split at stepped
      · split at stepped
        · obtain rfl := Option.some.inj stepped
          exact ⟨rfl, ⟨_, _, _, rfl⟩, rfl, rfl⟩
        · cases stepped
      · cases stepped
  | cancelWrite =>
      obtain rfl := Option.some.inj stepped
      unfold cancelWrite
      split
      · exact same
      · exact ⟨rfl, ⟨_, _, _, rfl⟩, rfl, rfl⟩
  | commit timestamp now published =>
      obtain rfl := Option.some.inj stepped
      unfold commit
      split
      · exact same
      · exact ⟨rfl, ⟨_, _, _, rfl⟩, rfl, rfl⟩
  | heartbeat now =>
      obtain rfl := Option.some.inj stepped
      exact ⟨rfl, ⟨_, _, _, rfl⟩, rfl, rfl⟩
  | setMaxPublish intervalNs =>
      obtain rfl := Option.some.inj stepped
      exact ⟨rfl, ⟨_, _, _, rfl⟩, rfl, rfl⟩

-----------------------------------------------------------------------------------------
-- The conversation
-----------------------------------------------------------------------------------------

/-- A request that a subscriber has sent, with the id that its `send` returned. -/
structure Request where
  who : Nat
  id : UInt64
deriving DecidableEq

/-- A command that a subscriber has received: the how-manieth of the publisher's commands it
is, and how many requests had been sent by then.
-/
structure Delivery where
  who : Nat
  command : LLShmCommand
  reply : Nat
  asked : Nat
deriving DecidableEq

/-- A publisher with its segment, whether it is gone, what it has received, and the
subscribers in the order in which they were opened, none where one was closed. History
variables: the requests in the order in which they were sent, for every command of the
publisher the request it answers, if any, and what the subscribers have received.
-/
structure Conversation where
  publisher : Publisher
  gone : Bool := false
  received : List LLShmCommand := []
  subscribers : List (Option LLSubscriber.Impl) := []
  requests : List Request := []
  answers : List (Option Nat) := []
  deliveries : List Delivery := []

/-- A public call. Each call of a subscriber is given the readings of the clock it makes. The
publisher sends a command on its own account, or answers one that it has received.
-/
inductive ConversationAction
  | open_ (name : Name) (system : Circumstances) (clock : Nat → UInt64)
  | call (who : Nat) (call : PlainCall) (clock : Nat → UInt64)
  | send (who : Nat) (request : PushCall) (clock : Nat → UInt64)
  | receive (who : Nat) (clock : Nat → UInt64)
  | close (who : Nat)
  | publish (action : PublisherAction)
  | publisherSend (answering : Option Nat) (request : PushCall) (now : UInt64)
  | publisherReceive
  | publisherClose

namespace Conversation

/-- A publisher that nobody has attached to. -/
def create (cfg : LLConfig) (session now : UInt64) : Conversation where
  publisher := .create cfg session now

/-- The private state of a subscriber that is open. -/
def present (c : Conversation) (who : Nat) : Option LLSubscriber.Impl :=
  (c.subscribers[who]?).join

/-- The token the header holds. -/
def token (c : Conversation) : UInt64 := c.publisher.segment.token

/-- What the publisher has sent. -/
def sent (c : Conversation) : List LLShmCommand := c.publisher.segment.down.queue.accepted

/-- What a subscriber works on. With the publisher the name is gone. -/
def view (c : Conversation) (m : LLSubscriber.Impl) (clock : Nat → UInt64) : Subscriber where
  impl := m
  world := {
    segments := fun _ => c.publisher.segment
    bound := if c.gone then none else some 0
  }
  clock := clock

/-- What a call of a subscriber has stored in the segment. -/
def stored (c : Conversation) (next : Subscriber) : Conversation :=
  { c with publisher := { c.publisher with segment := next.world.segments 0 } }

/-- After a call of a subscriber. -/
def after (c : Conversation) (who : Nat) (next : Subscriber) : Conversation :=
  { c.stored next with subscribers := c.subscribers.set who (some next.impl) }

/-- After another subscriber was opened. -/
def opened (c : Conversation) (next : Subscriber) : Conversation :=
  { c.stored next with subscribers := c.subscribers ++ [some next.impl] }

/-- After a subscriber was closed. -/
def closed (c : Conversation) (who : Nat) (next : Subscriber) : Conversation :=
  { c.stored next with subscribers := c.subscribers.set who none }

/-- The id that a command of the publisher refers to. -/
def refersTo (c : Conversation) : Option Nat → Option UInt64
  | none => some 0
  | some index => (c.received[index]?).map (·.id)

/-- A call of a subscriber. Only subscribers that are open make calls. -/
def stepSubscriber (c : Conversation) (who : Nat) (action : LLSubscriber.Impl → Conversation)
    : Option Conversation :=
  (c.present who).map action

/-- A call of the publisher, until it is gone. -/
def stepPublisher (c : Conversation) (next : Option Conversation) : Option Conversation :=
  if c.gone then none else next

/-- One call. -/
def step (c : Conversation) (action : ConversationAction) : Option Conversation :=
  match action with
  | .open_ name system clock =>
      some (c.opened ((openSubscriber name system).run (c.view {} clock)).2)
  | .call who call clock =>
      c.stepSubscriber who fun m => c.after who (call.perform.run (c.view m clock)).2
  | .send who request clock =>
      c.stepSubscriber who fun m =>
        let result := (Calls.send request).run (c.view m clock)
        match result.1 with
        | none => c.after who result.2
        | some id => { c.after who result.2 with requests := c.requests ++ [{ who, id }] }
  | .receive who clock =>
      c.stepSubscriber who fun m =>
        let result := Calls.receive.run (c.view m clock)
        match result.1 with
        | none => c.after who result.2
        | some command =>
            let delivery :=
              { who, command, reply := c.deliveries.length, asked := c.requests.length }
            { c.after who result.2 with deliveries := c.deliveries ++ [delivery] }
  | .close who =>
      c.stepSubscriber who fun m =>
        c.closed who (closeSubscriber.run (c.view m fun _ => 0)).2
  | .publish (.subscribers ..) => none
  | .publish action =>
      c.stepPublisher ((c.publisher.step action).map fun publisher => { c with publisher })
  | .publisherSend answering request now =>
      c.stepPublisher ((c.refersTo answering).map fun replyTo =>
        let result := c.publisher.send { request with replyTo } now
        match result.2 with
        | none => { c with publisher := result.1 }
        | some _ => { c with publisher := result.1, answers := c.answers ++ [answering] })
  | .publisherReceive =>
      let result := c.publisher.receive
      c.stepPublisher (some (match result.2 with
        | none => { c with publisher := result.1 }
        | some command =>
            { c with publisher := result.1, received := c.received ++ [command] }))
  | .publisherClose =>
      c.stepPublisher (some { c with publisher := c.publisher.shutdown, gone := true })

/-- An open subscriber that owns the channel. -/
def Owner (c : Conversation) (who : Nat) : Prop :=
  ∃ m ∈ c.present who, Owns m c.token

/-- The channel has one owner at a time. -/
def OneOwner (c : Conversation) : Prop :=
  ∀ first < c.subscribers.length, ∀ second < c.subscribers.length,
    c.Owner first → c.Owner second → first = second

/-- A delivered command is the one that the publisher has sent as this one, and if it refers
to an id that an earlier `send` of the subscriber has returned, it answers that very request.
-/
def Lawful (c : Conversation) (d : Delivery) : Prop :=
  c.sent[d.reply]? = some d.command
  ∧ ∀ index < d.asked,
      c.requests[index]? = some { who := d.who, id := d.command.replyTo }
      → c.answers[d.reply]? = some (some index)

end Conversation

/-- All calls in any order. -/
def conversationMachine : Machine Conversation ConversationAction where
  step := Conversation.step

-----------------------------------------------------------------------------------------
-- Clean hand-overs
-----------------------------------------------------------------------------------------

/-- A ring takes a command of a size. -/
def Admits (ring : LLRing) (d : RingData) (size : UInt32) : Prop :=
  size ≤ ring.maxBytes ∧ d.head - d.tail < ring.slots.toUInt64

instance admitsDecidable (ring : LLRing) (d : RingData) (size : UInt32)
    : Decidable (Admits ring d size) :=
  inferInstanceAs (Decidable (_ ∧ _))

namespace Conversation

/-- No reply that is still on its way refers to an id, and the subscriber has not used it. -/
def Unused (c : Conversation) (who : Nat) (id : UInt64) : Prop :=
  (∀ command ∈ c.sent.drop c.deliveries.length, command.replyTo ≠ id)
  ∧ { who, id } ∉ c.requests

/-- The owner's requests under an id are the one that is answered, if there are any. -/
def Unmistakable (c : Conversation) (answering : Option Nat) (id : UInt64) : Prop :=
  ∀ index < c.requests.length,
    ∀ r ∈ c.requests[index]?, r.id = id → c.Owner r.who → answering = some index

/-- What the channel still holds from earlier owners is told apart from what the present one
sends. A request is sent under an id that is unused, and a command is answered only while the
owner has sent no other one under its id. Neither matters where the ring refuses.
-/
def Clean (c : Conversation) : ConversationAction → Prop
  | .send who request _ =>
      c.Owner who
      → Admits c.publisher.impl.cfg.upstreamRing c.publisher.segment.up request.size
      → ∀ m ∈ c.present who, c.Unused who m.nextCmd
  | .publisherSend answering request _ =>
      Admits c.publisher.impl.cfg.downstreamRing c.publisher.segment.down request.size
      → ∀ id ∈ c.refersTo answering, c.Unmistakable answering id
  | _ => True

end Conversation

-----------------------------------------------------------------------------------------
-- Who is there
-----------------------------------------------------------------------------------------

namespace Conversation

variable {c : Conversation} {who other : Nat} {m : LLSubscriber.Impl} {next : Subscriber}

/-- A call that the publisher makes is made. -/
theorem stepPublisher_some {outcome : Option Conversation} {after : Conversation}
    (stepped : c.stepPublisher outcome = some after)
    : outcome = some after := by
  unfold stepPublisher at stepped
  split at stepped
  · cases stepped
  · exact stepped

/-- Only subscribers that were opened are there. -/
theorem present_lt (there : c.present who = some m) : who < c.subscribers.length := by
  by_contra beyond
  rw [present, List.getElem?_eq_none (Nat.le_of_not_lt beyond)] at there
  cases there

/-- After a call the caller is there with its new private state, and all others as before. -/
theorem present_after (there : c.present who = some m) (other : Nat)
    : (c.after who next).present other
      = if other = who then some next.impl else c.present other := by
  simp only [present, after, stored, List.getElem?_set, present_lt there]
  split
  · rename_i same
    rw [if_pos same.symm]
    rfl
  · rename_i apart
    rw [if_neg (Ne.symm apart)]

/-- After a subscriber was closed it is not there any more. -/
theorem present_closed (other : Nat)
    : (c.closed who next).present other = if other = who then none else c.present other := by
  simp only [present, closed, stored, List.getElem?_set]
  split
  · rename_i same
    rw [if_pos same.symm]
    split <;> rfl
  · rename_i apart
    rw [if_neg (Ne.symm apart)]

/-- After another one was opened it is there, too. -/
theorem present_opened (other : Nat)
    : (c.opened next).present other
      = if other = c.subscribers.length then some next.impl else c.present other := by
  simp only [present, opened, stored]
  split
  · rename_i same
    subst same
    rw [List.getElem?_append_right (Nat.le_refl _), Nat.sub_self]
    rfl
  · rename_i apart
    rcases Nat.lt_or_gt_of_ne apart with before | after
    · rw [List.getElem?_append_left before]
    · rw [List.getElem?_eq_none (by simp; omega), List.getElem?_eq_none (by omega)]

/-- Only subscribers that were opened own the channel. -/
theorem Owner.lt (owner : c.Owner who) : who < c.subscribers.length := by
  obtain ⟨m, there, -⟩ := owner
  exact present_lt there

/-- One owner at a time. -/
theorem OneOwner.eq (one : c.OneOwner) (first : c.Owner who) (second : c.Owner other)
    : who = other :=
  one who first.lt other second.lt first second

/-- A call that leaves the token alone makes no owners, if its caller was one. -/
theorem Owner.before (there : c.present who = some m) (owns : Owns m c.token)
    (token : (next.world.segments 0).token = c.token) (owner : (c.after who next).Owner other)
    : c.Owner other := by
  obtain ⟨m', there', owns'⟩ := owner
  rw [present_after there] at there'
  split at there'
  · rename_i same
    exact ⟨m, same ▸ there, owns⟩
  · have kept : (c.after who next).token = c.token := token
    rw [kept] at owns'
    exact ⟨m', there', owns'⟩

instance ownerDecidable (c : Conversation) (who : Nat) : Decidable (c.Owner who) :=
  inferInstanceAs (Decidable (∃ m ∈ c.present who, _))

instance oneOwnerDecidable (c : Conversation) : Decidable c.OneOwner :=
  inferInstanceAs (Decidable (∀ first < _, ∀ second < _, _))

instance lawfulDecidable (c : Conversation) (d : Delivery) : Decidable (c.Lawful d) :=
  inferInstanceAs (Decidable (_ ∧ ∀ index < _, _))

instance unusedDecidable (c : Conversation) (who : Nat) (id : UInt64)
    : Decidable (c.Unused who id) :=
  inferInstanceAs (Decidable (_ ∧ _))

instance unmistakableDecidable (c : Conversation) (answering : Option Nat)
    : DecidablePred (c.Unmistakable answering) := fun _ =>
  inferInstanceAs (Decidable (∀ index < _, ∀ r ∈ c.requests[index]?, _))

instance cleanDecidable (c : Conversation) : DecidablePred c.Clean
  | .send .. => inferInstanceAs (Decidable (_ → _ → ∀ m ∈ c.present _, _))
  | .publisherSend answering _ _ =>
      -- Only the id that is referred to is tried, not all ids there are.
      have : Decidable (∀ id ∈ c.refersTo answering, c.Unmistakable answering id) :=
        Option.decidableForallMem _
      inferInstanceAs (Decidable (_ → ∀ id ∈ c.refersTo answering, _))
  | .open_ .. | .call .. | .receive .. | .close .. | .publish .. | .publisherReceive
  | .publisherClose =>
      inferInstanceAs (Decidable True)

end Conversation

end ShmFrame.Calls
