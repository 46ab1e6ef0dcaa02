import ShmFrame.Accesses.UninterruptedCreate
import ShmFrame.Foundation.Traces

/-! Whole conversations on bytes. Calls follow one another without overlapping, each of them a
program of single accesses to the one segment; what they return and leave behind is what the
calls on words do.
-/

namespace ShmFrame.Accesses

open ShmFrame.Foundation ShmFrame.Foundation.Program
open Commands (PushCall LLShmCommand)
open Calls (RowCopy World Segment Subscriber Circumstances Call Seat Seated Buffer Publisher
  PublisherAction TimedPublisher Conversation ConversationAction Request Delivery
  conversationMachine)

-----------------------------------------------------------------------------------------
-- Calls of a subscriber
-----------------------------------------------------------------------------------------

/-- A public call of an open subscriber. -/
inductive Ask
  | poll
  | readLatest (dst : Buffer) (info : LLFrameInfo)
  | readLatestVector (dst : Buffer) (info : LLFrameInfo)
  | setStaleTimeoutMs (ms : UInt32)
  | setMaxRead (intervalNs : UInt64)
  | send (request : PushCall)
  | receive

/-- What it returns. -/
inductive Answer
  | nothing
  | alive (alive : Bool)
  | read (result : LLReadResult) (info : LLFrameInfo) (copied : List UInt8)
  | sent (id : Option UInt64)
  | received (command : Option LLShmCommand)
deriving DecidableEq

/-- What both overloads of `read_latest` return on words. -/
def Answer.ofRead (ret : Calls.ReadReturn) : Answer := .read ret.result ret.info (copiedBytes ret)

/-- The call on bytes. -/
def Ask.onBytes (m : LLSubscriber.Impl) : Ask → Access (LLSubscriber.Impl × Answer)
  | .poll => do
      let polled ← Accesses.poll m
      return (polled.1, .alive polled.2)
  | .readLatest dst info => do
      let read ← Accesses.readLatest m dst.size info
      return (read.1, .read read.2.result read.2.info read.2.dst)
  | .readLatestVector dst info => do
      let read ← Accesses.readLatestVector m dst.size info
      return (read.1, .read read.2.result read.2.info read.2.dst)
  | .setStaleTimeoutMs ms => do
      let staleNs := ms.toUInt64 * 1000 * 1000
      return ({ m with staleNs, retryNs := if staleNs / 2 ≠ 0 then staleNs / 2 else 1 }, .nothing)
  | .setMaxRead intervalNs => return ({ m with minReadNs := intervalNs }, .nothing)
  | .send request => do
      let sent ← Accesses.send m request
      return (sent.1, .sent sent.2)
  | .receive => do
      let received ← Accesses.receive m
      return (received.1, .received received.2)

/-- The call on words. -/
def Ask.onWords (systems : Circumstances × Circumstances) : Ask → Call Answer
  | .poll => do return .alive (← Calls.poll systems.1)
  | .readLatest dst info => do return .ofRead (← Calls.readLatest systems.1 dst info)
  | .readLatestVector dst info => do
      return .ofRead (← Calls.readLatestVector systems.1 systems.2 dst info)
  | .setStaleTimeoutMs ms => do
      Calls.setStaleTimeoutMs ms
      return .nothing
  | .setMaxRead intervalNs => do
      Call.setImpl { (← Call.impl) with minReadNs := intervalNs }
      return .nothing
  | .send request => do return .sent (← Calls.send request)
  | .receive => do return .received (← Calls.receive)

section Asking

variable {a : Alone} {s : Subscriber}

/-- What is handed back is the same answer. -/
theorem Hands.answer {dst : Buffer} {outcome : ReadReturn} {ret : Calls.ReadReturn}
    (hands : Hands dst outcome ret)
    : Answer.read outcome.result outcome.info outcome.dst = .ofRead ret := by
  rw [Answer.ofRead, hands.copied, hands.into]
  rfl

/-- A call that nobody interrupts does on bytes what it does on words, by cases on the call. -/
theorem ask_follows (depicts : Depicts a s.world s.clock) (seated : Seated s.world s.impl)
    (ask : Ask)
    : (ask.onBytes s.impl).Follows alone a ask.onWords s fun outcome later answer next =>
        Agrees outcome.1 later next ∧ outcome.2 = answer := by
  cases ask with
  | poll =>
      refine Follows.rename (fun system => (system, {})) (fun _ => rfl) ?_
      refine Follows.bindFirst (poll_follows depicts seated) fun polled later _ agrees => ?_
      exact .pure () ⟨agrees.1, congrArg Answer.alive agrees.2⟩
  | readLatest dst info =>
      refine Follows.rename (fun system => (system, {})) (fun _ => rfl) ?_
      refine Follows.bindFirst (readLatest_follows depicts seated dst info)
        fun read later _ agrees => ?_
      exact .pure () ⟨agrees.1, agrees.2.answer⟩
  | readLatestVector dst info =>
      refine Follows.bindFirst (readLatestVector_follows depicts seated dst info)
        fun read later _ agrees => ?_
      obtain ⟨agrees, grown, -, hands⟩ := agrees
      exact .pure () ⟨agrees, hands.answer⟩
  | setStaleTimeoutMs ms => exact .pure ({}, {}) ⟨⟨rfl, depicts⟩, rfl⟩
  | setMaxRead intervalNs => exact .pure ({}, {}) ⟨⟨rfl, depicts⟩, rfl⟩
  | send request =>
      refine Follows.rename (fun _ : Unit => ({}, {})) (fun _ => rfl) ?_
      refine Follows.bindFirst (send_follows depicts seated request) fun sent later _ agrees => ?_
      exact .pure () ⟨agrees.1, congrArg Answer.sent agrees.2⟩
  | receive =>
      refine Follows.rename (fun _ : Unit => ({}, {})) (fun _ => rfl) ?_
      refine Follows.bindFirst (receive_follows depicts seated) fun received later _ agrees => ?_
      exact .pure () ⟨agrees.1, congrArg Answer.received agrees.2⟩

/-- It keeps what the producer says, and what is known of the segment. -/
theorem seats_ask (systems : Circumstances × Circumstances) (ask : Ask)
    : Steady Calls.Seats (ask.onWords systems) := by
  cases ask with
  | poll => exact .bind (Calls.seats_poll _) fun _ => .pure _
  | readLatest dst info => exact .bind (Calls.seats_readLatest _ dst info) fun _ => .pure _
  | readLatestVector dst info =>
      exact .bind (Calls.seats_readLatestVector _ _ dst info) fun _ => .pure _
  | setStaleTimeoutMs ms => exact fun s => Calls.seats_setImpl ⟨rfl, rfl, rfl, rfl, rfl, rfl⟩
  | setMaxRead intervalNs => exact fun s => Calls.seats_setImpl ⟨rfl, rfl, rfl, rfl, rfl, rfl⟩
  | send request => exact .bind (Calls.seats_send request) fun _ => .pure _
  | receive => exact .bind Calls.seats_receive fun _ => .pure _

end Asking

-----------------------------------------------------------------------------------------
-- The publisher's calls on the frame path
-----------------------------------------------------------------------------------------

/-- The call on words. -/
def PublisherCall.onWords (s : TimedPublisher) : PublisherCall → TimedPublisher × PublisherReturn
  | .beginWrite width height =>
      let begun := s.beginWrite width height
      let offset :=
        slotPayload (computeLayout s.publisher.impl.cfg) begun.1.publisher.impl.writeSlot
      (begun.1, .pointer (if begun.2 then some offset else none))
  | .cancelWrite => ({ s with publisher := s.publisher.cancelWrite }, .nothing)
  | .commit timestampNs => (s.commit timestampNs, .nothing)
  | .publish src width height srcStride =>
      let published := s.publish src width height srcStride
      (published.1, .published published.2)
  | .setMaxPublish intervalNs =>
      let p := s.publisher
      ({ s with publisher := { p with impl := { p.impl with minIntervalNs := intervalNs } } },
        .nothing)

/-- A call that nobody interrupts does on bytes what it does on words, by cases on the call. -/
theorem frame_mirrors {a : Alone} {world : World} {m : LLPublisher.Impl} {s : TimedPublisher}
    (mirrors : Mirrors 0 world m a s) (hosting : Hosting s.publisher) (call : PublisherCall)
    (unwrapped : call.Unwrapped s.publisher.impl.cfg)
    : (call.program m).Ensures alone Anything a fun outcome later =>
        Mirrors 0 world outcome.1 later (call.onWords s).1
        ∧ outcome.2 = (call.onWords s).2 := by
  cases call with
  | beginWrite width height =>
      refine Ensures.bind (beginWrite_mirrors mirrors hosting width height)
        fun begun later agrees => ⟨agrees.1, ?_⟩
      rw [agrees.2, mirrors.impl]
      rfl
  | cancelWrite =>
      exact Ensures.bind (cancelWrite_mirrors mirrors hosting) fun n later agrees => ⟨agrees, rfl⟩
  | commit timestampNs =>
      exact Ensures.bind (commit_mirrors mirrors hosting timestampNs)
        fun n later agrees => ⟨agrees, rfl⟩
  | publish src width height srcStride =>
      refine Ensures.bind (publish_mirrors mirrors hosting src srcStride unwrapped)
        fun outcome later agrees => ⟨agrees.1, ?_⟩
      rw [agrees.2]
      rfl
  | setMaxPublish intervalNs =>
      obtain ⟨rfl, depicts⟩ := mirrors
      exact ⟨⟨rfl, depicts⟩, rfl⟩

-----------------------------------------------------------------------------------------
-- Two levels of a conversation
-----------------------------------------------------------------------------------------

/-- A public call, or a byte that the caller stores through the pointer it was handed, with
what it returns.
-/
inductive Event
  | open_ (name : Name)
  | ask (who : Nat) (ask : Ask) (answer : Answer)
  | close (who : Nat)
  | frame (call : PublisherCall) (ret : PublisherReturn)
  | storeByte (offset : Nat) (byte : UInt8)
  | heartbeat
  | publisherSend (answering : Option Nat) (request : PushCall) (id : Option UInt64)
  | publisherReceive (command : Option LLShmCommand)
  | publisherClose

/-- No size that is published fits only because a product has wrapped. -/
def Event.Unwrapped (c : LLConfig) : Event → Prop
  | .frame call _ => call.Unwrapped c
  | _ => True

/-- The bytes of a segment with its publisher, and the subscribers in the order in which they
were opened, none where one was closed. The publisher remembers what it has received.
-/
structure Dialogue where
  bytes : Bytes
  size : UInt64
  publisher : LLPublisher.Impl
  gone : Bool := false
  received : List LLShmCommand := []
  subscribers : List (Option LLSubscriber.Impl) := []

namespace Dialogue

/-- The private state of a subscriber that is open. -/
def present (d : Dialogue) (who : Nat) : Option LLSubscriber.Impl := (d.subscribers[who]?).join

/-- The id that a command of the publisher refers to. -/
def refersTo (d : Dialogue) : Option Nat → Option UInt64
  | none => some 0
  | some index => (d.received[index]?).map (·.id)

/-- What a call works on that is made now. With the publisher the name is gone. -/
def now (d : Dialogue) (clock : Nat → UInt64) : Alone where
  bytes := fun _ => d.bytes
  size := fun _ => d.size
  bound := if d.gone then none else some 0
  clock := clock

/-- After a call of a subscriber, which leaves some bytes. -/
def after (d : Dialogue) (who : Nat) (m : Option LLSubscriber.Impl) (later : Alone) : Dialogue :=
  { d with bytes := later.bytes 0, subscribers := d.subscribers.set who m }

/-- After a call of the publisher. -/
def published (d : Dialogue) (m : LLPublisher.Impl) (later : Alone) : Dialogue :=
  { d with bytes := later.bytes 0, publisher := m }

end Dialogue

/-- A call on bytes, made in one go. The answers it gets are all those a lone call may get. -/
inductive Dialogue.Does : Dialogue → Event → Dialogue → Prop
  | open_ {d clock m later} (name : Name)
    (returns : (openSubscriber name).Returns alone (d.now clock) m later)
    : Does d (.open_ name)
        { d with bytes := later.bytes 0, subscribers := d.subscribers ++ [some m] }
  | ask {d clock who m n answer later} (there : d.present who = some m) (ask : Ask)
    (returns : (ask.onBytes m).Returns alone (d.now clock) (n, answer) later)
    : Does d (.ask who ask answer) (d.after who (some n) later)
  | close {d who m later} (there : d.present who = some m)
    (returns : (Accesses.close m).Returns alone (d.now fun _ => 0) () later)
    : Does d (.close who) (d.after who none later)
  | frame {d clock m ret later} (here : d.gone = false) (call : PublisherCall)
    (returns : (call.program d.publisher).Returns alone (d.now clock) (m, ret) later)
    : Does d (.frame call ret) (d.published m later)
  | storeByte {d slot offset} (here : d.gone = false) (pending : d.publisher.pending = some slot)
    (inside : offset < d.publisher.cfg.maxPayload.toNat) (byte : UInt8)
    : Does d (.storeByte offset byte)
        (let payload := slotPayload (computeLayout d.publisher.cfg) slot
        { d with bytes := storeAt d.bytes ⟨payload.toNat + offset, 1⟩ byte.toUInt64 })
  | heartbeat {d clock later} (here : d.gone = false)
    (returns : (Accesses.heartbeat 0).Returns alone (d.now clock) () later)
    : Does d .heartbeat (d.published d.publisher later)
  | publisherSend {d clock answering replyTo m id later} (here : d.gone = false)
    (refers : d.refersTo answering = some replyTo) (request : PushCall)
    (returns
      : (Accesses.publisherSend 0 d.publisher { request with replyTo }).Returns alone
          (d.now clock) (m, id) later)
    : Does d (.publisherSend answering request id) (d.published m later)
  | publisherReceive {d clock m command later} (here : d.gone = false)
    (returns
      : (Accesses.publisherReceive 0 d.publisher).Returns alone (d.now clock) (m, command) later)
    : Does d (.publisherReceive command)
        { d.published m later with received := d.received ++ command.toList }
  | publisherClose {d clock later} (here : d.gone = false)
    (returns : (Accesses.publisherClose 0).Returns alone (d.now clock) () later)
    : Does d .publisherClose { d.published d.publisher later with gone := true }

/-- What a call that has returned adds to the history of a conversation. -/
def noted (c : Conversation) (who : Nat) : Answer → Conversation
  | .sent (some id) => { c with requests := c.requests ++ [{ who, id }] }
  | .received (some command) =>
      let delivery := { who, command, reply := c.deliveries.length, asked := c.requests.length }
      { c with deliveries := c.deliveries ++ [delivery] }
  | .nothing | .alive _ | .read .. | .sent none | .received none => c

/-- A call on words. -/
inductive Speaks : Conversation → Event → Conversation → Prop
  | open_ {c} (name : Name) (system : Circumstances) (clock : Nat → UInt64)
    : Speaks c (.open_ name)
        (c.opened ((Calls.openSubscriber name system).run (c.view {} clock)).2)
  | ask {c who m outcome} (there : c.present who = some m) (ask : Ask)
    (systems : Circumstances × Circumstances) (clock : Nat → UInt64)
    (returns : (ask.onWords systems).run (c.view m clock) = outcome)
    : Speaks c (.ask who ask outcome.1) (noted (c.after who outcome.2) who outcome.1)
  | close {c who m} (there : c.present who = some m)
    : Speaks c (.close who) (c.closed who (Calls.closeSubscriber.run (c.view m fun _ => 0)).2)
  | frame {c outcome} (here : c.gone = false) (call : PublisherCall) (clock : Nat → UInt64)
    (returns : call.onWords { publisher := c.publisher, clock } = outcome)
    : Speaks c (.frame call outcome.2) { c with publisher := outcome.1.publisher }
  | storeByte {c p offset byte} (here : c.gone = false)
    (stored : c.publisher.storeByte offset byte = some p)
    : Speaks c (.storeByte offset byte) { c with publisher := p }
  | heartbeat {c} (here : c.gone = false) (now : UInt64)
    : Speaks c .heartbeat { c with publisher := c.publisher.heartbeat now }
  | publisherSend {c answering replyTo sent} (here : c.gone = false)
    (refers : c.refersTo answering = some replyTo) (request : PushCall) (now : UInt64)
    (returns : c.publisher.send { request with replyTo } now = sent)
    : Speaks c (.publisherSend answering request sent.2)
        {
          c with
          publisher := sent.1
          answers := c.answers ++ (sent.2.map fun _ => answering).toList
        }
  | publisherReceive {c received} (here : c.gone = false)
    (returns : c.publisher.receive = received)
    : Speaks c (.publisherReceive received.2)
        { c with publisher := received.1, received := c.received ++ received.2.toList }
  | publisherClose {c} (here : c.gone = false)
    : Speaks c .publisherClose { c with publisher := c.publisher.shutdown, gone := true }

end ShmFrame.Accesses
