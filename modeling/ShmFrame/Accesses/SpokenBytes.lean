import ShmFrame.Accesses.SegmentContent
import ShmFrame.Accesses.Speaking

/-! Conversations on bytes are conversations on words: from the bytes that `create` has left,
every call returns and stores what the conversation on words does.
-/

namespace ShmFrame.Accesses

open ShmFrame.Foundation ShmFrame.Foundation.Program
open Commands (PushCall)
open Calls (World Subscriber Seated Publisher TimedPublisher Conversation conversationMachine)

/-- The bytes say the segment, and everybody knows it. -/
structure Matches (cfg : LLConfig) (d : Dialogue) (c : Conversation) : Prop where
  encodes : Encodes d.bytes c.publisher.segment
  size : d.size = c.publisher.segment.size
  publisher : d.publisher = c.publisher.impl
  gone : d.gone = c.gone
  received : d.received = c.received
  subscribers : d.subscribers = c.subscribers
  conversing : Conversing cfg c

section Matching

variable {cfg : LLConfig} {d : Dialogue} {c : Conversation} {m : LLSubscriber.Impl}

/-- What a call finds is what it finds on words. -/
theorem Matches.depicts (found : Matches cfg d c) (m : LLSubscriber.Impl) (clock : Nat → UInt64)
    : Depicts (d.now clock) (c.view m clock).world (c.view m clock).clock where
  clock := rfl
  bound := by
    rw [Dialogue.now, found.gone]
    rfl
  size := fun _ => found.size
  segment := fun _ => found.encodes

/-- For the publisher the world is the one with its segment. -/
theorem Matches.mirrors (found : Matches cfg d c) (clock : Nat → UInt64)
    : Mirrors 0 (c.view {} clock).world d.publisher (d.now clock)
        { publisher := c.publisher, clock } where
  impl := found.publisher
  depicts := by
    have same
        : (c.view {} clock).world.setSegment 0 c.publisher.segment = (c.view {} clock).world :=
      setSegment_self _ 0
    rw [same]
    exact found.depicts {} clock

theorem Matches.present (found : Matches cfg d c) (who : Nat) : d.present who = c.present who := by
  rw [Dialogue.present, found.subscribers]
  rfl

/-- What a subscriber's call has left. -/
theorem Matches.after {s : Subscriber} {clock : Nat → UInt64} {later : Alone}
    (found : Matches cfg d c) (onward : Calls.Onward (c.view m clock) s)
    (depicts : Depicts later s.world s.clock) {next : Conversation}
    (conversing : Conversing cfg next) (publisher : next.publisher = (c.stored s).publisher)
    (gone : next.gone = c.gone) (received : next.received = c.received)
    : Matches cfg { d with bytes := later.bytes 0, subscribers := next.subscribers } next where
  encodes := by
    rw [publisher]
    exact depicts.segment 0
  size := by
    rw [publisher, (found.conversing.stored onward).size]
    exact found.size
  publisher := by
    rw [publisher]
    exact found.publisher
  gone := found.gone.trans gone.symm
  received := found.received.trans received.symm
  subscribers := rfl
  conversing := conversing

/-- What a publisher's call has left. -/
theorem Matches.published {p : Publisher} {later : Alone} {clock remaining : Nat → UInt64}
    (found : Matches cfg d c) (hosts : Hosts c.publisher p)
    (depicts : Depicts later ((c.view {} clock).world.setSegment 0 p.segment) remaining)
    : Matches cfg (d.published p.impl later) { c with publisher := p } where
  encodes := by
    have encodes := depicts.segment 0
    rwa [World.setSegment_same] at encodes
  size := found.size.trans hosts.size.symm
  publisher := rfl
  gone := found.gone
  received := found.received
  subscribers := found.subscribers
  conversing := found.conversing.publisher hosts rfl

/-- Every call on bytes is one on words, with the same answer, by cases on it. -/
theorem does_speaks
    : Simulates Dialogue.Does Speaks (Event.Unwrapped cfg) (Matches cfg) := by
  intro d next event c found unwrapped does
  have hosting := found.conversing.hosting
  cases does with
  | @open_ clock m later name returns =>
      obtain ⟨system, agrees⟩ :=
        (openSubscriber_follows (found.depicts {} clock) name).returned returns
      have speaks := Speaks.open_ (c := c) name system clock
      have seats := Calls.seats_openSubscriber name system (c.view {} clock)
      have after :=
        found.after seats.toOnward agrees.depicts (speaks.keeps unwrapped found.conversing) rfl rfl
          rfl
      refine ⟨_, speaks, ?_⟩
      rw [agrees.impl, found.subscribers]
      exact after
  | @ask clock who m n answer later there ask returns =>
      have here : c.present who = some m := (found.present who).symm.trans there
      have follows :=
        ask_follows (found.depicts m clock) (found.conversing.view here clock) ask
      obtain ⟨systems, agrees, same⟩ := follows.returned returns
      have seats := seats_ask systems ask (c.view m clock)
      have speaks := Speaks.ask here ask systems clock rfl
      dsimp only at same
      rw [same]
      refine ⟨_, speaks, ?_⟩
      have conversing := speaks.keeps unwrapped found.conversing
      obtain ⟨requests, deliveries, noted⟩ :=
        noted_history (c.after who ((ask.onWords systems).run (c.view m clock)).2) who
          ((ask.onWords systems).run (c.view m clock)).1
      rw [noted] at conversing ⊢
      have after := found.after seats.toOnward agrees.depicts conversing rfl rfl rfl
      have impl : n = _ := agrees.impl
      rw [impl, Dialogue.after, found.subscribers]
      exact after
  | @close who m later there returns =>
      have here : c.present who = some m := (found.present who).symm.trans there
      have speaks := Speaks.close here
      have refreshes := Calls.refreshes_close (c.view m fun _ => 0)
      obtain ⟨-, depicts⟩ :=
        (close_follows (found.depicts m fun _ => 0)
          (found.conversing.view here fun _ => 0)).returned returns
      have after :=
        found.after refreshes.toOnward depicts (speaks.keeps unwrapped found.conversing) rfl rfl rfl
      refine ⟨_, speaks, ?_⟩
      rw [Dialogue.after, found.subscribers]
      exact after
  | @frame clock m ret later here call returns =>
      have unwrapped : call.Unwrapped c.publisher.impl.cfg := found.conversing.cfg ▸ unwrapped
      have mirrors := frame_mirrors (found.mirrors clock) hosting call unwrapped
      obtain ⟨agrees, same⟩ := mirrors.returned returns
      have reaches :=
        reaches_frame (s := { publisher := c.publisher, clock }) hosting call unwrapped
      have speaks := Speaks.frame (found.gone ▸ here) call clock rfl
      dsimp only at same
      rw [same]
      refine ⟨_, speaks, ?_⟩
      have impl : m = _ := agrees.impl
      rw [impl]
      exact found.published (reaches.hosts hosting) agrees.depicts
  | @storeByte slot offset here pending inside byte =>
      rw [found.publisher] at pending inside
      obtain ⟨p, stored, impl, encodes⟩ :=
        storeByte_encodes found.encodes hosting pending inside byte
      have hosts := hosting.step (.storeByte offset byte) stored nofun
      refine ⟨_, .storeByte (found.gone ▸ here) stored, ?_, found.size.trans hosts.size.symm, ?_,
        found.gone, found.received, found.subscribers, found.conversing.publisher hosts rfl⟩
      · rw [found.publisher]
        exact encodes
      · rw [impl]
        exact found.publisher
  | @heartbeat clock later here returns =>
      have depicts := (heartbeat_alone (found.mirrors clock).depicts hosting).returned returns
      refine ⟨_, .heartbeat (found.gone ▸ here) (clock 0), ?_⟩
      rw [found.publisher]
      exact found.published (hosting.step (.heartbeat (clock 0)) rfl nofun) depicts
  | @publisherSend clock answering replyTo m id later here refers request returns =>
      rw [found.publisher] at returns
      obtain ⟨same, depicts⟩ :=
        (publisherSend_alone (found.mirrors clock).depicts hosting _).returned returns
      cases same
      refine ⟨_, .publisherSend (found.gone ▸ here) ?_ request (clock 0) rfl, ?_⟩
      · exact (congrArg (fun received => Conversation.refersTo { c with received } answering)
          found.received.symm).trans refers
      · have after := found.published (hosting.send _ (clock 0)) depicts
        exact { after with
          conversing := after.conversing.publisher after.conversing.hosting.same rfl }
  | @publisherReceive clock m command later here returns =>
      rw [found.publisher] at returns
      obtain ⟨same, depicts⟩ :=
        (publisherReceive_alone (found.mirrors clock).depicts hosting).returned returns
      cases same
      refine ⟨_, .publisherReceive (found.gone ▸ here) rfl, ?_⟩
      have after := found.published hosting.receive depicts
      exact { after with
        received := congrArg (· ++ _) found.received
        conversing := after.conversing.publisher after.conversing.hosting.same rfl }
  | @publisherClose clock later here returns =>
      have depicts := (publisherClose_alone (found.mirrors clock).depicts hosting).returned returns
      refine ⟨_, .publisherClose (found.gone ▸ here), ?_⟩
      have after := found.published hosting.shutdown depicts
      rw [found.publisher]
      exact { after with
        gone := rfl
        conversing := after.conversing.publisher after.conversing.hosting.same rfl }

end Matching

-----------------------------------------------------------------------------------------
-- From the beginning
-----------------------------------------------------------------------------------------

section Beginning

variable {cfg : LLConfig} {session : UInt64} {a later : Alone} {m : LLPublisher.Impl}

/-- The conversation that begins with what `create` has left. -/
def Dialogue.create (m : LLPublisher.Impl) (later : Alone) : Dialogue where
  bytes := later.bytes 0
  size := later.size 0
  publisher := m

/-- A publisher that has just been created knows its segment. -/
theorem Hosting.create (accepted : cfg.accepted = true) (session now : UInt64)
    : Hosting (Publisher.create cfg session now) where
  sound := ⟨configValid_echoed (LLConfig.accepted_valid accepted), UInt64.le_refl _⟩
  config := rfl
  pending := nofun
  selected := by
    have slots := (cfg.accepted_frameBounds accepted).slots
    rw [UInt32.lt_iff_toNat_lt]
    change 0 < cfg.slotCount.toNat
    omega
  bounds := cfg.accepted_frameBounds accepted

/-- The bytes that `create` has left say the segment of a new publisher. -/
theorem Matches.create (accepted : cfg.accepted = true) (fresh : Fresh (a.bytes 0))
    (size : a.size 0 = (computeLayout cfg).totalSize)
    (created : (initialise 0 cfg session).Returns alone a m later)
    : Matches cfg (.create m later) (.create cfg session (a.clock 0)) := by
  obtain ⟨rfl, encodes, only⟩ := (initialise_alone fresh cfg session).returned created
  refine ⟨encodes, ?_, rfl, rfl, rfl, rfl, rfl, .create accepted session _, ?_⟩
  · exact (congrFun only.size 0).trans size
  · intro who m g there
    simp [Conversation.present, Conversation.create] at there

/-- Whatever calls are made on the bytes that `create` has left in a fresh segment, one after
the other: the same calls on words return the same, as calls of the conversation, and in the
end the bytes say the segment there. No size that is published fits only because a product
has wrapped.
-/
theorem bytes_converse (accepted : cfg.accepted = true) (fresh : Fresh (a.bytes 0))
    (size : a.size 0 = (computeLayout cfg).totalSize)
    (created : (initialise 0 cfg session).Returns alone a m later) {events : List Event}
    {d : Dialogue} (trace : Traces Dialogue.Does (.create m later) events d)
    (unwrapped : ∀ event ∈ events, event.Unwrapped cfg)
    : ∃ c,
        Traces Speaks (.create cfg session (a.clock 0)) events c
        ∧ (∃ schedule, conversationMachine.run (.create cfg session (a.clock 0)) schedule = some c)
        ∧ Matches cfg d c := by
  have start := Matches.create accepted fresh size created
  obtain ⟨c, spoken, found⟩ := Simulates.traces does_speaks start unwrapped trace
  refine ⟨c, spoken, ?_, found⟩
  exact spoken.run (fun speaks => speaks.keeps) (fun speaks => speaks.run) unwrapped
    start.conversing

end Beginning

-----------------------------------------------------------------------------------------
-- Conversations that are computed
-----------------------------------------------------------------------------------------

/-- One answer there may be: segments are mapped, and nothing fails spuriously. -/
def Alone.respond (a : Alone) (effect : Effect) : Option (effect.Answer × Alone) :=
  let opens := a.bound.filter (a.size · ≠ 0)
  (effect.answer a.size a.bytes { nowNs := a.clock 0, opens, patience := 1 }).map
    fun answer => (answer, a.after effect)

theorem Alone.respond_alone (a : Alone) (effect : Effect) (answer : effect.Answer) (later : Alone)
    (answered : a.respond effect = some (answer, later))
    : alone a effect answer later := by
  obtain ⟨given, known, same⟩ := Option.map_eq_some_iff.mp answered
  obtain ⟨rfl, rfl⟩ := Prod.mk.inj same
  refine ⟨?_, rfl⟩
  cases effect with
  | load | exchange | copyOut => exact (Option.some.inj known).symm
  | store => trivial
  | stall => cases known
  | ask question =>
      cases question with
      | nowNs | sizeOf => exact (Option.some.inj known).symm
      | spurious | clockFirst | patience => trivial
      | opens =>
          rintro g rfl
          obtain ⟨bound, sized⟩ := Option.filter_eq_some_iff.mp (Option.some.inj known)
          exact ⟨bound, of_decide_eq_true sized⟩

/-- A lone call, made with these answers. -/
def Alone.call {Value : Type} (a : Alone) (program : Access Value) : Option (Value × Alone) :=
  program.play Alone.respond a

theorem Alone.call_returns {Value : Type} {a later : Alone} {program : Access Value} {value : Value}
    (called : a.call program = some (value, later))
    : program.Returns alone a value later :=
  returns_of_play Alone.respond_alone called

/-- A call that is to return something. -/
def Alone.answered {Private Value : Type} [DecidableEq Value] (a : Alone)
    (program : Access (Private × Value)) (expected : Value)
    : Option (Private × Alone) :=
  (a.call program).bind fun outcome =>
    if outcome.1.2 = expected then some (outcome.1.1, outcome.2) else none

theorem Alone.answered_returns {Private Value : Type} [DecidableEq Value] {a : Alone}
    {program : Access (Private × Value)} {expected : Value} {outcome : Private × Alone}
    (answered : a.answered program expected = some outcome)
    : program.Returns alone a (outcome.1, expected) outcome.2 := by
  obtain ⟨⟨⟨m, returned⟩, later⟩, called, made⟩ := Option.bind_eq_some_iff.mp answered
  dsimp only at made
  split at made
  · rename_i same
    cases made
    exact same ▸ Alone.call_returns called
  · cases made

/-- The private state of the publisher as long as it is there. -/
def Dialogue.host (d : Dialogue) : Option LLPublisher.Impl :=
  if d.gone = false then some d.publisher else none

/-- What a call makes of the conversation, if it returns what the event says. -/
def Dialogue.perform (clock : Nat → UInt64) (d : Dialogue) : Event → Option Dialogue
  | .open_ name => do
      let opened ← (d.now clock).call (openSubscriber name)
      return {
        d with
        bytes := opened.2.bytes 0
        subscribers := d.subscribers ++ [some opened.1]
      }
  | .ask who ask answer => do
      let asked ← (d.now clock).answered (ask.onBytes (← d.present who)) answer
      return d.after who (some asked.1) asked.2
  | .close who => do
      let closed ← (d.now fun _ => 0).call (Accesses.close (← d.present who))
      return d.after who none closed.2
  | .frame call ret => do
      let called ← (d.now clock).answered (call.program (← d.host)) ret
      return d.published called.1 called.2
  | .storeByte offset byte => do
      let slot ← (← d.host).pending
      let payload := slotPayload (computeLayout d.publisher.cfg) slot
      let bytes := storeAt d.bytes ⟨payload.toNat + offset, 1⟩ byte.toUInt64
      if offset < d.publisher.cfg.maxPayload.toNat then some { d with bytes } else none
  | .heartbeat => do
      let m ← d.host
      return d.published m (← (d.now clock).call (Accesses.heartbeat 0)).2
  | .publisherSend answering request id => do
      let m ← d.host
      let replyTo ← d.refersTo answering
      let call := Accesses.publisherSend 0 m { request with replyTo }
      let sent ← (d.now clock).answered call id
      return d.published sent.1 sent.2
  | .publisherReceive command => do
      let got ← (d.now clock).answered (Accesses.publisherReceive 0 (← d.host)) command
      return { d.published got.1 got.2 with received := d.received ++ command.toList }
  | .publisherClose => do
      let m ← d.host
      return {
        d.published m (← (d.now clock).call (Accesses.publisherClose 0)).2 with gone := true
      }

/-- Such a call is one that may be made, by cases on the event. -/
theorem Dialogue.perform_does {clock : Nat → UInt64} {d next : Dialogue} {event : Event}
    (performed : d.perform clock event = some next)
    : Dialogue.Does d event next := by
  have host {m : LLPublisher.Impl} (there : d.host = some m)
      : d.gone = false ∧ d.publisher = m := by
    obtain ⟨here, same⟩ := Option.ite_none_right_eq_some.mp there
    exact ⟨here, Option.some.inj same⟩
  cases event with
  | open_ name =>
      obtain ⟨opened, called, made⟩ := Option.bind_eq_some_iff.mp performed
      cases made
      exact .open_ name (Alone.call_returns called)
  | ask who ask answer =>
      obtain ⟨m, there, performed⟩ := Option.bind_eq_some_iff.mp performed
      obtain ⟨asked, called, made⟩ := Option.bind_eq_some_iff.mp performed
      cases made
      exact .ask there ask (Alone.answered_returns called)
  | close who =>
      obtain ⟨m, there, performed⟩ := Option.bind_eq_some_iff.mp performed
      obtain ⟨closed, called, made⟩ := Option.bind_eq_some_iff.mp performed
      cases made
      exact .close there (Alone.call_returns called)
  | frame call ret =>
      obtain ⟨m, there, performed⟩ := Option.bind_eq_some_iff.mp performed
      obtain ⟨here, rfl⟩ := host there
      obtain ⟨outcome, called, made⟩ := Option.bind_eq_some_iff.mp performed
      cases made
      exact .frame here call (Alone.answered_returns called)
  | storeByte offset byte =>
      obtain ⟨m, there, performed⟩ := Option.bind_eq_some_iff.mp performed
      obtain ⟨here, rfl⟩ := host there
      obtain ⟨slot, pending, made⟩ := Option.bind_eq_some_iff.mp performed
      obtain ⟨inside, made⟩ := Option.ite_none_right_eq_some.mp made
      cases made
      exact .storeByte here pending inside byte
  | heartbeat =>
      obtain ⟨m, there, performed⟩ := Option.bind_eq_some_iff.mp performed
      obtain ⟨here, rfl⟩ := host there
      obtain ⟨outcome, called, made⟩ := Option.bind_eq_some_iff.mp performed
      cases made
      exact .heartbeat here (Alone.call_returns called)
  | publisherSend answering request id =>
      obtain ⟨m, there, performed⟩ := Option.bind_eq_some_iff.mp performed
      obtain ⟨here, rfl⟩ := host there
      obtain ⟨replyTo, refers, performed⟩ := Option.bind_eq_some_iff.mp performed
      obtain ⟨sent, called, made⟩ := Option.bind_eq_some_iff.mp performed
      cases made
      exact .publisherSend here refers request (Alone.answered_returns called)
  | publisherReceive command =>
      obtain ⟨m, there, performed⟩ := Option.bind_eq_some_iff.mp performed
      obtain ⟨here, rfl⟩ := host there
      obtain ⟨got, called, made⟩ := Option.bind_eq_some_iff.mp performed
      cases made
      exact .publisherReceive here (Alone.answered_returns called)
  | publisherClose =>
      obtain ⟨m, there, performed⟩ := Option.bind_eq_some_iff.mp performed
      obtain ⟨here, rfl⟩ := host there
      obtain ⟨closed, called, made⟩ := Option.bind_eq_some_iff.mp performed
      cases made
      exact .publisherClose here (Alone.call_returns called)

/-- Frames of one byte, and two commands of up to four bytes. -/
def smallConfig : LLConfig where
  maxWidth := 1
  maxHeight := 1
  bytesPerPixel := 1
  commandSlots := 2
  maxCommandBytes := 4

/-- A segment of zeros at time 3. -/
def blank : Alone where
  bytes := fun _ _ => 0
  size := fun _ => (computeLayout smallConfig).totalSize
  bound := none
  clock := fun _ => 3

/-- A command of three bytes. -/
def threeBytes : PushCall := { type := 5, data := some UInt8.ofNat, size := 3 }

/-- A subscriber sends a command, which the publisher answers with it; then it reads a frame. -/
def echoAndFrame : List Event :=
  let info := {
    frameId := 1
    timestampNs := 8
    width := 1
    height := 1
    stride := 1
    payloadBytes := 1
  }
  [.open_ smallConfig.name, .ask 0 (.send threeBytes) (.sent (some 1)),
    .publisherReceive (some { id := 1, timestampNs := 9, type := 5, data := [0, 1, 2] }),
    .publisherSend (some 0) threeBytes (some 1),
    .ask 0 .receive (.received
      (some { id := 1, replyTo := 1, timestampNs := 9, type := 5, data := [0, 1, 2] })),
    .frame (.beginWrite 1 1) (.pointer (some 640)), .storeByte 0 42, .frame (.commit 8) .nothing,
    .ask 0 (.readLatest { size := 1 } {}) (.read .ok info [42])]
/-- The hypotheses are met by a conversation in which a request is answered and a frame is read. -/
theorem bytes_converse_echo
    : ∃ (m : LLPublisher.Impl) (later : Alone) (d : Dialogue) (c : Conversation),
        Traces Dialogue.Does (.create m later) echoAndFrame d
        ∧ Traces Speaks (.create smallConfig 7 3) echoAndFrame c
        ∧ (∃ schedule, conversationMachine.run (.create smallConfig 7 3) schedule = some c)
        ∧ Matches smallConfig d c := by
  have passes
      : (blank.call (initialise 0 smallConfig 7)).any (fun created =>
          (echoAndFrame.foldlM (Dialogue.perform fun _ => 9) (.create created.1 created.2)).isSome)
        = true := by
    decide +kernel
  obtain ⟨⟨m, later⟩, called, made⟩ := (Option.any_eq_true _ _).mp passes
  obtain ⟨d, performed⟩ := Option.isSome_iff_exists.mp made
  have created := Alone.call_returns called
  have trace : Traces Dialogue.Does (.create m later) echoAndFrame d :=
    Traces.of_foldlM Dialogue.perform_does performed
  have unwrapped : ∀ event ∈ echoAndFrame, event.Unwrapped smallConfig := by
    simp [echoAndFrame, Event.Unwrapped, PublisherCall.Unwrapped]
  obtain ⟨c, spoken, ran, found⟩ :=
    bytes_converse (by decide +kernel) (fun _ => rfl) rfl created trace unwrapped
  exact ⟨m, later, d, c, trace, spoken, ran, found⟩

end ShmFrame.Accesses
