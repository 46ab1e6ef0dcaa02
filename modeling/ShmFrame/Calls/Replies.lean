import ShmFrame.Calls.Conversation
import ShmFrame.Commands.ChannelExactlyOnce

/-! A reply answers the request of the subscriber that receives it, as long as what earlier
owners have left in the rings has no id in common with what the present owner sends.
-/

namespace ShmFrame.Calls

open ShmFrame.Commands ShmFrame.Foundation Call

-----------------------------------------------------------------------------------------
-- The invariant
-----------------------------------------------------------------------------------------

/-- The rings and the history agree, subscribers that have sent something are attached, and
every reply that is still on its way answers the one request that its receiver may take it
for.
-/
structure ConversationInv (cfg : LLConfig) (session : UInt64) (c : Conversation) : Prop where
  config : c.publisher.impl.cfg = cfg
  announces : Announces c.publisher.segment.header cfg session
  up : RingInv cfg.upstreamRing 0 c.publisher.segment.up
  down : RingInv cfg.downstreamRing 0 c.publisher.segment.down
  rooted : ∀ who, ∀ m ∈ c.present who, Rooted cfg session m
  asking
    : ∀ r ∈ c.requests,
        r.who < c.subscribers.length ∧ ∀ m ∈ c.present r.who, m.hdr.isSome = true
  ids : c.requests.map (·.id) = c.publisher.segment.up.queue.accepted.map (·.id)
  received : c.received = c.publisher.segment.up.queue.popped
  answers : c.answers.length = c.sent.length
  delivered : c.deliveries.map (·.command) = c.publisher.segment.down.queue.popped
  asked : ∀ d ∈ c.deliveries, d.asked ≤ c.requests.length
  pending
    : ∀ reply command index r,
        c.deliveries.length ≤ reply
        → c.sent[reply]? = some command
        → c.requests[index]? = some r
        → r.id = command.replyTo
        → c.Owner r.who
        → c.answers[reply]? = some (some index)
  lawful : ∀ d ∈ c.deliveries, c.Lawful d

namespace ConversationInv

variable {cfg : LLConfig} {session : UInt64} {c next : Conversation}

/-- At the start nothing has been said. -/
theorem create (now : UInt64) : ConversationInv cfg session (.create cfg session now) where
  config := rfl
  announces := rfl
  up := .create _
  down := .create _
  rooted := fun who m there => by simp [Conversation.present, Conversation.create] at there
  asking := fun r asked => by cases asked
  ids := rfl
  received := rfl
  answers := rfl
  delivered := rfl
  asked := fun d delivered => by cases delivered
  pending := fun reply command index r _ sent => by
    simp [Conversation.sent, Conversation.create, Publisher.create] at sent
  lawful := fun d delivered => by cases delivered

/-- The rings and the history are the same. -/
structure Silent (c next : Conversation) : Prop where
  config : next.publisher.impl.cfg = c.publisher.impl.cfg
  up : next.publisher.segment.up = c.publisher.segment.up
  down : next.publisher.segment.down = c.publisher.segment.down
  received : next.received = c.received
  requests : next.requests = c.requests
  answers : next.answers = c.answers
  deliveries : next.deliveries = c.deliveries

/-- A call that changes neither the rings nor the history keeps the invariant, unless it makes
an owner of a subscriber that has sent something.
-/
theorem silent (inv : ConversationInv cfg session c) (silent : Silent c next)
    (announces : Announces next.publisher.segment.header cfg session)
    (rooted : ∀ who, ∀ m ∈ next.present who, Rooted cfg session m)
    (asking
      : ∀ r ∈ c.requests,
          r.who < next.subscribers.length ∧ ∀ m ∈ next.present r.who, m.hdr.isSome = true)
    (owners : ∀ r ∈ c.requests, next.Owner r.who → c.Owner r.who)
    : ConversationInv cfg session next := by
  have sent : next.sent = c.sent := congrArg (·.queue.accepted) silent.down
  exact {
    config := silent.config.trans inv.config
    announces := announces
    up := silent.up ▸ inv.up
    down := silent.down ▸ inv.down
    rooted := rooted
    asking := silent.requests ▸ asking
    ids := by rw [silent.requests, silent.up, inv.ids]
    received := by rw [silent.received, silent.up, inv.received]
    answers := by rw [silent.answers, sent, inv.answers]
    delivered := by rw [silent.deliveries, silent.down, inv.delivered]
    asked := by
      rw [silent.deliveries, silent.requests]
      exact inv.asked
    pending := by
      rw [silent.deliveries, sent, silent.requests, silent.answers]
      intro reply command index r late sent there same owner
      exact inv.pending reply command index r late sent there same
        (owners r (List.mem_of_getElem? there) owner)
    lawful := by
      intro d delivered
      rw [Conversation.Lawful, sent, silent.requests, silent.answers]
      exact inv.lawful d (silent.deliveries ▸ delivered)
  }

/-- What a subscriber works on satisfies the assumptions about its calls. -/
theorem hosts (inv : ConversationInv cfg session c) (m : LLSubscriber.Impl)
    (clock : Nat → UInt64)
    : Hosts cfg session (c.view m clock).world :=
  ⟨by simp only [Conversation.view]; split <;> simp, inv.announces⟩

/-- A call of a subscriber that does nothing on the rings. -/
theorem called (inv : ConversationInv cfg session c) {who : Nat} {m : LLSubscriber.Impl}
    {clock : Nat → UInt64} {s : Subscriber} (there : c.present who = some m)
    (outcome : Outcome cfg session (c.view m clock) s) (one : (c.after who s).OneOwner)
    : ConversationInv cfg session (c.after who s) := by
  have present (other : Nat) : (c.after who s).present other = _ :=
    Conversation.present_after there other
  refine inv.silent ⟨rfl, outcome.up, outcome.down, rfl, rfl, rfl, rfl⟩ outcome.hosts.announces
    ?_ ?_ ?_
  · intro other m' there'
    rw [present] at there'
    split at there'
    · cases there'
      exact outcome.rooted
    · exact inv.rooted other m' there'
  · intro r asked
    obtain ⟨inside, attached⟩ := inv.asking r asked
    refine ⟨by simpa [Conversation.after] using inside, fun m' there' => ?_⟩
    rw [present] at there'
    split at there'
    · rename_i same
      cases there'
      exact outcome.stays (attached m (same ▸ there))
    · exact attached m' there'
  · intro r asked owner
    obtain ⟨-, attached⟩ := inv.asking r asked
    have later := owner
    obtain ⟨m', there', owns⟩ := owner
    rw [present] at there'
    split at there'
    · rename_i same
      cases there'
      refine ⟨m, same ▸ there, ?_⟩
      rcases outcome.gains owns with before | detached
      · exact before
      · -- Who has sent something has been attached before.
        have attached := attached m (same ▸ there)
        rw [show m.hdr = none from detached] at attached
        cases attached
    · rename_i apart
      refine ⟨m', there', ?_⟩
      rcases outcome.token with same | ⟨-, claimed⟩
      · have kept : (c.after who s).token = c.token := same
        rwa [kept] at owns
      · -- A new owner would be the only one.
        have claimer : (c.after who s).Owner who :=
          ⟨s.impl, by rw [present, if_pos rfl]; rfl, claimed⟩
        exact absurd (one.eq later claimer) apart

/-- A subscriber that is opened has sent nothing. -/
theorem opened (inv : ConversationInv cfg session c) {clock : Nat → UInt64} {s : Subscriber}
    (outcome : Outcome cfg session (c.view {} clock) s) (one : (c.opened s).OneOwner)
    : ConversationInv cfg session (c.opened s) := by
  have present (other : Nat) : (c.opened s).present other = _ :=
    Conversation.present_opened other
  refine inv.silent ⟨rfl, outcome.up, outcome.down, rfl, rfl, rfl, rfl⟩ outcome.hosts.announces
    ?_ ?_ ?_
  · intro other m there
    rw [present] at there
    split at there
    · cases there
      exact outcome.rooted
    · exact inv.rooted other m there
  · intro r asked
    obtain ⟨inside, attached⟩ := inv.asking r asked
    refine ⟨by simp [Conversation.opened]; omega, fun m there => ?_⟩
    rw [present, if_neg (by omega)] at there
    exact attached m there
  · intro r asked owner
    obtain ⟨inside, -⟩ := inv.asking r asked
    have later := owner
    obtain ⟨m, there, owns⟩ := owner
    rw [present, if_neg (by omega)] at there
    refine ⟨m, there, ?_⟩
    rcases outcome.token with same | ⟨-, claimed⟩
    · have kept : (c.opened s).token = c.token := same
      rwa [kept] at owns
    · have claimer : (c.opened s).Owner c.subscribers.length :=
        ⟨s.impl, by rw [present, if_pos rfl]; rfl, claimed⟩
      have same := one.eq later claimer
      omega

/-- A subscriber that is closed leaves no owner behind but those before. -/
theorem closed (inv : ConversationInv cfg session c) {who : Nat} {m : LLSubscriber.Impl}
    {clock : Nat → UInt64} {s : Subscriber}
    (released : Released cfg session (c.view m clock) s)
    : ConversationInv cfg session (c.closed who s) := by
  have present (other : Nat) : (c.closed who s).present other = _ :=
    Conversation.present_closed other
  refine inv.silent ⟨rfl, released.up, released.down, rfl, rfl, rfl, rfl⟩
    released.hosts.announces ?_ ?_ ?_
  · intro other m' there
    rw [present] at there
    split at there
    · cases there
    · exact inv.rooted other m' there
  · intro r asked
    obtain ⟨inside, attached⟩ := inv.asking r asked
    refine ⟨by simpa [Conversation.closed] using inside, fun m' there => ?_⟩
    rw [present] at there
    split at there
    · cases there
    · exact attached m' there
  · intro r asked owner
    obtain ⟨m', there, owns⟩ := owner
    rw [present] at there
    split at there
    · cases there
    · refine ⟨m', there, ?_⟩
      rcases released.token with same | zero
      · have kept : (c.closed who s).token = c.token := same
        rwa [kept] at owns
      · -- Zero is nobody's token.
        have own := (inv.rooted _ m' there).token owns.2.1
        exact absurd (owns.2.2.trans zero) own

/-- Frames have nothing to do with commands, and neither has the end of the publisher. -/
theorem published (inv : ConversationInv cfg session c) {p : Publisher}
    (publishes : Publishes c.publisher p) (gone : Bool)
    : ConversationInv cfg session { c with publisher := p, gone } := by
  obtain ⟨config, ⟨latest, shutdown, beat, header⟩, down, up⟩ := publishes
  have token : p.segment.token = c.token := congrArg (·.commandOwnerGen) header
  refine inv.silent ⟨config, up, down, rfl, rfl, rfl, rfl⟩ ?_ inv.rooted inv.asking ?_
  · have stored :=
      congrArg (fun h : LLHeader => { h with latest, shutdown, lastHeartbeatNs := beat })
        inv.announces
    exact header ▸ stored
  · rintro r - ⟨m, there, owns⟩
    exact ⟨m, there, token ▸ owns⟩

/-- Private states after a call of an attached subscriber. -/
theorem rooted_after (inv : ConversationInv cfg session c) {who : Nat}
    {m : LLSubscriber.Impl} {s : Subscriber} (there : c.present who = some m)
    (rooted : Rooted cfg session s.impl) (other : Nat)
    : ∀ m' ∈ (c.after who s).present other, Rooted cfg session m' := by
  intro m' there'
  rw [Conversation.present_after there] at there'
  split at there'
  · cases there'
    exact rooted
  · exact inv.rooted other m' there'

/-- A subscriber that owns the channel is attached, and so are those that have sent something
before.
-/
theorem asking_after (inv : ConversationInv cfg session c) {who : Nat}
    {m : LLSubscriber.Impl} {s : Subscriber} (there : c.present who = some m)
    (attached : s.impl.hdr.isSome = true) {r : Request}
    (known : r ∈ c.requests ∨ r.who = who)
    : r.who < (c.after who s).subscribers.length
      ∧ ∀ m' ∈ (c.after who s).present r.who, m'.hdr.isSome = true := by
  have inside : r.who < c.subscribers.length := by
    rcases known with asked | rfl
    · exact (inv.asking r asked).1
    · exact Conversation.present_lt there
  refine ⟨by simpa [Conversation.after] using inside, fun m' there' => ?_⟩
  rw [Conversation.present_after there] at there'
  split at there'
  · cases there'
    exact attached
  · rename_i apart
    exact (inv.asking r (known.resolve_right apart)).2 m' there'

/-- What is kept of the history by later requests and replies. -/
theorem lawful_later (inv : ConversationInv cfg session c) {d : Delivery}
    (delivered : d ∈ c.deliveries) (sent : c.sent <+: next.sent)
    (requests : c.requests <+: next.requests) (answers : c.answers <+: next.answers)
    : next.Lawful d := by
  obtain ⟨same, answered⟩ := inv.lawful d delivered
  obtain ⟨moreSent, sent⟩ := sent
  obtain ⟨moreRequests, requests⟩ := requests
  obtain ⟨moreAnswers, answers⟩ := answers
  have earlier : d.reply < c.sent.length := (List.getElem?_eq_some_iff.mp same).1
  refine ⟨?_, fun index before asked => ?_⟩
  · rw [← sent, List.getElem?_append_left earlier]
    exact same
  · have known := inv.asked d delivered
    rw [← requests, List.getElem?_append_left (by omega)] at asked
    rw [← answers, List.getElem?_append_left (inv.answers ▸ earlier)]
    exact answered index before asked

section Steps

variable {who : Nat} {m : LLSubscriber.Impl} {s : Subscriber}

/-- A request is sent under an unused id. -/
theorem asks (inv : ConversationInv cfg session c) (there : c.present who = some m)
    (owns : Owns m c.token) (stays : Owns s.impl (s.world.segments 0).token)
    (rooted : Rooted cfg session s.impl) (hosts : Hosts cfg session s.world)
    (token : (s.world.segments 0).token = c.token)
    (down : (s.world.segments 0).down = c.publisher.segment.down) {id : UInt64}
    {command : LLShmCommand} (up : RingInv cfg.upstreamRing 0 (s.world.segments 0).up)
    (queue : (s.world.segments 0).up.queue = c.publisher.segment.up.queue.push command)
    (named : command.id = id) (unused : c.Unused who id)
    : ConversationInv cfg session
        { c.after who s with requests := c.requests ++ [{ who, id }] } := by
  have sent : (c.after who s).sent = c.sent := congrArg (·.queue.accepted) down
  exact {
    config := inv.config
    announces := hosts.announces
    up := up
    down := by
      change RingInv cfg.downstreamRing 0 (s.world.segments 0).down
      rw [down]
      exact inv.down
    rooted := inv.rooted_after there rooted
    asking := by
      intro r asked
      refine inv.asking_after there stays.1 ?_
      rcases List.mem_append.mp asked with before | new
      · exact .inl before
      · rw [List.mem_singleton.mp new]
        exact .inr rfl
    ids := by
      change _ = (s.world.segments 0).up.queue.accepted.map (·.id)
      rw [queue, Fifo.push, List.map_append, List.map_append, inv.ids]
      simp [named]
    received := inv.received.trans (congrArg (·.popped) queue).symm
    answers := inv.answers.trans (congrArg List.length sent).symm
    delivered := inv.delivered.trans (congrArg (·.queue.popped) down).symm
    asked := fun d delivered => by
      have before := inv.asked d delivered
      simp only [List.length_append, List.length_singleton]
      omega
    pending := by
      intro reply command' index r late sent' asked same owner
      change (c.after who s).sent[reply]? = some command' at sent'
      rw [sent] at sent'
      change (c.requests ++ [({ who, id } : Request)])[index]? = some r at asked
      rcases Nat.lt_or_ge index c.requests.length with before | new
      · rw [List.getElem?_append_left before] at asked
        have owner' := owner.before there owns token
        exact inv.pending reply command' index r late sent' asked same owner'
      · -- A reply on its way would refer to the id that is unused.
        have last : r = { who, id } := by
          rw [List.getElem?_append_right new] at asked
          exact List.mem_singleton.mp (List.mem_of_getElem? asked)
        subst last
        have late : c.deliveries.length ≤ reply := late
        have underway : command' ∈ c.sent.drop c.deliveries.length := by
          refine List.mem_of_getElem? (i := reply - c.deliveries.length) ?_
          rw [List.getElem?_drop, Nat.add_sub_cancel' late]
          exact sent'
        exact absurd same.symm (unused.1 command' underway)
    lawful := fun d delivered =>
      inv.lawful_later delivered (sent ▸ List.prefix_rfl) (List.prefix_append _ _)
        List.prefix_rfl
  }

/-- A subscriber receives the oldest reply that is on its way. -/
theorem receives (inv : ConversationInv cfg session c) (there : c.present who = some m)
    (owns : Owns m c.token) (stays : Owns s.impl (s.world.segments 0).token)
    (rooted : Rooted cfg session s.impl) (hosts : Hosts cfg session s.world)
    (token : (s.world.segments 0).token = c.token)
    (up : (s.world.segments 0).up = c.publisher.segment.up) {command : LLShmCommand}
    (down : RingInv cfg.downstreamRing 0 (s.world.segments 0).down)
    (oldest
      : c.sent[c.publisher.segment.down.queue.popped.length]? = some command)
    (queue : (s.world.segments 0).down.queue = c.publisher.segment.down.queue.pop command)
    : ConversationInv cfg session {
        c.after who s with
        deliveries :=
          c.deliveries
            ++ [{ who, command, reply := c.deliveries.length, asked := c.requests.length }]
      } := by
  have sent : (c.after who s).sent = c.sent := congrArg (·.accepted) queue
  have count : c.publisher.segment.down.queue.popped.length = c.deliveries.length := by
    rw [← inv.delivered, List.length_map]
  rw [count] at oldest
  exact {
    config := inv.config
    announces := hosts.announces
    up := by
      change RingInv cfg.upstreamRing 0 (s.world.segments 0).up
      rw [up]
      exact inv.up
    down := down
    rooted := inv.rooted_after there rooted
    asking := fun r asked => inv.asking_after there stays.1 (.inl asked)
    ids := inv.ids.trans (congrArg (·.queue.accepted.map (·.id)) up).symm
    received := inv.received.trans (congrArg (·.queue.popped) up).symm
    answers := inv.answers.trans (congrArg List.length sent).symm
    delivered := by
      change _ = (s.world.segments 0).down.queue.popped
      rw [queue, Fifo.pop, List.map_append, inv.delivered]
      rfl
    asked := by
      intro d delivered
      rcases List.mem_append.mp delivered with before | new
      · exact inv.asked d before
      · rw [List.mem_singleton.mp new]
        exact le_rfl
    pending := by
      intro reply command' index r late sent' asked same owner
      change (c.after who s).sent[reply]? = some command' at sent'
      rw [sent] at sent'
      simp only [List.length_append, List.length_singleton] at late
      exact inv.pending reply command' index r (by omega) sent' asked same
        (owner.before there owns token)
    lawful := by
      intro d delivered
      rcases List.mem_append.mp delivered with before | new
      · exact inv.lawful_later before (sent ▸ List.prefix_rfl) List.prefix_rfl List.prefix_rfl
      · rw [List.mem_singleton.mp new]
        refine ⟨(congrArg (·[c.deliveries.length]?) sent).trans oldest, fun index _ asked => ?_⟩
        exact inv.pending _ command index _ le_rfl oldest asked rfl ⟨m, there, owns⟩
  }

/-- The publisher answers a command while no owner has sent another one under its id. -/
theorem replies (inv : ConversationInv cfg session c) {p : Publisher} {answering : Option Nat}
    {command : LLShmCommand} (config : p.impl.cfg = cfg)
    (header : p.segment.header = c.publisher.segment.header)
    (up : p.segment.up = c.publisher.segment.up)
    (down : RingInv cfg.downstreamRing 0 p.segment.down)
    (queue : p.segment.down.queue = c.publisher.segment.down.queue.push command)
    (clean
      : ∀ index r,
          c.requests[index]? = some r
          → r.id = command.replyTo
          → c.Owner r.who
          → answering = some index)
    : ConversationInv cfg session
        { c with publisher := p, answers := c.answers ++ [answering] } := by
  have sent : p.segment.down.queue.accepted = c.sent ++ [command] := congrArg (·.accepted) queue
  have token : p.segment.token = c.token := congrArg (·.commandOwnerGen) header
  exact {
    config := config
    announces := header ▸ inv.announces
    up := up ▸ inv.up
    down := down
    rooted := inv.rooted
    asking := inv.asking
    ids := inv.ids.trans (congrArg (·.queue.accepted.map (·.id)) up).symm
    received := inv.received.trans (congrArg (·.queue.popped) up).symm
    answers := by
      change _ = p.segment.down.queue.accepted.length
      rw [sent, List.length_append, List.length_append, inv.answers]
      rfl
    delivered := inv.delivered.trans (congrArg (·.popped) queue).symm
    asked := inv.asked
    pending := by
      intro reply command' index r late sent' asked same owner
      change p.segment.down.queue.accepted[reply]? = some command' at sent'
      rw [sent] at sent'
      have owner : c.Owner r.who := by
        obtain ⟨m', there, owns⟩ := owner
        exact ⟨m', there, token ▸ owns⟩
      rcases Nat.lt_or_ge reply c.sent.length with before | new
      · rw [List.getElem?_append_left before] at sent'
        rw [List.getElem?_append_left (inv.answers ▸ before)]
        exact inv.pending reply command' index r late sent' asked same owner
      · have here : reply = c.sent.length := by
          have inside := (List.getElem?_eq_some_iff.mp sent').1
          rw [List.length_append, List.length_singleton] at inside
          omega
        subst here
        rw [List.getElem?_append_right le_rfl, Nat.sub_self] at sent'
        obtain rfl := Option.some.inj sent'
        rw [List.getElem?_append_right inv.answers.le, inv.answers, Nat.sub_self]
        exact congrArg some (clean index r asked same owner)
    lawful := fun d delivered =>
      inv.lawful_later delivered ⟨_, sent.symm⟩ List.prefix_rfl (List.prefix_append _ _)
  }

/-- The publisher receives the oldest request that is on its way. -/
theorem hears (inv : ConversationInv cfg session c) {p : Publisher} {command : LLShmCommand}
    (config : p.impl.cfg = cfg) (header : p.segment.header = c.publisher.segment.header)
    (down : p.segment.down = c.publisher.segment.down)
    (up : RingInv cfg.upstreamRing 0 p.segment.up)
    (queue : p.segment.up.queue = c.publisher.segment.up.queue.pop command)
    : ConversationInv cfg session
        { c with publisher := p, received := c.received ++ [command] } := by
  have token : p.segment.token = c.token := congrArg (·.commandOwnerGen) header
  have sent : p.segment.down.queue.accepted = c.sent := congrArg (·.queue.accepted) down
  exact {
    config := config
    announces := header ▸ inv.announces
    up := up
    down := down ▸ inv.down
    rooted := inv.rooted
    asking := inv.asking
    ids := inv.ids.trans (congrArg (·.accepted.map (·.id)) queue).symm
    received := by
      change _ = p.segment.up.queue.popped
      rw [queue, Fifo.pop, inv.received]
    answers := inv.answers.trans (congrArg List.length sent).symm
    delivered := inv.delivered.trans (congrArg (·.queue.popped) down).symm
    asked := inv.asked
    pending := by
      intro reply command' index r late sent' asked same owner
      obtain ⟨m', there, owns⟩ := owner
      exact inv.pending reply command' index r late (sent ▸ sent') asked same
        ⟨m', there, token ▸ owns⟩
    lawful := fun d delivered =>
      inv.lawful_later delivered (sent ▸ List.prefix_rfl) List.prefix_rfl List.prefix_rfl
  }

end Steps

-----------------------------------------------------------------------------------------
-- Every step
-----------------------------------------------------------------------------------------

/-- A `push` that succeeds is one that the ring admits. -/
theorem admits_of_push {ring : LLRing} {d : RingData} {call : PushCall}
    (accepted : (push ring d call).2 = true)
    : Admits ring d call.size := by
  unfold push at accepted
  split at accepted
  · cases accepted
  rename_i fits
  split at accepted
  · cases accepted
  rename_i room
  simp only [Bool.or_eq_true, Bool.not_eq_true', decide_eq_true_eq, not_or] at fits
  exact ⟨UInt32.not_lt.mp fits.2, UInt64.not_le.mp room⟩

/-- Every clean call that leaves one owner at most keeps the invariant, by cases on it. -/
theorem step (inv : ConversationInv cfg session c) {bits : Nat}
    (upstream : Mapped cfg.upstreamRing bits) (downstream : Mapped cfg.downstreamRing bits)
    {action : ConversationAction} (clean : c.Clean action)
    (stepped : conversationMachine.step c action = some next) (one : next.OneOwner)
    : ConversationInv cfg session next := by
  cases action with
  | open_ name system clock =>
      obtain rfl := Option.some.inj stepped
      exact inv.opened (open_outcome (inv.hosts {} clock) rfl name system) one
  | call who call clock =>
      obtain ⟨m, there, rfl⟩ := Option.map_eq_some_iff.mp stepped
      exact inv.called there
        (course_perform call _ (inv.rooted who m there) (inv.hosts m clock)) one
  | send who request clock =>
      obtain ⟨m, there, rfl⟩ := Option.map_eq_some_iff.mp stepped
      have rooted := inv.rooted who m there
      have outcome := send_outcome rooted (inv.hosts m clock) request
      dsimp only at one ⊢
      generalize (send request).run (c.view m clock) = result at outcome one ⊢
      cases outcome with
      | refused outcome => exact inv.called there outcome one
      | accepted owns stays after hosts token down pushed =>
          obtain ⟨command, up, queue, named, -⟩ := inv.up.of_push upstream pushed
          have admits := admits_of_push (congrArg Prod.snd pushed)
          have unused := clean ⟨m, there, owns⟩ (by rw [inv.config]; exact admits) m there
          exact inv.asks there owns stays after hosts token down up queue named unused
  | receive who clock =>
      obtain ⟨m, there, rfl⟩ := Option.map_eq_some_iff.mp stepped
      have rooted := inv.rooted who m there
      have outcome := receive_outcome rooted (inv.hosts m clock)
      dsimp only at one ⊢
      generalize receive.run (c.view m clock) = result at outcome one ⊢
      cases outcome with
      | nothing outcome => exact inv.called there outcome one
      | command owns stays after hosts token up popped =>
          obtain ⟨down, oldest, queue⟩ := inv.down.of_pop downstream popped
          exact inv.receives there owns stays after hosts token up down oldest queue
  | close who =>
      obtain ⟨m, there, rfl⟩ := Option.map_eq_some_iff.mp stepped
      exact inv.closed (close_released (inv.rooted who m there) (inv.hosts m _))
  | publish action =>
      have own : ∀ gen beat down up, action ≠ .subscribers gen beat down up := by
        rintro gen beat down up rfl
        cases stepped
      have stepped
          : c.stepPublisher
              ((c.publisher.step action).map fun publisher => { c with publisher })
            = some next := by
        cases action with
        | subscribers gen beat down up => exact absurd rfl (own gen beat down up)
        | _ => exact stepped
      obtain ⟨p, published, rfl⟩ :=
        Option.map_eq_some_iff.mp (Conversation.stepPublisher_some stepped)
      exact inv.published (Publisher.step_publishes own published) c.gone
  | publisherSend answering request now =>
      obtain ⟨replyTo, refers, rfl⟩ :=
        Option.map_eq_some_iff.mp (Conversation.stepPublisher_some stepped)
      have config := inv.config
      dsimp only [Publisher.send]
      cases pushed
        : push c.publisher.impl.cfg.downstreamRing c.publisher.segment.down
            { request with replyTo, id := c.publisher.impl.nextCmd, timestampNs := now } with
      | mk down accepted =>
          cases accepted with
          | false =>
              let dropped := { c.publisher.impl with dropped := c.publisher.impl.dropped + 1 }
              have publishes : Publishes c.publisher { c.publisher with impl := dropped } :=
                ⟨rfl, ⟨_, _, _, rfl⟩, rfl, rfl⟩
              exact inv.published publishes c.gone
          | true =>
              have admits := admits_of_push (congrArg Prod.snd pushed)
              rw [config] at pushed
              obtain ⟨command, after, queue, -, answers⟩ := inv.down.of_push downstream pushed
              refine inv.replies config rfl rfl after queue fun index r asked same owner => ?_
              have inside := (List.getElem?_eq_some_iff.mp asked).1
              exact clean admits replyTo refers index inside r asked (same.trans answers) owner
  | publisherReceive =>
      obtain rfl := Option.some.inj (Conversation.stepPublisher_some stepped)
      have config := inv.config
      dsimp only [Publisher.receive]
      cases popped : pop c.publisher.impl.cfg.upstreamRing c.publisher.segment.up with
      | mk up got =>
          cases got with
          | none => exact inv.published ⟨rfl, ⟨_, _, _, rfl⟩, rfl, rfl⟩ c.gone
          | some command =>
              rw [config] at popped
              obtain ⟨after, -, queue⟩ := inv.up.of_pop upstream popped
              exact inv.hears config rfl rfl after queue
  | publisherClose =>
      obtain rfl := Option.some.inj (Conversation.stepPublisher_some stepped)
      have publishes : Publishes c.publisher c.publisher.shutdown :=
        ⟨rfl, ⟨_, _, _, rfl⟩, rfl, rfl⟩
      exact inv.published publishes true

end ConversationInv

/-- In every run of a publisher and of subscribers that own the channel one after another, as
long as nobody sends a request under an id that a reply on its way refers to or that it has
used before, and the publisher answers no command under whose id the present owner has sent
another one: whenever a subscriber receives a command that refers to an id one of its own
requests got, the publisher has sent that command in answer to that very request. The
publisher receives the requests in the order in which they were sent.
-/
theorem replies_answer {cfg : LLConfig} (accepted : cfg.accepted = true)
    {session now : UInt64} {schedule : List ConversationAction} {c : Conversation}
    (one : conversationMachine.Along Conversation.OneOwner (.create cfg session now) schedule)
    (clean : conversationMachine.Meets Conversation.Clean (.create cfg session now) schedule)
    (reached : conversationMachine.run (.create cfg session now) schedule = some c)
    : (∀ d ∈ c.deliveries, c.Lawful d)
      ∧ c.received.map (·.id) <+: c.requests.map (·.id) := by
  obtain ⟨bits, upstream, downstream⟩ := LLConfig.accepted_mapped accepted
  have inv : ConversationInv cfg session c :=
    Machine.invariant_of_run _ (ConversationInv cfg session)
      (fun _ _ _ inv both stepped =>
        inv.step upstream downstream both.1 stepped (both.2 _ stepped))
      (.create now) (clean.and one.meets) reached
  refine ⟨inv.lawful, ?_⟩
  rw [inv.ids, inv.received]
  exact inv.up.exact_.inOrder.map _

/-- Two subscribers, each of which sends a request and receives the reply. -/
theorem replies_answer_twice
    : ∃ c : Conversation,
        c.deliveries.map (·.who) = [0, 1]
        ∧ c.requests.map (·.id) = [1, 1]
        ∧ ∀ d ∈ c.deliveries, c.Lawful d := by
  have accepted : ({} : LLConfig).accepted = true := by decide +kernel
  let exchange (who : Nat) : List ConversationAction := [
    .open_ [] {} fun _ => 10,
    .send who { type := 1 } fun _ => 11,
    .publisherReceive,
    .publisherSend (some who) { type := 2 } 12,
    .receive who fun _ => 13,
    .close who
  ]
  have passes
      : (conversationMachine.run (.create {} 7 5) (exchange 0 ++ exchange 1)).any
          (fun c =>
            decide (c.deliveries.map (·.who) = [0, 1] ∧ c.requests.map (·.id) = [1, 1]))
        = true := by
    decide +kernel
  obtain ⟨c, reached, tested⟩ := Machine.reaches_of_any passes
  rw [decide_eq_true_eq] at tested
  have result := replies_answer accepted (by decide +kernel) (by decide +kernel) reached
  exact ⟨c, tested.1, tested.2, result.1⟩

/-- A reply that the first subscriber did not wait for: the second one takes it for the answer
to its own first request, which the publisher has not even received.
-/
theorem reply_misattributed
    : ¬ ∀ (cfg : LLConfig) (session now : UInt64) (schedule : List ConversationAction)
          (c : Conversation),
        cfg.accepted = true
        → conversationMachine.Along Conversation.OneOwner (.create cfg session now) schedule
        → conversationMachine.run (.create cfg session now) schedule = some c
        → ∀ d ∈ c.deliveries, c.Lawful d := by
  intro claim
  let schedule : List ConversationAction := [
    .open_ [] {} fun _ => 10,
    .send 0 { type := 1 } fun _ => 11,
    .publisherReceive,
    .publisherSend (some 0) { type := 2 } 12,
    .close 0,
    .open_ [] {} fun _ => 13,
    .send 1 { type := 1 } fun _ => 14,
    .receive 1 fun _ => 15
  ]
  have passes
      : (conversationMachine.run (.create {} 7 5) schedule).any
          (fun c => decide (∃ d ∈ c.deliveries, ¬ c.Lawful d))
        = true := by
    decide +kernel
  obtain ⟨c, reached, tested⟩ := Machine.reaches_of_any passes
  rw [decide_eq_true_eq] at tested
  obtain ⟨d, delivered, unlawful⟩ := tested
  exact unlawful (claim _ 7 5 _ c (by decide +kernel) (by decide +kernel) reached d delivered)

end ShmFrame.Calls
