import ShmFrame.Calls.Conversation
import ShmFrame.Commands.ChannelExactlyOnce

/-! The books of a conversation: what both sides count as sent and received, and what is still
pending in the rings, over all subscribers that have come and gone.
-/

namespace ShmFrame.Calls

open ShmFrame.Commands ShmFrame.Foundation Call

-----------------------------------------------------------------------------------------
-- What a subscriber counts
-----------------------------------------------------------------------------------------

/-- A call neither sends nor receives anything. -/
structure Uncounted (s next : Subscriber) : Prop where
  sent : next.impl.sent = s.impl.sent
  recvd : next.impl.recvd = s.impl.recvd

instance : Std.Refl Uncounted where
  refl := fun _ => ⟨rfl, rfl⟩

instance : IsTrans Subscriber Uncounted where
  trans := fun _ _ _ first second =>
    ⟨second.sent.trans first.sent, second.recvd.trans first.recvd⟩

section Counters

variable {s next : Subscriber}

/-- What does not concern the claim is the same. -/
theorem Uncounted.of_unclaimed {m : LLSubscriber.Impl}
    (impl : unclaimed next.impl = unclaimed m) (sent : m.sent = s.impl.sent)
    (recvd : m.recvd = s.impl.recvd)
    : Uncounted s next :=
  ⟨(congrArg (·.sent) impl).trans sent, (congrArg (·.recvd) impl).trans recvd⟩

theorem Refreshes.uncounted (refreshes : Refreshes s next) : Uncounted s next :=
  .of_unclaimed refreshes.impl rfl rfl

theorem Gated.uncounted (gated : Gated s next) : Uncounted s next := by
  obtain ⟨lastReadNs, throttled, impl⟩ := gated.impl
  exact ⟨by rw [impl], by rw [impl]⟩

theorem uncounted_tryConnect (system : Circumstances) : Steady Uncounted (tryConnect system) := by
  intro s
  have connected := tryConnect_cases system s
  generalize (tryConnect system).run s = outcome at connected
  cases connected with
  | refused | kept => exact Std.Refl.refl s
  | adopted _ _ _ impl => exact .of_unclaimed impl rfl rfl

theorem uncounted_poll (system : Circumstances) : Steady Uncounted (poll system) := by
  intro s
  have polled := poll_cases system s
  generalize (poll system).run s = outcome at polled
  cases polled with
  | trusted _ refreshes | fresh _ _ refreshes | limited _ _ _ refreshes =>
      exact refreshes.uncounted
  | retried _ _ _ _ _ impl | reattached _ _ _ _ _ _ impl => exact .of_unclaimed impl rfl rfl

theorem uncounted_readLatest (system : Circumstances) (dst : Buffer) (info : LLFrameInfo)
    : Steady Uncounted (readLatest system dst info) := by
  intro s
  have polled := uncounted_poll system s
  rcases readLatest_cases system dst info s with ⟨-, -, same⟩ | ⟨-, goes⟩
  · rw [same]
    exact polled
  · refine IsTrans.trans _ _ _ polled ?_
    generalize (readLatest system dst info).run s = outcome at goes
    cases goes with
    | throttled _ gated | detached _ gated _ => exact gated.uncounted
    | attempted gate _ attempt =>
        refine IsTrans.trans _ _ _ gate.uncounted ?_
        cases attempt with
        | delivered _ _ _ impl => exact ⟨by rw [impl]; rfl, by rw [impl]; rfl⟩
        | quiet | failed | ended => exact ⟨rfl, rfl⟩

/-- Only `send` and `receive` are counted. -/
theorem uncounted_perform (call : PlainCall) : Steady Uncounted call.perform := by
  intro s
  cases call with
  | poll system => exact uncounted_poll system s
  | readLatest system dst info => exact uncounted_readLatest system dst info s
  | readLatestVector first second dst info =>
      change Uncounted s ((readLatestVector first second dst info).run s).2
      have steady : Steady Uncounted (readLatestVector first second dst info) := by
        refine .bind (uncounted_poll first) fun alive => .ite (.pure _) ?_
        refine .bind (fun s => (cheapGate_gated s).uncounted) fun passes => .ite (.pure _) ?_
        exact .bind (.load _) fun m => uncounted_readLatest second _ info
      exact steady s
  | setStaleTimeoutMs ms => exact ⟨rfl, rfl⟩
  | setMaxRead intervalNs => exact ⟨rfl, rfl⟩

/-- `send` counts what it has sent. -/
theorem send_counted (request : PushCall) (s : Subscriber)
    : let outcome := (send request).run s
      outcome.2.impl.sent = s.impl.sent + (if outcome.1.isSome then 1 else 0)
      ∧ outcome.2.impl.recvd = s.impl.recvd := by
  rw [send, Call.run_bind, Call.run_impl]
  cases attached : s.impl.hdr with
  | none => exact ⟨(UInt64.add_zero _).symm, rfl⟩
  | some g =>
      dsimp only
      rw [Call.run_bind]
      have checked := (refreshes_stillOwnsCommands g s).uncounted
      generalize (stillOwnsCommands g).run s = result at checked
      obtain ⟨yes, owner⟩ := result
      cases yes with
      | false => exact ⟨checked.sent.trans (UInt64.add_zero _).symm, checked.recvd⟩
      | true =>
          simp only [Bool.not_true, Bool.false_eq_true, if_false]
          rw [Call.run_bind, Call.run_impl, Call.run_bind, Call.run_bind]
          let call :=
            { request with id := owner.impl.nextCmd, timestampNs := (nowNs.run owner).1 }
          generalize (onUp g fun up => push owner.impl.tx up call).run (nowNs.run owner).2 = result
          obtain ⟨accepted, rest⟩ := result
          cases accepted with
          | false => exact ⟨checked.sent.trans (UInt64.add_zero _).symm, checked.recvd⟩
          | true => exact ⟨congrArg (· + 1) checked.sent, checked.recvd⟩

/-- `receive` counts what it has received. -/
theorem receive_counted (s : Subscriber)
    : let outcome := receive.run s
      outcome.2.impl.recvd = s.impl.recvd + (if outcome.1.isSome then 1 else 0)
      ∧ outcome.2.impl.sent = s.impl.sent := by
  have received := receive_cases s
  generalize receive.run s = outcome at received
  cases received with
  | nothing refreshes =>
      have same := refreshes.uncounted
      exact ⟨same.recvd.trans (UInt64.add_zero _).symm, same.sent⟩
  | command _ _ _ impl => exact ⟨congrArg (·.recvd) impl, congrArg (·.sent) impl⟩

/-- A subscriber that is opened has not counted anything. -/
theorem open_uncounted (name : Name) (system : Circumstances) (s : Subscriber)
    : ((openSubscriber name system).run s).2.impl.sent = 0
      ∧ ((openSubscriber name system).run s).2.impl.recvd = 0 := by
  let fresh : Subscriber :=
    { (nowNs.run s).2 with impl := { name, lastProgress := s.clock 0 } }
  have same := uncounted_tryConnect system fresh
  exact ⟨same.sent, same.recvd⟩

end Counters

-----------------------------------------------------------------------------------------
-- The books
-----------------------------------------------------------------------------------------

/-- `LLRing::pending`. -/
def pending (ring : LLRing) (d : RingData) : UInt32 :=
  if !ring.valid then 0 else (d.head - d.tail).toUInt32

/-- `LLPublisher::outbound_pending`. -/
def Publisher.outboundPending (p : Publisher) : UInt32 :=
  pending p.impl.cfg.downstreamRing p.segment.down

/-- What a ring counts as pending is what has been put into it and not taken out. -/
theorem pending_toNat {ring : LLRing} {bits : Nat} {d : RingData} (inv : RingInv ring 0 d)
    (mapped : Mapped ring bits)
    : (pending ring d).toNat = d.queue.unread ∧ d.queue.unread ≤ ring.slots.toNat := by
  have few := inv.exact_.unread_le
  have range := ring.slots.toNat_lt
  have valid : ¬ (!ring.valid) = true := by simp [mapped.valid]
  refine ⟨?_, few⟩
  rw [pending, if_neg valid, UInt64.toNat_toUInt32, inv.distance]
  exact Nat.mod_eq_of_lt (by omega)

namespace Conversation

/-- How many requests a subscriber has sent, and how many commands it has received. -/
def requestsOf (c : Conversation) (who : Nat) : Nat := c.requests.countP (·.who = who)
def deliveriesOf (c : Conversation) (who : Nat) : Nat := c.deliveries.countP (·.who = who)

/-- The books balance: what one side counts as sent is what the other side has received and what
is still pending, and every subscriber counts what is its own.
-/
structure Balanced (c : Conversation) : Prop where
  downstream
    : c.publisher.impl.sent
      = UInt64.ofNat c.deliveries.length + c.publisher.outboundPending.toUInt64
  upstream
    : UInt64.ofNat c.requests.length
      = c.publisher.impl.recvd
        + (pending c.publisher.impl.cfg.upstreamRing c.publisher.segment.up).toUInt64
  room
    : c.publisher.outboundPending ≤ c.publisher.impl.cfg.commandSlots
      ∧ pending c.publisher.impl.cfg.upstreamRing c.publisher.segment.up
        ≤ c.publisher.impl.cfg.commandSlots
  sent : ∀ who, ∀ m ∈ c.present who, m.sent = UInt64.ofNat (c.requestsOf who)
  received : ∀ who, ∀ m ∈ c.present who, m.recvd = UInt64.ofNat (c.deliveriesOf who)

end Conversation

/-- The rings, the history and all counters agree. -/
structure Books (cfg : LLConfig) (session : UInt64) (c : Conversation) : Prop where
  config : c.publisher.impl.cfg = cfg
  announces : Announces c.publisher.segment.header cfg session
  up : RingInv cfg.upstreamRing 0 c.publisher.segment.up
  down : RingInv cfg.downstreamRing 0 c.publisher.segment.down
  rooted : ∀ who, ∀ m ∈ c.present who, Rooted cfg session m
  asked : c.requests.length = c.publisher.segment.up.queue.accepted.length
  delivered : c.deliveries.length = c.publisher.segment.down.queue.popped.length
  sent : c.publisher.impl.sent = UInt64.ofNat c.publisher.segment.down.queue.accepted.length
  recvd : c.publisher.impl.recvd = UInt64.ofNat c.publisher.segment.up.queue.popped.length
  counted
    : ∀ who, ∀ m ∈ c.present who,
        m.sent = UInt64.ofNat (c.requestsOf who) ∧ m.recvd = UInt64.ofNat (c.deliveriesOf who)
  askers : ∀ r ∈ c.requests, r.who < c.subscribers.length
  receivers : ∀ d ∈ c.deliveries, d.who < c.subscribers.length

namespace Books

variable {cfg : LLConfig} {session : UInt64} {c next : Conversation} {bits : Nat}

/-- At the start nothing has been counted. -/
theorem create (now : UInt64) : Books cfg session (.create cfg session now) where
  config := rfl
  announces := rfl
  up := .create _
  down := .create _
  rooted := fun who m there => by simp [Conversation.present, Conversation.create] at there
  asked := rfl
  delivered := rfl
  sent := rfl
  recvd := rfl
  counted := fun who m there => by simp [Conversation.present, Conversation.create] at there
  askers := fun r asked => by cases asked
  receivers := fun d delivered => by cases delivered

/-- Books that agree balance. -/
theorem balanced (books : Books cfg session c) (upstream : Mapped cfg.upstreamRing bits)
    (downstream : Mapped cfg.downstreamRing bits)
    : c.Balanced := by
  have total {ring : LLRing} {d : RingData} (inv : RingInv ring 0 d) (mapped : Mapped ring bits)
      : UInt64.ofNat d.queue.accepted.length
        = UInt64.ofNat d.queue.popped.length + (pending ring d).toUInt64 := by
    have less := inv.exact_.inOrder.length_le
    refine UInt64.toNat_inj.mp ?_
    rw [UInt64.toNat_add, UInt64.toNat_ofNat', UInt64.toNat_ofNat', UInt32.toNat_toUInt64,
      (pending_toNat inv mapped).1, Fifo.unread]
    omega
  have few {ring : LLRing} {d : RingData} (inv : RingInv ring 0 d) (mapped : Mapped ring bits)
      : pending ring d ≤ ring.slots := by
    obtain ⟨unread, room⟩ := pending_toNat inv mapped
    exact UInt32.le_iff_toNat_le.mpr (unread ▸ room)
  refine ⟨?_, ?_, ⟨?_, ?_⟩, fun who m there => (books.counted who m there).1,
    fun who m there => (books.counted who m there).2⟩
  · rw [books.sent, books.delivered, Publisher.outboundPending, books.config]
    exact total books.down downstream
  · rw [books.asked, books.recvd, books.config]
    exact total books.up upstream
  · rw [Publisher.outboundPending, books.config]
    exact few books.down downstream
  · rw [books.config]
    exact few books.up upstream

/-- What a subscriber works on satisfies the assumptions about its calls. -/
theorem hosts (books : Books cfg session c) (m : LLSubscriber.Impl) (clock : Nat → UInt64)
    : Hosts cfg session (c.view m clock).world :=
  ⟨by simp only [Conversation.view]; split <;> simp, books.announces⟩

/-- Neither the rings nor the history nor what the publisher counts is touched. -/
structure Quiet (c next : Conversation) : Prop where
  config : next.publisher.impl.cfg = c.publisher.impl.cfg
  sent : next.publisher.impl.sent = c.publisher.impl.sent
  recvd : next.publisher.impl.recvd = c.publisher.impl.recvd
  up : next.publisher.segment.up = c.publisher.segment.up
  down : next.publisher.segment.down = c.publisher.segment.down
  requests : next.requests = c.requests
  deliveries : next.deliveries = c.deliveries
  members : c.subscribers.length ≤ next.subscribers.length

/-- The books agree as before, if the counters of the subscribers do. -/
theorem quiet (books : Books cfg session c) (quiet : Quiet c next)
    (announces : Announces next.publisher.segment.header cfg session)
    (rooted : ∀ who, ∀ m ∈ next.present who, Rooted cfg session m)
    (counted
      : ∀ who, ∀ m ∈ next.present who,
          m.sent = UInt64.ofNat (c.requestsOf who) ∧ m.recvd = UInt64.ofNat (c.deliveriesOf who))
    : Books cfg session next where
  config := quiet.config.trans books.config
  announces := announces
  up := quiet.up ▸ books.up
  down := quiet.down ▸ books.down
  rooted := rooted
  asked := by rw [quiet.requests, quiet.up, books.asked]
  delivered := by rw [quiet.deliveries, quiet.down, books.delivered]
  sent := by rw [quiet.sent, quiet.down, books.sent]
  recvd := by rw [quiet.recvd, quiet.up, books.recvd]
  counted := by
    simp only [Conversation.requestsOf, Conversation.deliveriesOf, quiet.requests,
      quiet.deliveries]
    exact counted
  askers := fun r asked => (books.askers r (quiet.requests ▸ asked)).trans_le quiet.members
  receivers := fun d got => (books.receivers d (quiet.deliveries ▸ got)).trans_le quiet.members

section Steps

variable {who : Nat} {m : LLSubscriber.Impl} {s : Subscriber} {clock : Nat → UInt64}

/-- Private states after a call of a subscriber. -/
theorem rooted_after (books : Books cfg session c) (there : c.present who = some m)
    (rooted : Rooted cfg session s.impl) (other : Nat)
    : ∀ m' ∈ (c.after who s).present other, Rooted cfg session m' := by
  intro m' there'
  rw [Conversation.present_after there] at there'
  split at there'
  · cases there'
    exact rooted
  · exact books.rooted other m' there'

/-- A call of a subscriber that does nothing on the rings. -/
theorem called (books : Books cfg session c) (there : c.present who = some m)
    (outcome : Outcome cfg session (c.view m clock) s) (same : Uncounted (c.view m clock) s)
    : Books cfg session (c.after who s) := by
  have members : c.subscribers.length ≤ (c.after who s).subscribers.length := by
    simp [Conversation.after]
  refine books.quiet ⟨rfl, rfl, rfl, outcome.up, outcome.down, rfl, rfl, members⟩
    outcome.hosts.announces (books.rooted_after there outcome.rooted) ?_
  intro other m' there'
  rw [Conversation.present_after there] at there'
  split at there'
  · rename_i here
    cases there'
    subst here
    obtain ⟨sent, recvd⟩ := books.counted other m there
    exact ⟨same.sent.trans sent, same.recvd.trans recvd⟩
  · exact books.counted other m' there'

/-- A subscriber that is opened. -/
theorem opened (books : Books cfg session c) (outcome : Outcome cfg session (c.view {} clock) s)
    (sent : s.impl.sent = 0) (recvd : s.impl.recvd = 0)
    : Books cfg session (c.opened s) := by
  have members : c.subscribers.length ≤ (c.opened s).subscribers.length := by
    simp [Conversation.opened, Conversation.stored]
  refine books.quiet ⟨rfl, rfl, rfl, outcome.up, outcome.down, rfl, rfl, members⟩
    outcome.hosts.announces ?_ ?_
  · intro other m there
    rw [Conversation.present_opened] at there
    split at there
    · cases there
      exact outcome.rooted
    · exact books.rooted other m there
  · intro other m there
    rw [Conversation.present_opened] at there
    split at there
    · rename_i new
      cases there
      subst new
      -- Nobody else has had this number before.
      have asked : c.requestsOf c.subscribers.length = 0 :=
        List.countP_eq_zero.mpr fun r asked => by
          simpa using (books.askers r asked).ne
      have got : c.deliveriesOf c.subscribers.length = 0 :=
        List.countP_eq_zero.mpr fun d got => by
          simpa using (books.receivers d got).ne
      exact ⟨sent.trans (congrArg UInt64.ofNat asked.symm),
        recvd.trans (congrArg UInt64.ofNat got.symm)⟩
    · exact books.counted other m there

/-- A subscriber that is closed. -/
theorem closed (books : Books cfg session c)
    (released : Released cfg session (c.view m clock) s)
    : Books cfg session (c.closed who s) := by
  have members : c.subscribers.length ≤ (c.closed who s).subscribers.length := by
    simp [Conversation.closed]
  refine books.quiet ⟨rfl, rfl, rfl, released.up, released.down, rfl, rfl, members⟩
    released.hosts.announces ?_ ?_
  all_goals
    intro other m' there
    rw [Conversation.present_closed] at there
    split at there
    · cases there
  · exact books.rooted other m' there
  · exact books.counted other m' there

/-- One more of those that pass a test. -/
theorem countP_concat {α : Type} (test : α → Bool) (l : List α) (last : α)
    : UInt64.ofNat ((l ++ [last]).countP test)
      = UInt64.ofNat (l.countP test) + (if test last then 1 else 0) := by
  rw [List.countP_append, List.countP_singleton, UInt64.ofNat_add]
  split <;> rfl

/-- A request is sent. -/
theorem asks (books : Books cfg session c) (there : c.present who = some m)
    (rooted : Rooted cfg session s.impl) (hosts : Hosts cfg session s.world)
    (down : (s.world.segments 0).down = c.publisher.segment.down)
    (sent : s.impl.sent = m.sent + 1) (recvd : s.impl.recvd = m.recvd) {id : UInt64}
    {command : LLShmCommand} (up : RingInv cfg.upstreamRing 0 (s.world.segments 0).up)
    (queue : (s.world.segments 0).up.queue = c.publisher.segment.up.queue.push command)
    : Books cfg session { c.after who s with requests := c.requests ++ [{ who, id }] } where
  config := books.config
  announces := hosts.announces
  up := up
  down := by
    change RingInv cfg.downstreamRing 0 (s.world.segments 0).down
    rw [down]
    exact books.down
  rooted := books.rooted_after there rooted
  asked := by
    change _ = (s.world.segments 0).up.queue.accepted.length
    rw [queue, Fifo.push, List.length_append, List.length_append, books.asked]
    rfl
  delivered := books.delivered.trans (congrArg (·.queue.popped.length) down).symm
  sent := books.sent.trans (congrArg (UInt64.ofNat ·.queue.accepted.length) down).symm
  recvd := books.recvd.trans (congrArg (UInt64.ofNat ·.popped.length) queue).symm
  counted := by
    intro other m' there'
    have there' : (c.after who s).present other = some m' := there'
    rw [Conversation.present_after there] at there'
    dsimp only [Conversation.requestsOf]
    rw [countP_concat]
    split at there'
    · rename_i here
      cases there'
      subst here
      obtain ⟨before, same⟩ := books.counted other m there
      rw [sent, before, recvd, same, if_pos (decide_eq_true rfl)]
      exact ⟨rfl, rfl⟩
    · rename_i apart
      rw [if_neg (by simpa using Ne.symm apart), UInt64.add_zero]
      exact books.counted other m' there'
  askers := by
    intro r asked
    simp only [Conversation.after, List.length_set]
    rcases List.mem_append.mp asked with before | new
    · exact books.askers r before
    · rw [List.mem_singleton.mp new]
      exact Conversation.present_lt there
  receivers := fun d got => by simpa [Conversation.after] using books.receivers d got

/-- A command is received. -/
theorem receives (books : Books cfg session c) (there : c.present who = some m)
    (rooted : Rooted cfg session s.impl) (hosts : Hosts cfg session s.world)
    (up : (s.world.segments 0).up = c.publisher.segment.up)
    (recvd : s.impl.recvd = m.recvd + 1) (sent : s.impl.sent = m.sent)
    {command : LLShmCommand} (down : RingInv cfg.downstreamRing 0 (s.world.segments 0).down)
    (queue : (s.world.segments 0).down.queue = c.publisher.segment.down.queue.pop command)
    {delivery : Delivery} (own : delivery.who = who)
    : Books cfg session { c.after who s with deliveries := c.deliveries ++ [delivery] } where
  config := books.config
  announces := hosts.announces
  up := by
    change RingInv cfg.upstreamRing 0 (s.world.segments 0).up
    rw [up]
    exact books.up
  down := down
  rooted := books.rooted_after there rooted
  asked := books.asked.trans (congrArg (·.queue.accepted.length) up).symm
  delivered := by
    change _ = (s.world.segments 0).down.queue.popped.length
    rw [queue, Fifo.pop, List.length_append, List.length_append, books.delivered]
    rfl
  sent := books.sent.trans (congrArg (UInt64.ofNat ·.accepted.length) queue).symm
  recvd := books.recvd.trans (congrArg (UInt64.ofNat ·.queue.popped.length) up).symm
  counted := by
    intro other m' there'
    have there' : (c.after who s).present other = some m' := there'
    rw [Conversation.present_after there] at there'
    dsimp only [Conversation.deliveriesOf]
    rw [countP_concat, own]
    split at there'
    · rename_i here
      cases there'
      subst here
      obtain ⟨same, before⟩ := books.counted other m there
      rw [sent, same, recvd, before, if_pos (decide_eq_true rfl)]
      exact ⟨rfl, rfl⟩
    · rename_i apart
      rw [if_neg (by simpa using Ne.symm apart), UInt64.add_zero]
      exact books.counted other m' there'
  askers := fun r asked => by simpa [Conversation.after] using books.askers r asked
  receivers := by
    intro d got
    simp only [Conversation.after, List.length_set]
    rcases List.mem_append.mp got with before | new
    · exact books.receivers d before
    · rw [List.mem_singleton.mp new, own]
      exact Conversation.present_lt there

/-- Frames are not commands, nor is a command that the ring refuses or does not have. -/
theorem published (books : Books cfg session c) {p : Publisher}
    (publishes : Publishes c.publisher p) (sent : p.impl.sent = c.publisher.impl.sent)
    (recvd : p.impl.recvd = c.publisher.impl.recvd) (gone : Bool)
    : Books cfg session { c with publisher := p, gone } := by
  obtain ⟨config, ⟨latest, shutdown, beat, header⟩, down, up⟩ := publishes
  refine books.quiet ⟨config, sent, recvd, up, down, rfl, rfl, le_rfl⟩ ?_ books.rooted
    books.counted
  have stored :=
    congrArg (fun h : LLHeader => { h with latest, shutdown, lastHeartbeatNs := beat })
      books.announces
  exact header ▸ stored

/-- The publisher sends a command. -/
theorem replies (books : Books cfg session c) {p : Publisher} {answers : List (Option Nat)}
    {command : LLShmCommand} (config : p.impl.cfg = cfg)
    (header : p.segment.header = c.publisher.segment.header)
    (up : p.segment.up = c.publisher.segment.up)
    (sent : p.impl.sent = c.publisher.impl.sent + 1)
    (recvd : p.impl.recvd = c.publisher.impl.recvd)
    (down : RingInv cfg.downstreamRing 0 p.segment.down)
    (queue : p.segment.down.queue = c.publisher.segment.down.queue.push command)
    : Books cfg session { c with publisher := p, answers } where
  config := config
  announces := header ▸ books.announces
  up := up ▸ books.up
  down := down
  rooted := books.rooted
  asked := books.asked.trans (congrArg (·.queue.accepted.length) up).symm
  delivered := books.delivered.trans (congrArg (·.popped.length) queue).symm
  sent := by
    change p.impl.sent = UInt64.ofNat p.segment.down.queue.accepted.length
    rw [sent, queue, Fifo.push, List.length_append, books.sent, UInt64.ofNat_add]
    rfl
  recvd := recvd.trans (books.recvd.trans (congrArg (UInt64.ofNat ·.queue.popped.length) up).symm)
  counted := books.counted
  askers := books.askers
  receivers := books.receivers

/-- The publisher receives a command. -/
theorem hears (books : Books cfg session c) {p : Publisher} {received : List LLShmCommand}
    {command : LLShmCommand} (config : p.impl.cfg = cfg)
    (header : p.segment.header = c.publisher.segment.header)
    (down : p.segment.down = c.publisher.segment.down)
    (sent : p.impl.sent = c.publisher.impl.sent)
    (recvd : p.impl.recvd = c.publisher.impl.recvd + 1)
    (up : RingInv cfg.upstreamRing 0 p.segment.up)
    (queue : p.segment.up.queue = c.publisher.segment.up.queue.pop command)
    : Books cfg session { c with publisher := p, received } where
  config := config
  announces := header ▸ books.announces
  up := up
  down := down ▸ books.down
  rooted := books.rooted
  asked := books.asked.trans (congrArg (·.accepted.length) queue).symm
  delivered := books.delivered.trans (congrArg (·.queue.popped.length) down).symm
  sent :=
    sent.trans (books.sent.trans (congrArg (UInt64.ofNat ·.queue.accepted.length) down).symm)
  recvd := by
    change p.impl.recvd = UInt64.ofNat p.segment.up.queue.popped.length
    rw [recvd, queue, Fifo.pop, List.length_append, books.recvd, UInt64.ofNat_add]
    rfl
  counted := books.counted
  askers := books.askers
  receivers := books.receivers

/-- The calls on the frame path do not count commands, by cases on the call. -/
theorem step_counters {p next : Publisher} {action : PublisherAction}
    (stepped : p.step action = some next)
    : next.impl.sent = p.impl.sent ∧ next.impl.recvd = p.impl.recvd := by
  cases action with
  | beginWrite width height now =>
      obtain rfl := Option.some.inj stepped
      simp only [Publisher.beginWrite]
      rcases p.impl.admitWrite_cases width height now with same | counted | ⟨-, begun⟩
      · rw [same]
        exact ⟨rfl, rfl⟩
      · rw [counted]
        exact ⟨rfl, rfl⟩
      · rw [begun]
        exact ⟨rfl, rfl⟩
  | storeByte offset byte =>
      simp only [Publisher.step, Publisher.storeByte] at stepped
      split at stepped
      · split at stepped
        · obtain rfl := Option.some.inj stepped
          exact ⟨rfl, rfl⟩
        · cases stepped
      · cases stepped
  | cancelWrite =>
      obtain rfl := Option.some.inj stepped
      unfold Publisher.cancelWrite
      split <;> exact ⟨rfl, rfl⟩
  | commit timestamp now published =>
      obtain rfl := Option.some.inj stepped
      unfold Publisher.commit
      split <;> exact ⟨rfl, rfl⟩
  | heartbeat now | setMaxPublish intervalNs | subscribers gen beat down up =>
      obtain rfl := Option.some.inj stepped
      exact ⟨rfl, rfl⟩

end Steps

/-- Every call keeps the books, by cases on it. -/
theorem step (books : Books cfg session c) (upstream : Mapped cfg.upstreamRing bits)
    (downstream : Mapped cfg.downstreamRing bits) {action : ConversationAction}
    (stepped : conversationMachine.step c action = some next)
    : Books cfg session next := by
  cases action with
  | open_ name system clock =>
      obtain rfl := Option.some.inj stepped
      obtain ⟨sent, recvd⟩ := open_uncounted name system (c.view {} clock)
      exact books.opened (open_outcome (books.hosts {} clock) rfl name system) sent recvd
  | call who call clock =>
      obtain ⟨m, there, rfl⟩ := Option.map_eq_some_iff.mp stepped
      have rooted := books.rooted who m there
      exact books.called there (course_perform call _ rooted (books.hosts m clock))
        (uncounted_perform call _)
  | send who request clock =>
      obtain ⟨m, there, rfl⟩ := Option.map_eq_some_iff.mp stepped
      have outcome := send_outcome (books.rooted who m there) (books.hosts m clock) request
      have counted := send_counted request (c.view m clock)
      dsimp only at counted ⊢
      generalize (send request).run (c.view m clock) = result at outcome counted ⊢
      cases outcome with
      | refused outcome =>
          exact books.called there outcome ⟨counted.1.trans (UInt64.add_zero _), counted.2⟩
      | accepted _ _ after hosts _ down pushed =>
          obtain ⟨command, up, queue, -⟩ := books.up.of_push upstream pushed
          exact books.asks there after hosts down counted.1 counted.2 up queue
  | receive who clock =>
      obtain ⟨m, there, rfl⟩ := Option.map_eq_some_iff.mp stepped
      have outcome := receive_outcome (books.rooted who m there) (books.hosts m clock)
      have counted := receive_counted (c.view m clock)
      dsimp only at counted ⊢
      generalize receive.run (c.view m clock) = result at outcome counted ⊢
      cases outcome with
      | nothing outcome =>
          exact books.called there outcome ⟨counted.2, counted.1.trans (UInt64.add_zero _)⟩
      | command _ _ after hosts _ up popped =>
          obtain ⟨down, -, queue⟩ := books.down.of_pop downstream popped
          exact books.receives there after hosts up counted.1 counted.2 down queue rfl
  | close who =>
      obtain ⟨m, there, rfl⟩ := Option.map_eq_some_iff.mp stepped
      exact books.closed (close_released (books.rooted who m there) (books.hosts m _))
  | publish action =>
      have own : ∀ gen beat down up, action ≠ .subscribers gen beat down up := by
        rintro gen beat down up rfl
        cases stepped
      have stepped
          : c.stepPublisher
              ((c.publisher.step action).map fun publisher => { c with publisher })
            = some next := by
        cases action with
        | subscribers gen beat down up => exact absurd rfl (own gen beat down up)
        | _ => exact stepped
      obtain ⟨p, published, rfl⟩ :=
        Option.map_eq_some_iff.mp (Conversation.stepPublisher_some stepped)
      obtain ⟨sent, recvd⟩ := step_counters published
      exact books.published (Publisher.step_publishes own published) sent recvd c.gone
  | publisherSend answering request now =>
      obtain ⟨replyTo, refers, rfl⟩ :=
        Option.map_eq_some_iff.mp (Conversation.stepPublisher_some stepped)
      have config := books.config
      dsimp only [Publisher.send]
      cases pushed
        : push c.publisher.impl.cfg.downstreamRing c.publisher.segment.down
            { request with replyTo, id := c.publisher.impl.nextCmd, timestampNs := now } with
      | mk down accepted =>
          cases accepted with
          | false =>
              let dropped := { c.publisher.impl with dropped := c.publisher.impl.dropped + 1 }
              have publishes : Publishes c.publisher { c.publisher with impl := dropped } :=
                ⟨rfl, ⟨_, _, _, rfl⟩, rfl, rfl⟩
              exact books.published publishes rfl rfl c.gone
          | true =>
              rw [config] at pushed
              obtain ⟨command, after, queue, -⟩ := books.down.of_push downstream pushed
              exact books.replies config rfl rfl rfl rfl after queue
  | publisherReceive =>
      obtain rfl := Option.some.inj (Conversation.stepPublisher_some stepped)
      have config := books.config
      dsimp only [Publisher.receive]
      cases popped : pop c.publisher.impl.cfg.upstreamRing c.publisher.segment.up with
      | mk up got =>
          cases got with
          | none => exact books.published ⟨rfl, ⟨_, _, _, rfl⟩, rfl, rfl⟩ rfl rfl c.gone
          | some command =>
              rw [config] at popped
              obtain ⟨after, -, queue⟩ := books.up.of_pop upstream popped
              exact books.hears config rfl rfl rfl rfl after queue
  | publisherClose =>
      obtain rfl := Option.some.inj (Conversation.stepPublisher_some stepped)
      have publishes : Publishes c.publisher c.publisher.shutdown :=
        ⟨rfl, ⟨_, _, _, rfl⟩, rfl, rfl⟩
      exact books.published publishes rfl rfl true

end Books

/-- In every run whose steps are whole public calls, of a publisher and of any number of
subscribers that come and go, own the channel, lose it, and send and receive in any order: what
the publisher counts as sent is what all subscribers together have received and what is still
pending, what they have sent is what the publisher counts as received and what is still pending,
and every subscriber counts exactly its own commands.
-/
theorem commands_balance {cfg : LLConfig} (accepted : cfg.accepted = true)
    {session now : UInt64} {schedule : List ConversationAction} {c : Conversation}
    (reached : conversationMachine.run (.create cfg session now) schedule = some c)
    : c.Balanced := by
  obtain ⟨bits, upstream, downstream⟩ := LLConfig.accepted_mapped accepted
  have books : Books cfg session c :=
    Machine.invariant_of_reached (Books cfg session)
      (fun _ _ _ books stepped => books.step upstream downstream stepped) (.create now) reached
  exact books.balanced upstream downstream

/-- A command that is still pending when its receiver is closed is received by the next one. -/
theorem commands_balance_handover
    : ∃ c : Conversation,
        c.publisher.impl.sent = 2
        ∧ c.publisher.outboundPending = 1
        ∧ c.deliveries.map (·.who) = [1]
        ∧ c.Balanced := by
  let schedule : List ConversationAction := [
    .open_ [] {} fun _ => 10,
    .send 0 { type := 1 } fun _ => 11,
    .publisherReceive,
    .publisherSend (some 0) { type := 2 } 12,
    .close 0,
    .open_ [] {} fun _ => 13,
    .receive 1 fun _ => 14,
    .publisherSend none { type := 3 } 15
  ]
  have passes
      : (conversationMachine.run (.create {} 7 5) schedule).any
          (fun c =>
            decide
              (c.publisher.impl.sent = 2
                ∧ c.publisher.outboundPending = 1
                ∧ c.deliveries.map (·.who) = [1]))
        = true := by
    decide +kernel
  obtain ⟨c, reached, tested⟩ := Machine.reaches_of_any passes
  rw [decide_eq_true_eq] at tested
  exact ⟨c, tested.1, tested.2.1, tested.2.2, commands_balance (by decide +kernel) reached⟩

end ShmFrame.Calls
