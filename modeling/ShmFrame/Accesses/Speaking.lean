import ShmFrame.Accesses.Dialogue

/-! The calls of a conversation on words: they are made of the actions that the conversation
knows, and keep what everybody knows of the segment.
-/

namespace ShmFrame.Accesses

open ShmFrame.Foundation
open Commands (PushCall)
open Calls (RowCopy Segment Subscriber Circumstances Seat Seated Publisher PublisherAction
  TimedPublisher Conversation conversationMachine)

-----------------------------------------------------------------------------------------
-- Calls on words are calls of the conversation
-----------------------------------------------------------------------------------------

section Speaking

variable {c next : Conversation} {p q : Publisher}

/-- What a publisher does by some of its actions. -/
def Reaches (p q : Publisher) : Prop :=
  ∃ actions,
    Calls.publisherMachine.run p actions = some q
    ∧ ∀ action ∈ actions, ∀ gen beat down up, action ≠ .subscribers gen beat down up

theorem Reaches.refl (p : Publisher) : Reaches p p := ⟨[], rfl, fun _ member => nomatch member⟩

/-- One action. -/
theorem Reaches.step (action : PublisherAction) (stepped : p.step action = some q)
    (own : ∀ gen beat down up, action ≠ .subscribers gen beat down up)
    : Reaches p q := by
  refine ⟨[action], ?_, fun other member => ?_⟩
  · exact Machine.run_cons_eq_some.mpr ⟨q, stepped, rfl⟩
  · obtain rfl := List.mem_singleton.mp member
    exact own

theorem Reaches.trans {r : Publisher} (one : Reaches p q) (two : Reaches q r) : Reaches p r := by
  obtain ⟨before, reached, own⟩ := one
  obtain ⟨rest, onward, owned⟩ := two
  refine ⟨before ++ rest, Machine.run_append_eq_some.mpr ⟨q, reached, onward⟩, ?_⟩
  intro action member
  rcases List.mem_append.mp member with first | second
  · exact own action first
  · exact owned action second

/-- A copy is made of single bytes, by induction on their number. -/
theorem reaches_storeBytes {slot : UInt32} (pending : p.impl.pending = some slot)
    (source : Nat → UInt8) (first count : Nat)
    (inside : first + count ≤ p.impl.cfg.maxPayload.toNat)
    : let old := p.segment.slots slot.toNat
      Reaches p
        (p.setSlot slot.toNat
          { old with payload := overwritten old.payload first source count }) := by
  induction count with
  | zero =>
      have same : p.setSlot slot.toNat (p.segment.slots slot.toNat) = p :=
        congrArg (Publisher.mk p.impl) (withSlot_self p.segment slot.toNat)
      dsimp only
      rw [overwritten_zero, same]
      exact .refl p
  | succ count ih =>
      refine (ih (by omega)).trans
        (Reaches.step (.storeByte (first + count) (source count)) ?_ nofun)
      rw [overwritten_succ]
      have room : first + count < p.impl.cfg.maxPayload.toNat := by omega
      have stored (payload : Nat → UInt8) (byte : UInt8)
          : let old := p.segment.slots slot.toNat
            (p.setSlot slot.toNat { old with payload }).storeByte (first + count) byte
            = some (p.setSlot slot.toNat {
                old with
                payload := fun other => if other = first + count then byte else payload other
              }) := by
        unfold Publisher.storeByte
        simp only [Publisher.setSlot, pending, room, if_true]
        congr 3
        funext other
        by_cases same : other = slot.toNat
        · simp [same]
        · simp [same]
      exact stored _ _

/-- One copy of `publish`. -/
theorem reaches_copyRow (pending : p.impl.pending = some p.impl.writeSlot) (src : Nat → UInt8)
    (copy : RowCopy)
    (inside : copy.offset.toNat + copy.length.toNat ≤ p.impl.cfg.maxPayload.toNat)
    : Reaches p (Publisher.copyRow src p copy) :=
  reaches_storeBytes pending (fun byte => src (copy.source.toNat + byte)) _ _ inside

/-- All of them, by induction on the copies. -/
theorem reaches_copyRows (pending : p.impl.pending = some p.impl.writeSlot) (src : Nat → UInt8)
    (copies : List RowCopy)
    (inside
      : ∀ copy ∈ copies, copy.offset.toNat + copy.length.toNat ≤ p.impl.cfg.maxPayload.toNat)
    : Reaches p (copies.foldl (Publisher.copyRow src) p) := by
  induction copies generalizing p with
  | nil => exact .refl p
  | cons copy rest ih =>
      refine (reaches_copyRow pending src copy (inside copy List.mem_cons_self)).trans ?_
      exact ih (p := Publisher.copyRow src p copy) pending fun later member =>
        inside later (List.mem_cons_of_mem _ member)

/-- What a publisher has done by its actions is done in the conversation. -/
theorem Reaches.run (reaches : Reaches c.publisher q) (here : c.gone = false)
    : ∃ schedule, conversationMachine.run c schedule = some { c with publisher := q } := by
  obtain ⟨actions, reached, own⟩ := reaches
  refine ⟨actions.map .publish, ?_⟩
  induction actions generalizing c with
  | nil =>
      obtain rfl := Option.some.inj reached
      rfl
  | cons action rest ih =>
      obtain ⟨middle, stepped, onward⟩ := Machine.run_cons_eq_some.mp reached
      refine Machine.run_cons_eq_some.mpr ⟨{ c with publisher := middle }, ?_, ?_⟩
      · have one : c.publisher.step action = some middle := stepped
        cases action with
        | subscribers gen beat down up =>
            exact absurd rfl (own _ List.mem_cons_self gen beat down up)
        | beginWrite | storeByte | cancelWrite | commit | heartbeat | setMaxPublish =>
            simp only [conversationMachine, Conversation.step, Conversation.stepPublisher, here,
              Bool.false_eq_true, if_false, one]
            rfl
      · exact ih (c := { c with publisher := middle }) here onward
          fun other member => own other (List.mem_cons_of_mem _ member)

/-- What a `commit` does. -/
theorem reaches_commit (s : TimedPublisher) (timestamp : UInt64)
    : Reaches s.publisher (s.commit timestamp).publisher := by
  unfold TimedPublisher.commit
  split
  · exact .refl _
  · exact .step (.commit timestamp _ _) rfl nofun

/-- A call on the frame path is made of actions, by cases on the call. -/
theorem reaches_frame {s : TimedPublisher} (hosting : Hosting s.publisher) (call : PublisherCall)
    (unwrapped : call.Unwrapped s.publisher.impl.cfg)
    : Reaches s.publisher (call.onWords s).1.publisher := by
  have begins (width height : UInt32)
      : Reaches s.publisher (s.beginWrite width height).1.publisher :=
    .step (.beginWrite width height (s.clock 0)) rfl nofun
  cases call with
  | beginWrite width height => exact begins width height
  | cancelWrite => exact .step .cancelWrite rfl nofun
  | setMaxPublish intervalNs => exact .step (.setMaxPublish intervalNs) rfl nofun
  | commit timestampNs => exact reaches_commit s timestampNs
  | publish src width height srcStride =>
      cases src with
      | none => exact .refl _
      | some src =>
          have begins := begins width height
          have returns
              : s.publisher.beginWrite width height (s.clock 0)
                = ((s.beginWrite width height).1.publisher, (s.beginWrite width height).2) :=
            rfl
          dsimp only [PublisherCall.onWords, TimedPublisher.publish]
          generalize s.beginWrite width height = outcome at begins returns ⊢
          obtain ⟨begun, pointer⟩ := outcome
          dsimp only at begins returns ⊢
          cases pointer with
          | false => exact begins
          | true =>
              obtain ⟨-, impl, -⟩ := Publisher.beginWrite_pointer returns
              rw [if_pos rfl]
              refine (begins.trans (reaches_copyRows ?_ src _
                (hosting.copies_inside returns unwrapped srcStride))).trans
                (reaches_commit { begun with publisher := _ } 0)
              rw [impl]

/-- Every action keeps what is known of the segment, by cases on it. -/
theorem Hosting.step (hosting : Hosting p) (action : PublisherAction)
    (stepped : p.step action = some q)
    (own : ∀ gen beat down up, action ≠ .subscribers gen beat down up)
    : Hosts p q := by
  cases action with
  | subscribers gen beat down up => exact absurd rfl (own gen beat down up)
  | beginWrite width height now =>
      obtain rfl := Option.some.inj stepped
      exact hosting.beginWrite width height now
  | cancelWrite =>
      obtain rfl := Option.some.inj stepped
      exact hosting.cancelWrite
  | commit timestamp now published =>
      obtain rfl := Option.some.inj stepped
      exact hosting.commit timestamp now published
  | heartbeat now | setMaxPublish intervalNs =>
      obtain rfl := Option.some.inj stepped
      exact hosting.kept rfl rfl rfl hosting.pending hosting.selected
  | storeByte offset byte =>
      have stored : p.storeByte offset byte = some q := stepped
      unfold Publisher.storeByte at stored
      split at stored
      · split at stored
        · obtain rfl := Option.some.inj stored
          exact hosting.kept rfl rfl rfl hosting.pending hosting.selected
        · cases stored
      · cases stored

/-- So do any number of them, by induction on the actions. -/
theorem Reaches.hosts (reaches : Reaches p q) (hosting : Hosting p) : Hosts p q := by
  obtain ⟨actions, reached, own⟩ := reaches
  induction actions generalizing p with
  | nil =>
      obtain rfl := Option.some.inj reached
      exact hosting.same
  | cons action rest ih =>
      obtain ⟨middle, stepped, onward⟩ := Machine.run_cons_eq_some.mp reached
      have first := hosting.step _ stepped (own _ List.mem_cons_self)
      exact first.trans
        (ih first.hosting onward fun other member => own other (List.mem_cons_of_mem _ member))

/-- Sending and receiving keep it, too. -/
theorem Hosting.send (hosting : Hosting p) (request : PushCall) (now : UInt64)
    : Hosts p (p.send request now).1 := by
  unfold Publisher.send
  dsimp only
  split
  · exact hosting.kept rfl rfl rfl hosting.pending hosting.selected
  · exact hosting.kept rfl rfl rfl hosting.pending hosting.selected

theorem Hosting.receive (hosting : Hosting p) : Hosts p p.receive.1 := by
  unfold Publisher.receive
  dsimp only
  split
  · exact hosting.same
  · exact hosting.kept rfl rfl rfl hosting.pending hosting.selected

/-- And so does the destructor. -/
theorem Hosting.shutdown (hosting : Hosting p) : Hosts p p.shutdown :=
  hosting.kept rfl rfl rfl hosting.pending hosting.selected

end Speaking

-----------------------------------------------------------------------------------------
-- What holds between the calls on words
-----------------------------------------------------------------------------------------

/-- The publisher and all subscribers know the segment. -/
structure Conversing (cfg : LLConfig) (c : Conversation) : Prop where
  cfg : c.publisher.impl.cfg = cfg
  hosting : Hosting c.publisher
  seated
    : ∀ who m g, c.present who = some m → m.hdr = some g → g = 0 ∧ Seat c.publisher.segment 0 m

section Conversations

variable {cfg : LLConfig} {c next : Conversation} {who : Nat} {m : LLSubscriber.Impl}

/-- The publisher's calls keep this. -/
theorem Conversing.publisher {c next : Conversation} (conversing : Conversing cfg c)
    (hosts : Hosts c.publisher next.publisher) (same : next.subscribers = c.subscribers)
    : Conversing cfg next where
  cfg := hosts.cfg.trans conversing.cfg
  hosting := hosts.hosting
  seated := fun who m g there attached => by
    rw [Conversation.present, same] at there
    obtain ⟨here, seat⟩ := conversing.seated who m g there attached
    exact ⟨here, seat.kept hosts.size hosts.config⟩

/-- What a subscriber works on is known to it. -/
theorem Conversing.view (conversing : Conversing cfg c) (there : c.present who = some m)
    (clock : Nat → UInt64)
    : Seated (c.view m clock).world (c.view m clock).impl := by
  intro g attached
  obtain ⟨rfl, seat⟩ := conversing.seated who m g there attached
  exact seat

/-- What a subscriber's call has stored concerns nothing that is known of the segment. -/
theorem Conversing.stored {clock : Nat → UInt64} {s : Subscriber}
    (conversing : Conversing cfg c) (onward : Calls.Onward (c.view m clock) s)
    : Hosts c.publisher (c.stored s).publisher := by
  have hosting := conversing.hosting
  refine hosting.kept (onward.size 0) ?_ rfl hosting.pending hosting.selected
  change (s.world.segments 0).header.config = _
  rw [onward.header 0]
  rfl

/-- A subscriber that was there before knows the segment as it is then. -/
theorem Conversing.later {p : Publisher} (conversing : Conversing cfg c)
    (hosts : Hosts c.publisher p) (there : c.present who = some m) {g : Nat}
    (attached : m.hdr = some g)
    : g = 0 ∧ Seat p.segment 0 m := by
  obtain ⟨here, seat⟩ := conversing.seated who m g there attached
  exact ⟨here, seat.kept hosts.size hosts.config⟩

/-- The one that has made a call knows it, too. -/
theorem Conversing.caller {clock : Nat → UInt64} {s : Subscriber}
    (seats : Calls.Seats (c.view m clock) s) (seated : Seated (c.view m clock).world m)
    (anchored : ∀ g, m.hdr = some g → g = 0) {g : Nat} (attached : s.impl.hdr = some g)
    : g = 0 ∧ Seat (c.stored s).publisher.segment 0 s.impl := by
  have here : g = 0 := by
    rcases seats.attached g attached with before | bound
    · exact anchored g before
    · have bound : (if c.gone then none else some 0) = some g := bound
      split at bound
      · cases bound
      · exact (Option.some.inj bound).symm
  subst here
  exact ⟨rfl, seats.seated seated 0 attached⟩

/-- Nothing but the history is concerned. -/
theorem noted_history (c : Conversation) (who : Nat) (answer : Answer)
    : ∃ requests deliveries, noted c who answer = { c with requests, deliveries } := by
  unfold noted
  split <;> exact ⟨_, _, rfl⟩

theorem Conversing.noted (conversing : Conversing cfg c) (who : Nat) (answer : Answer)
    : Conversing cfg (Accesses.noted c who answer) := by
  obtain ⟨requests, deliveries, same⟩ := noted_history c who answer
  rw [same]
  exact conversing.publisher conversing.hosting.same rfl

/-- Every call keeps what is known, by cases on it. -/
theorem Speaks.keeps {event : Event} (speaks : Speaks c event next)
    (unwrapped : event.Unwrapped cfg) (conversing : Conversing cfg c)
    : Conversing cfg next := by
  have hosting := conversing.hosting
  cases speaks with
  | open_ name system clock =>
      have seats := Calls.seats_openSubscriber name system (c.view {} clock)
      have hosts := conversing.stored seats.toOnward
      refine ⟨hosts.cfg.trans conversing.cfg, hosts.hosting, fun who m g there attached => ?_⟩
      rw [Conversation.present_opened] at there
      split at there
      · obtain rfl := Option.some.inj there
        exact Conversing.caller seats nofun nofun attached
      · exact conversing.later hosts there attached
  | @ask who m outcome there ask systems clock returns =>
      have seats := seats_ask systems ask (c.view m clock)
      rw [returns] at seats
      have hosts := conversing.stored seats.toOnward
      have after : Conversing cfg (c.after who outcome.2) := by
        refine ⟨hosts.cfg.trans conversing.cfg, hosts.hosting, fun other n g here attached => ?_⟩
        rw [Conversation.present_after there] at here
        split at here
        · obtain rfl := Option.some.inj here
          exact Conversing.caller seats (conversing.view there clock)
            (fun g attached => (conversing.seated who m g there attached).1) attached
        · exact conversing.later hosts here attached
      exact after.noted who outcome.1
  | @close who m there =>
      have refreshes := Calls.refreshes_close (c.view m fun _ => 0)
      have hosts := conversing.stored refreshes.toOnward
      refine ⟨hosts.cfg.trans conversing.cfg, hosts.hosting, fun other n g here attached => ?_⟩
      rw [Conversation.present_closed] at here
      split at here
      · cases here
      · exact conversing.later hosts here attached
  | frame here call clock returns =>
      subst returns
      have unwrapped : call.Unwrapped c.publisher.impl.cfg := conversing.cfg ▸ unwrapped
      exact conversing.publisher
        ((reaches_frame (s := { publisher := c.publisher, clock }) hosting call unwrapped).hosts
          hosting)
        rfl
  | storeByte here stored =>
      exact conversing.publisher (hosting.step (.storeByte _ _) stored nofun) rfl
  | heartbeat here now =>
      exact conversing.publisher (hosting.step (.heartbeat now) rfl nofun) rfl
  | publisherSend here refers request now returns =>
      subst returns
      exact conversing.publisher (hosting.send _ now) rfl
  | publisherReceive here returns =>
      subst returns
      exact conversing.publisher hosting.receive rfl
  | publisherClose here => exact conversing.publisher hosting.shutdown rfl

/-- A single action of the conversation. -/
theorem run_action (action : Calls.ConversationAction) (stepped : c.step action = some next)
    : ∃ schedule, conversationMachine.run c schedule = some next :=
  ⟨[action], Machine.run_cons_eq_some.mpr ⟨next, stepped, rfl⟩⟩

/-- A call of a subscriber is one of the conversation, by cases on it. -/
theorem ask_run {answer : Answer} {s : Subscriber} (there : c.present who = some m) (ask : Ask)
    (systems : Circumstances × Circumstances) (clock : Nat → UInt64)
    (returns : (ask.onWords systems).run (c.view m clock) = (answer, s))
    : ∃ schedule,
        conversationMachine.run c schedule = some (Accesses.noted (c.after who s) who answer) := by
  have plain (call : Calls.PlainCall) (same : (call.perform.run (c.view m clock)).2 = s)
      (silent : Accesses.noted (c.after who s) who answer = c.after who s)
      : ∃ schedule,
          conversationMachine.run c schedule
          = some (Accesses.noted (c.after who s) who answer) := by
    refine run_action (.call who call clock) ?_
    rw [silent, ← same]
    exact congrArg (Option.map _) there
  cases ask with
  | poll =>
      cases returns
      exact plain (.poll systems.1) rfl rfl
  | readLatest dst info =>
      cases returns
      exact plain (.readLatest systems.1 dst info) rfl rfl
  | readLatestVector dst info =>
      cases returns
      exact plain (.readLatestVector systems.1 systems.2 dst info) rfl rfl
  | setStaleTimeoutMs ms =>
      cases returns
      exact plain (.setStaleTimeoutMs ms) rfl rfl
  | setMaxRead intervalNs =>
      cases returns
      exact plain (.setMaxRead intervalNs) rfl rfl
  | send request =>
      cases sent : (Calls.send request).run (c.view m clock) with
      | mk id after =>
          have result : (Answer.sent id, after) = (answer, s) := by
            rw [← returns]
            change _ = (Answer.sent ((Calls.send request).run (c.view m clock)).1,
              ((Calls.send request).run (c.view m clock)).2)
            rw [sent]
          cases result
          refine run_action (.send who request clock) ?_
          refine (congrArg (Option.map _) there).trans ?_
          rw [Option.map_some, sent]
          cases id <;> rfl
  | receive =>
      cases received : Calls.receive.run (c.view m clock) with
      | mk command after =>
          have result : (Answer.received command, after) = (answer, s) := by
            rw [← returns]
            change _ = (Answer.received (Calls.receive.run (c.view m clock)).1,
              (Calls.receive.run (c.view m clock)).2)
            rw [received]
          cases result
          refine run_action (.receive who clock) ?_
          refine (congrArg (Option.map _) there).trans ?_
          rw [Option.map_some, received]
          cases command <;> rfl

/-- Every call on words is made of actions of the conversation, by cases on it. -/
theorem Speaks.run {event : Event} (speaks : Speaks c event next)
    (unwrapped : event.Unwrapped cfg) (conversing : Conversing cfg c)
    : ∃ schedule, conversationMachine.run c schedule = some next := by
  have hosting := conversing.hosting
  cases speaks with
  | open_ name system clock => exact run_action (.open_ name system clock) rfl
  | @ask who m outcome there ask systems clock returns =>
      exact ask_run there ask systems clock returns
  | @close who m there =>
      exact run_action (.close who) (congrArg (Option.map _) there)
  | frame here call clock returns =>
      subst returns
      have unwrapped : call.Unwrapped c.publisher.impl.cfg := conversing.cfg ▸ unwrapped
      exact (reaches_frame (s := { publisher := c.publisher, clock }) hosting call unwrapped).run
        here
  | storeByte here stored =>
      exact (Reaches.step (.storeByte _ _) stored nofun).run here
  | heartbeat here now =>
      exact (Reaches.step (.heartbeat now) rfl nofun).run here
  | @publisherSend answering replyTo sent here refers request now returns =>
      subst returns
      refine run_action (.publisherSend answering request now) ?_
      refine (if_neg (by simp [here])).trans ((congrArg (Option.map _) refers).trans ?_)
      refine congrArg some ?_
      dsimp only
      cases accepted : (c.publisher.send { request with replyTo } now).2 with
      | none => simp
      | some id => simp
  | publisherReceive here returns =>
      subst returns
      refine run_action .publisherReceive ?_
      refine (if_neg (by simp [here])).trans (congrArg some ?_)
      cases got : c.publisher.receive.2 with
      | none => simp
      | some command => simp
  | publisherClose here =>
      exact run_action .publisherClose (if_neg (by simp [here]))

end Conversations

end ShmFrame.Accesses
