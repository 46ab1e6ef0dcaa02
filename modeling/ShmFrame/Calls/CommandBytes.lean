import ShmFrame.Calls.Replies

/-! What a delivered command depends on: the arguments of `send` and `send_text` on both
endpoints, against whatever earlier commands have left in the cells of the ring.
-/

namespace ShmFrame.Calls

open ShmFrame.Commands ShmFrame.Foundation Call

-----------------------------------------------------------------------------------------
-- Sending text
-----------------------------------------------------------------------------------------

/-- What `send_text` passes on to `send`; the length of the text is cut to 32 bits. -/
def textRequest (type : UInt32) (text : List UInt8) (replyTo : UInt64) : PushCall where
  type := type
  data := some fun index => text.getD index 0
  size := UInt32.ofNat text.length
  replyTo := replyTo

/-- `LLPublisher::send_text`. -/
def Publisher.sendText (p : Publisher) (type : UInt32) (text : List UInt8) (replyTo : UInt64)
    (now : UInt64)
    : Publisher × Option UInt64 :=
  p.send (textRequest type text replyTo) now

/-- `LLSubscriber::send_text`. -/
def sendText (type : UInt32) (text : List UInt8) (replyTo : UInt64) : Call (Option UInt64) :=
  send (textRequest type text replyTo)

-----------------------------------------------------------------------------------------
-- Both endpoints
-----------------------------------------------------------------------------------------

/-- Which endpoint sends. -/
inductive Endpoint
  | publisher
  | subscriber

/-- The ring an endpoint sends on. -/
def Endpoint.ring (e : Endpoint) (cfg : LLConfig) : LLRing :=
  match e with
  | .publisher => cfg.downstreamRing
  | .subscriber => cfg.upstreamRing

/-- The arguments of a call of `send`, none for a null pointer, or of `send_text`. -/
inductive SendArgs
  | send (type : UInt32) (data : Option (Nat → UInt8)) (size : UInt32) (replyTo : UInt64)
  | sendText (type : UInt32) (text : List UInt8) (replyTo : UInt64)

namespace SendArgs

/-- What either call hands to `push`, but for the id and the time. -/
def request : SendArgs → PushCall
  | .send type data size replyTo => { type, data, size, replyTo }
  | .sendText type text replyTo => textRequest type text replyTo

/-- The call of `push` that is made. -/
def call (args : SendArgs) (id now : UInt64) : PushCall :=
  { args.request with id, timestampNs := now }

/-- The bytes that are passed; a null pointer passes none. -/
def passed : SendArgs → List UInt8
  | .send _ none _ _ => []
  | .send _ (some source) size _ => (List.range size.toNat).map source
  | .sendText _ text _ => text

/-- The length that is passed. -/
def length : SendArgs → Nat
  | .send _ _ size _ => size.toNat
  | .sendText _ text _ => text.length

/-- The command that the arguments describe. -/
def command (args : SendArgs) (id now : UInt64) : LLShmCommand where
  id := id
  replyTo := args.request.replyTo
  timestampNs := now
  type := args.request.type
  data := args.passed

end SendArgs

/-- A call of the publisher. -/
def Publisher.sends (p : Publisher) (args : SendArgs) (now : UInt64)
    : Publisher × Option UInt64 :=
  match args with
  | .send type data size replyTo => p.send { type, data, size, replyTo } now
  | .sendText type text replyTo => p.sendText type text replyTo now

/-- A call of a subscriber. -/
def sends (args : SendArgs) : Call (Option UInt64) :=
  match args with
  | .send type data size replyTo => send { type, data, size, replyTo }
  | .sendText type text replyTo => sendText type text replyTo

/-- A call of an endpoint is accepted under an id at a time: the ring it sends on before and
after the call. A subscriber reads the clock once before that, to refresh its claim.
-/
inductive Sends (cfg : LLConfig) (args : SendArgs) (id now : UInt64)
    : Endpoint → RingData → RingData → Prop
  | publisher {p next : Publisher} (config : p.impl.cfg = cfg)
    (accepted : p.sends args now = (next, some id))
    : Sends cfg args id now .publisher p.segment.down next.segment.down
  | subscriber {s next : Subscriber} (attached : s.impl.hdr = some 0)
    (handle : s.impl.tx = cfg.upstreamRing) (time : s.clock 1 = now)
    (accepted : (Calls.sends args).run s = (some id, next))
    : Sends cfg args id now .subscriber (s.world.segments 0).up (next.world.segments 0).up

/-- A call of `receive` on the other side hands out a command of the ring an endpoint sends
on.
-/
inductive Receives (cfg : LLConfig) : Endpoint → RingData → LLShmCommand → Prop
  | subscriber {s next : Subscriber} {command : LLShmCommand} (attached : s.impl.hdr = some 0)
    (handle : s.impl.rx = cfg.downstreamRing)
    (taken : Calls.receive.run s = (some command, next))
    : Receives cfg .publisher (s.world.segments 0).down command
  | publisher {p next : Publisher} {command : LLShmCommand} (config : p.impl.cfg = cfg)
    (taken : p.receive = (next, some command))
    : Receives cfg .subscriber p.segment.up command

section Endpoints

variable {cfg : LLConfig} {args : SendArgs} {id now : UInt64}

/-- On both endpoints the two calls differ in the request only. -/
theorem Publisher.sends_eq (p : Publisher) (args : SendArgs) (now : UInt64)
    : p.sends args now = p.send args.request now := by
  cases args <;> rfl

theorem sends_eq (args : SendArgs) : sends args = send args.request := by
  cases args <;> rfl

/-- The ring an accepted call of the publisher leaves. -/
theorem Publisher.send_accepted {p next : Publisher} {request : PushCall}
    : p.send request now = (next, some id) → p.impl.nextCmd = id
      ∧ push p.impl.cfg.downstreamRing p.segment.down
          { request with id := p.impl.nextCmd, timestampNs := now }
        = (next.segment.down, true) := by
  intro accepted
  simp only [Publisher.send] at accepted
  split at accepted
  · rename_i yes
    obtain ⟨rfl, same⟩ := Prod.mk.inj accepted
    exact ⟨Option.some.inj same, Prod.ext rfl yes⟩
  · cases accepted

/-- A subscriber that has passed the check of its claim: the rings are as before, and one
reading of the clock was taken.
-/
structure Passed (s owner : Subscriber) : Prop where
  impl : owner.impl = s.impl
  up : (owner.world.segments 0).up = (s.world.segments 0).up
  down : (owner.world.segments 0).down = (s.world.segments 0).down
  reading : owner.clock 0 = s.clock 1

/-- The claim of a subscriber still stands in the header. -/
def Claimed (s : Subscriber) : Prop :=
  s.impl.ownsCommands = true ∧ s.impl.ownerGen = (s.world.segments 0).token

/-- What only the owner of the channel does. -/
def asOwner {Value : Type} (rest : Nat → Call (Option Value)) : Call (Option Value) := do
  let m ← impl
  let some g := m.hdr | return none
  if !(← stillOwnsCommands g) then return none
  rest g

/-- With a claim that still stands it is done, otherwise nothing is. -/
theorem asOwner_cases {Value : Type} {s : Subscriber} (attached : s.impl.hdr = some 0)
    (rest : Nat → Call (Option Value))
    : (∃ owner, Claimed s ∧ Passed s owner ∧ (asOwner rest).run s = (rest 0).run owner)
      ∨ ¬ Claimed s ∧ ((asOwner rest).run s).1 = none := by
  have checked := stillOwnsCommands_checked 0 s
  rw [asOwner, Call.run_bind, Call.run_impl, attached]
  dsimp only
  rw [Call.run_bind]
  generalize (stillOwnsCommands 0).run s = result at checked
  cases checked with
  | stranger lost => exact Or.inr ⟨lost, rfl⟩
  | @owner owner owns token refreshed =>
      have segment := (nowNs.run s).2.world.setSegment_same 0
      refine Or.inl ⟨owner, ⟨owns, token⟩, ?_, rfl⟩
      subst refreshed
      exact ⟨rfl, congrArg (·.up) (segment _), congrArg (·.down) (segment _), rfl⟩

/-- A call that is accepted is a `push` that is. -/
theorem Sends.pushed {e : Endpoint} {d after : RingData} (sends : Sends cfg args id now e d after)
    : push (e.ring cfg) d (args.call id now) = (after, true) := by
  cases sends with
  | publisher config accepted =>
      rw [Publisher.sends_eq] at accepted
      obtain ⟨rfl, pushed⟩ := Publisher.send_accepted accepted
      rwa [config] at pushed
  | @subscriber s next attached handle time accepted =>
      rw [sends_eq] at accepted
      change (asOwner (sendOwned · args.request)).run s = _ at accepted
      rcases asOwner_cases attached (sendOwned · args.request) with
        ⟨owner, -, passed, run⟩ | ⟨-, refused⟩
      · rw [run, sendOwned_run, passed.impl, handle, passed.up, passed.reading, time] at accepted
        dsimp only at accepted
        split at accepted
        · rename_i yes
          obtain ⟨same, rfl⟩ := Prod.mk.inj accepted
          obtain rfl := Option.some.inj same
          refine Prod.ext ?_ yes
          exact (congrArg (·.up) (Subscriber.withUp_segment (nowNs.run owner).2 _)).symm
        · cases accepted
      · rw [accepted] at refused
        cases refused

/-- Either endpoint can make any `push` that is accepted. -/
theorem Sends.of_pushed {e : Endpoint} {d after : RingData}
    (pushed : push (e.ring cfg) d (args.call id now) = (after, true))
    : Sends cfg args id now e d after := by
  cases e with
  | publisher =>
      obtain ⟨p, config, number, down⟩
          : ∃ p : Publisher, p.impl.cfg = cfg ∧ p.impl.nextCmd = id ∧ p.segment.down = d :=
        ⟨{ impl := { cfg, nextCmd := id }, segment := { down := d } }, rfl, rfl, rfl⟩
      subst down
      have accepted : p.sends args now
          = ({
              impl := { p.impl with nextCmd := p.impl.nextCmd + 1, sent := p.impl.sent + 1 }
              segment := { p.segment with down := after }
            }, some id) := by
        rw [Publisher.sends_eq, Publisher.send, config, number]
        simp only [Endpoint.ring, SendArgs.call] at pushed
        simp only [pushed, if_true]
      exact .publisher config accepted
  | subscriber =>
      obtain ⟨s, attached, handle, owns, number, up, time⟩
          : ∃ s : Subscriber,
              s.impl.hdr = some 0
              ∧ s.impl.tx = cfg.upstreamRing
              ∧ Claimed s
              ∧ s.impl.nextCmd = id
              ∧ (s.world.segments 0).up = d
              ∧ s.clock 1 = now :=
        ⟨{
            impl := {
              hdr := some 0
              tx := cfg.upstreamRing
              ownsCommands := true
              nextCmd := id
            }
            world := { segments := fun _ => { up := d }, bound := none }
            clock := fun _ => now
          }, rfl, rfl, ⟨rfl, rfl⟩, rfl, rfl, rfl⟩
      subst up
      obtain ⟨owner, -, passed, run⟩ :=
        (asOwner_cases attached (sendOwned · args.request)).resolve_right fun lost => lost.1 owns
      have result := sendOwned_run args.request owner
      simp only [Endpoint.ring, SendArgs.call] at pushed
      simp only [passed.impl, handle, passed.up, passed.reading, time, number, pushed, if_true]
        at result
      have accepted := (congrArg (StateT.run · s) (sends_eq args)).trans (run.trans result)
      have stored : (((nowNs.run owner).2.withUp after).world.segments 0).up = after :=
        congrArg (·.up) (Subscriber.withUp_segment ..)
      have sent : Sends cfg _ _ _ _ _ _ := .subscriber attached handle time accepted
      rw [← stored]
      exact sent

/-- A command that is handed out is one that `pop` returns. -/
theorem Receives.popped {e : Endpoint} {d : RingData} {command : LLShmCommand}
    (receives : Receives cfg e d command)
    : (pop (e.ring cfg) d).2 = some command := by
  cases receives with
  | @publisher p next _ config taken =>
      rw [Publisher.receive, config] at taken
      dsimp only at taken
      split at taken
      · cases taken
      · rename_i got
        rw [Endpoint.ring, got]
        exact congrArg Prod.snd taken
  | @subscriber s next _ attached handle taken =>
      change (asOwner receiveOwned).run s = _ at taken
      rcases asOwner_cases attached receiveOwned with ⟨owner, -, passed, run⟩ | ⟨-, refused⟩
      · rw [run, receiveOwned_run, passed.impl, handle, passed.down] at taken
        dsimp only at taken
        split at taken
        · cases taken
        · rename_i got
          rw [Endpoint.ring, got]
          exact congrArg Prod.fst taken
      · rw [taken] at refused
        cases refused

/-- The other side can always receive what `pop` returns. -/
theorem Receives.of_popped {e : Endpoint} {d : RingData} {command : LLShmCommand}
    (popped : (pop (e.ring cfg) d).2 = some command)
    : Receives cfg e d command := by
  cases e with
  | subscriber =>
      obtain ⟨p, config, up⟩ : ∃ p : Publisher, p.impl.cfg = cfg ∧ p.segment.up = d :=
        ⟨{ impl := { cfg }, segment := { up := d } }, rfl, rfl⟩
      subst up
      have taken : p.receive.2 = some command := by
        rw [Endpoint.ring] at popped
        simp only [Publisher.receive, config, popped]
      exact .publisher config (Prod.ext rfl taken)
  | publisher =>
      obtain ⟨s, attached, handle, owns, down⟩
          : ∃ s : Subscriber,
              s.impl.hdr = some 0
              ∧ s.impl.rx = cfg.downstreamRing
              ∧ Claimed s
              ∧ (s.world.segments 0).down = d :=
        ⟨{
            impl := { hdr := some 0, rx := cfg.downstreamRing, ownsCommands := true }
            world := { segments := fun _ => { down := d }, bound := none }
            clock := fun _ => 0
          }, rfl, rfl, ⟨rfl, rfl⟩, rfl⟩
      subst down
      obtain ⟨owner, -, passed, run⟩ :=
        (asOwner_cases attached receiveOwned).resolve_right fun lost => lost.1 owns
      have taken : ((receiveOwned 0).run owner).1 = some command := by
        rw [Endpoint.ring] at popped
        rw [receiveOwned_run, passed.impl, handle, passed.down]
        simp only [popped]
      exact .subscriber attached handle (Prod.ext ((congrArg Prod.fst run).trans taken) rfl)

end Endpoints

-----------------------------------------------------------------------------------------
-- What is delivered
-----------------------------------------------------------------------------------------

/-- The cell a `push` fills carries the command of the call, over what was there before. -/
theorem fill_command (call : PushCall) (cell : Cell)
    : (call.fill cell).command = call.command cell.payload := by
  simp only [Cell.command, Popper.assemble, PushCall.fill, PushCall.header, PushCall.command,
    LLShmCommand.mk.injEq, true_and]
  cases call.data with
  | none => rfl
  | some source =>
      refine List.map_congr_left fun index member => ?_
      exact if_pos (List.mem_range.mp member)

section Ring

variable {ring : LLRing} {bits : Nat} {start : UInt64} {d after : RingData} {call : PushCall}

/-- A `push` that is accepted fits, finds room, and appends the command of the call over what
some cell held.
-/
theorem push_accepted (inv : RingInv ring start d) (mapped : Mapped ring bits)
    (pushed : push ring d call = (after, true))
    : call.size ≤ ring.maxBytes
      ∧ RingInv ring start after
      ∧ KeepsOldest ring start d after
      ∧ ∃ area, after.queue = d.queue.push (call.command area) := by
  obtain ⟨_, kept, -⟩ := inv.of_push mapped pushed
  obtain ⟨fits, room⟩ := ConversationInv.admits_of_push (congrArg Prod.snd pushed)
  have free : d.queue.unread < ring.slots.toNat := by
    have less := UInt64.lt_iff_toNat_lt.mp room
    rwa [inv.distance, UInt32.toNat_toUInt64] at less
  have stored := inv.store_keepsOldest mapped free (call.fill (d.cells (ring.cellOf d.head)))
  rw [← inv.head] at stored
  rw [push, if_neg (by simp [mapped.valid, UInt32.not_lt.mpr fits]),
    if_neg (UInt64.not_le.mpr room)] at pushed
  obtain rfl := (Prod.mk.inj pushed).1
  refine ⟨fits, kept, ⟨rfl, by simp [Fifo.push], stored.cell⟩,
    (d.cells (ring.cellOf d.head)).payload, ?_⟩
  exact congrArg d.queue.push (fill_command call _)

/-- No access of the producer takes an accepted command back. -/
theorem Pusher.access_accepted {p next : Pusher}
    (stepped : p.access ring d = some (after, next))
    : d.queue.accepted <+: after.queue.accepted := by
  unfold Commands.Pusher.access at stepped
  split at stepped
  all_goals (try dsimp only at stepped)
  all_goals (try split at stepped)
  all_goals cases stepped
  all_goals first | exact List.prefix_rfl | exact List.prefix_append _ _

/-- No access of the consumer does. -/
theorem Popper.access_accepted {p next : Popper}
    (stepped : p.access ring d = some (after, next))
    : after.queue.accepted = d.queue.accepted := by
  unfold Commands.Popper.access at stepped
  split at stepped
  all_goals (try dsimp only at stepped)
  all_goals (try split at stepped)
  all_goals cases stepped
  all_goals rfl

end Ring

/-- Nor does any other step on the ring. -/
theorem ring_accepted {s next : RingState} {action : RingAction}
    (stepped : ringMachine.step s action = some next)
    : s.data.queue.accepted <+: next.data.queue.accepted := by
  cases action with
  | push call | pending tailFirst | pop =>
      simp only [ringMachine, RingState.step] at stepped
      split at stepped
      · cases stepped
        exact List.prefix_rfl
      · cases stepped
  | pushAccess =>
      obtain ⟨⟨d, p⟩, moved, rfl⟩ := Option.map_eq_some_iff.mp stepped
      exact Pusher.access_accepted moved
  | pushByte index =>
      obtain ⟨⟨d, p⟩, moved, rfl⟩ := Option.map_eq_some_iff.mp stepped
      unfold Commands.Pusher.copyByte at moved
      split at moved
      · split at moved
        · cases moved
          exact List.prefix_rfl
        · cases moved
      · cases moved
  | popAccess =>
      obtain ⟨⟨d, p⟩, moved, rfl⟩ := Option.map_eq_some_iff.mp stepped
      exact (Popper.access_accepted moved) ▸ List.prefix_rfl
  | popByte index =>
      obtain ⟨p, moved, rfl⟩ := Option.map_eq_some_iff.mp stepped
      exact List.prefix_rfl

-----------------------------------------------------------------------------------------
-- Histories
-----------------------------------------------------------------------------------------

/-- The command that the other side receives for a call that is accepted under an id at a time:
the ring has any history, with its consumer at any point of a `pop`; then the call is made, and
after any further history in which all earlier commands have been received, the next one is.
-/
inductive Delivers (cfg : LLConfig) (e : Endpoint) (args : SendArgs) (id now : UInt64)
    : LLShmCommand → Prop
  | received {start : UInt64} {cells : Nat → Cell} {before after : List RingAction}
    {s f : RingState} {d : RingData} {command : LLShmCommand}
    (history : ringMachine.run (.create (e.ring cfg) start cells) before = some s)
    (between : s.pusher.phase = .idle) (sends : Sends cfg args id now e s.data d)
    (later : ringMachine.run { s with data := d } after = some f)
    (turn : f.data.queue.popped.length = s.data.queue.accepted.length)
    (receives : Receives cfg e f.data command)
    : Delivers cfg e args id now command

/-- What a call promises: whatever was sent before, the same command is delivered, with exactly
the bytes that were passed, and what does not fit is refused.
-/
structure SendDecides (cfg : LLConfig) (e : Endpoint) (args : SendArgs) : Prop where
  same
    : ∀ id now first second,
        Delivers cfg e args id now first → Delivers cfg e args id now second → first = second
  exact_ : ∀ id now command, Delivers cfg e args id now command → command = args.command id now
  refused
    : (cfg.maxCommandBytes.toNat < args.length)
      → ∀ id now d after, ¬ Sends cfg args id now e d after

/-- The arguments for which it keeps the promise: there are bytes behind the pointer, or none
are asked for, or more than fit; and a text is not cut to a length that fits.
-/
def SendArgs.Safe (args : SendArgs) (maxBytes : UInt32) : Prop :=
  match args with
  | .send _ data size _ => data.isSome = true ∨ size = 0 ∨ maxBytes < size
  | .sendText _ text _ => text.length < 2 ^ 32 ∨ maxBytes.toNat < text.length % 2 ^ 32

instance safeDecidable (args : SendArgs) (maxBytes : UInt32) : Decidable (args.Safe maxBytes) :=
  match args with
  | .send .. => inferInstanceAs (Decidable (_ ∨ _ ∨ _))
  | .sendText .. => inferInstanceAs (Decidable (_ ∨ _))

section Promise

variable {cfg : LLConfig} {e : Endpoint} {args : SendArgs} {id now : UInt64}

/-- Both rings of a configuration take commands of the same size. -/
theorem Endpoint.ring_maxBytes (e : Endpoint) (cfg : LLConfig)
    : (e.ring cfg).maxBytes = cfg.maxCommandBytes := by
  cases e <;> rfl

/-- What is delivered is the command of the call over what some cell held. -/
theorem Delivers.over_cell {command : LLShmCommand} (accepted : cfg.accepted = true)
    (delivers : Delivers cfg e args id now command)
    : args.request.size ≤ cfg.maxCommandBytes
      ∧ ∃ area, command = (args.call id now).command area := by
  obtain ⟨bits, upstream, downstream⟩ := LLConfig.accepted_mapped accepted
  have mapped : Mapped (e.ring cfg) bits := by cases e <;> assumption
  obtain @⟨start, cells, before, after, s, f, d, _, history, between, sends, later, turn,
    receives⟩ := delivers
  have inv : RingStateInv (e.ring cfg) start s :=
    Machine.invariant_of_reached _ (fun _ _ _ inv stepped => inv.step mapped stepped)
      (.create cells) history
  obtain ⟨fits, ring, keeps, area, queue⟩ := push_accepted inv.data mapped sends.pushed
  have sent : RingStateInv (e.ring cfg) start { s with data := d } :=
    ⟨inv.handle, ring, inv.pusher.of_idle between, inv.popper.keep keeps⟩
  have last : RingStateInv (e.ring cfg) start f :=
    Machine.invariant_of_reached _ (fun _ _ _ inv stepped => inv.step mapped stepped) sent later
  have grown : d.queue.accepted <+: f.data.queue.accepted :=
    Machine.relation_of_run (fun _ _ => True)
      (fun s next : RingState => s.data.queue.accepted <+: next.data.queue.accepted)
      (fun _ => List.prefix_rfl) (fun _ _ _ => List.IsPrefix.trans)
      (fun _ _ _ _ stepped => ring_accepted stepped)
      (Machine.meets_of_forall (fun _ _ _ => True.intro) fun _ _ => True.intro) later
  obtain ⟨-, oldest, -⟩ := last.data.of_pop mapped (Prod.ext rfl receives.popped)
  refine ⟨e.ring_maxBytes cfg ▸ fits, area, ?_⟩
  have here : d.queue.accepted[s.data.queue.accepted.length]?
      = some ((args.call id now).command area) := by
    rw [queue]
    exact List.getElem?_concat_length
  obtain ⟨rest, extended⟩ := grown
  rw [turn, ← extended, List.getElem?_append_left (List.getElem?_eq_some_iff.mp here).1, here]
    at oldest
  exact (Option.some.inj oldest).symm

/-- Where the arguments are safe and fit, nothing of the cell is left in it. -/
theorem SendArgs.Safe.command_eq {maxBytes : UInt32} (safe : args.Safe maxBytes)
    (fits : args.request.size ≤ maxBytes) (area : Nat → UInt8)
    : (args.call id now).command area = args.command id now := by
  have data
      : (List.range args.request.size.toNat).map (args.request.data.getD area) = args.passed := by
    cases args with
    | send type data size replyTo =>
        cases data with
        | some source => rfl
        | none =>
            rcases safe with some_ | rfl | large
            · cases some_
            · rfl
            · exact absurd fits (UInt32.not_le.mpr large)
    | sendText type text replyTo =>
        have length : (UInt32.ofNat text.length).toNat = text.length % 2 ^ 32 :=
          UInt32.toNat_ofNat'
        have whole : text.length % 2 ^ 32 = text.length := by
          rcases safe with short | large
          · exact Nat.mod_eq_of_lt short
          · have cut : (UInt32.ofNat text.length).toNat ≤ maxBytes.toNat :=
              UInt32.le_iff_toNat_le.mp fits
            omega
        change (List.range (UInt32.ofNat text.length).toNat).map (text.getD · 0) = text
        rw [length, whole]
        refine List.ext_getElem (by simp) fun index inside _ => ?_
        simp at inside
        simp [inside]
  exact congrArg _ data

/-- The smallest history: the call is made on an empty ring, and received. -/
theorem delivers_on_empty (accepted : cfg.accepted = true) (e : Endpoint) (args : SendArgs)
    (id now : UInt64) (fits : args.request.size ≤ cfg.maxCommandBytes)
    : (∃ after, Sends cfg args id now e {} after)
      ∧ ∃ command, Delivers cfg e args id now command := by
  obtain ⟨bits, upstream, downstream⟩ := LLConfig.accepted_mapped accepted
  have mapped : Mapped (e.ring cfg) bits := by cases e <;> assumption
  have room : (0 : UInt64) - 0 < (e.ring cfg).slots.toUInt64 := by
    rw [UInt64.lt_iff_toNat_lt, UInt32.toNat_toUInt64, mapped.slots]
    exact Nat.two_pow_pos bits
  have admitted : (push (e.ring cfg) {} (args.call id now)).2 = true := by
    rw [push, if_neg (by simp [mapped.valid, e.ring_maxBytes, SendArgs.call, fits]),
      if_neg (UInt64.not_le.mpr room)]
  generalize result : push (e.ring cfg) {} (args.call id now) = outcome at admitted
  obtain ⟨after, yes⟩ := outcome
  obtain rfl : yes = true := admitted
  have sends : Sends cfg args id now e {} after := .of_pushed result
  refine ⟨⟨after, sends⟩, ?_⟩
  have empty : RingInv (e.ring cfg) 0 {} := .create _
  obtain ⟨-, inv, -, area, queue⟩ := push_accepted empty mapped result
  have popped := inv.pop_cases mapped
  generalize got : pop (e.ring cfg) after = outcome at popped
  cases popped with
  | empty none_ =>
      rw [queue] at none_
      cases none_
  | @taken next command =>
      let s : RingState := .create (e.ring cfg) 0 fun _ => {}
      have history : ringMachine.run (.create (e.ring cfg) 0 fun _ => {}) [] = some s := rfl
      have later : ringMachine.run { s with data := after } [] = some { s with data := after } :=
        rfl
      have turn : after.queue.popped.length = s.data.queue.accepted.length := by
        rw [queue]
        rfl
      exact ⟨command, .received history rfl sends later turn (.of_popped (congrArg Prod.snd got))⟩

/-- For every accepted configuration, both endpoints and all arguments: whatever was sent on
the ring before, the delivered command is exactly what was passed, and what does not fit is
refused, if and only if the arguments are safe.
-/
theorem send_decides_iff (accepted : cfg.accepted = true) (e : Endpoint) (args : SendArgs)
    : SendDecides cfg e args ↔ args.Safe cfg.maxCommandBytes := by
  constructor
  · intro decides
    by_contra exposed
    cases args with
    | send type data size replyTo =>
        simp only [SendArgs.Safe, not_or] at exposed
        obtain ⟨null, some_, fits⟩ := exposed
        obtain ⟨-, command, delivers⟩ :=
          delivers_on_empty accepted e (.send type data size replyTo) 0 0
            (UInt32.not_lt.mp fits)
        obtain rfl : data = none := by simpa using null
        have whole := congrArg (·.data.length) (decides.exact_ 0 0 command delivers)
        obtain ⟨-, area, rfl⟩ := delivers.over_cell accepted
        have none_ : size.toNat = 0 := by
          simpa [PushCall.command, SendArgs.call, SendArgs.request, SendArgs.command,
            SendArgs.passed] using whole
        exact some_ (UInt32.toNat_inj.mp none_)
    | sendText type text replyTo =>
        simp only [SendArgs.Safe, not_or, Nat.not_lt] at exposed
        obtain ⟨long, cut⟩ := exposed
        have range := cfg.maxCommandBytes.toNat_lt
        have fits : UInt32.ofNat text.length ≤ cfg.maxCommandBytes := by
          rw [UInt32.le_iff_toNat_le, UInt32.toNat_ofNat']
          exact cut
        obtain ⟨⟨after, sends⟩, -⟩ :=
          delivers_on_empty accepted e (.sendText type text replyTo) 0 0 fits
        exact decides.refused (by simp only [SendArgs.length]; omega) 0 0 _ _ sends
  · intro safe
    have exact_ (id now : UInt64) (command : LLShmCommand)
        (delivers : Delivers cfg e args id now command) : command = args.command id now := by
      obtain ⟨fits, area, rfl⟩ := delivers.over_cell accepted
      exact safe.command_eq fits area
    refine ⟨fun id now first second one two => ?_, exact_, fun long id now d after sent => ?_⟩
    · exact (exact_ id now first one).trans (exact_ id now second two).symm
    · have fits : args.request.size.toNat ≤ (e.ring cfg).maxBytes.toNat :=
        UInt32.le_iff_toNat_le.mp
          (ConversationInv.admits_of_push (congrArg Prod.snd sent.pushed)).1
      rw [e.ring_maxBytes] at fits
      cases args with
      | send => exact absurd long (Nat.not_lt.mpr fits)
      | sendText type text replyTo =>
          change (UInt32.ofNat text.length).toNat ≤ _ at fits
          simp only [SendArgs.length, SendArgs.Safe] at long safe
          rw [UInt32.toNat_ofNat'] at fits
          omega

/-- A short text is delivered as it is, whatever was sent before. -/
theorem send_decides_iff_hi
    : SendDecides {} .subscriber (.sendText 7 [104, 105] 0) :=
  (send_decides_iff (by decide +kernel) .subscriber (.sendText 7 [104, 105] 0)).mpr (by decide)

/-- The producer of a ring is between its calls. -/
def PushPhase.between : PushPhase → Bool
  | .idle => true
  | _ => false

/-- A history that passes a test, directly followed by the call, is a history of a delivery. -/
theorem delivers_of_test (start : UInt64) (cells : Nat → Cell) (before : List RingAction)
    {command : LLShmCommand}
    (passes
      : (ringMachine.run (.create (e.ring cfg) start cells) before).any
          (fun s =>
            let (after, yes) := push (e.ring cfg) s.data (args.call id now)
            PushPhase.between s.pusher.phase && yes
              && after.queue.popped.length = s.data.queue.accepted.length
              && (pop (e.ring cfg) after).2 = some command)
        = true)
    : Delivers cfg e args id now command := by
  obtain ⟨s, history, tested⟩ := Machine.reaches_of_any passes
  generalize pushed : push (e.ring cfg) s.data (args.call id now) = outcome at tested
  obtain ⟨after, yes⟩ := outcome
  simp only [Bool.and_eq_true, decide_eq_true_eq] at tested
  obtain ⟨⟨⟨between, rfl⟩, turn⟩, popped⟩ := tested
  have idle : s.pusher.phase = .idle := by
    cases phase : s.pusher.phase <;> simp [PushPhase.between, phase] at between ⊢
  have later : ringMachine.run { s with data := after } [] = some { s with data := after } := rfl
  exact .received history idle (.of_pushed pushed) later turn (.of_popped popped)

/-- One complete `push` of a command without bytes, and one complete `pop`. -/
def pushAndPopNothing : List RingAction :=
  .push { type := 4, id := 1, timestampNs := 6 } :: List.replicate 8 .pushAccess
  ++ .pop :: List.replicate 9 .popAccess

/-- With a null pointer and two bytes, the ring of one cell hands out what an earlier command
has left there, if there was one, and zeros otherwise.
-/
theorem send_leftovers
    : ¬ ∀ (cfg : LLConfig) (e : Endpoint) (args : SendArgs),
        cfg.accepted = true → SendDecides cfg e args := by
  intro claim
  let cfg : LLConfig := { commandSlots := 1 }
  let args : SendArgs := .send 7 none 2 0
  let leftover (data : List UInt8) : LLShmCommand :=
    { id := 2, timestampNs := 9, type := 7, data }
  have reused : Delivers cfg .publisher args 2 9 (leftover [8, 9]) :=
    delivers_of_test 0 (fun _ => {}) pushAndPop (by decide +kernel)
  have unused : Delivers cfg .publisher args 2 9 (leftover [0, 0]) :=
    delivers_of_test 0 (fun _ => {}) pushAndPopNothing (by decide +kernel)
  have decides := claim cfg .publisher args (by decide +kernel)
  have same := decides.same 2 9 _ _ reused unused
  exact absurd (congrArg (·.data) same) (by decide)

end Promise

end ShmFrame.Calls
