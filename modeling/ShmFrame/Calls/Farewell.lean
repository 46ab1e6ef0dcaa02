import ShmFrame.Calls.Conversation
import ShmFrame.Calls.Geometry
import ShmFrame.Calls.PublisherInvariant
import ShmFrame.Calls.Seated

/-! What subscribers read once the publisher has said goodbye: the last frame, if they do not
have it yet, and then that it is gone.
-/

namespace ShmFrame.Calls

open ShmFrame.Commands ShmFrame.Foundation Call

-----------------------------------------------------------------------------------------
-- The frame that is shown
-----------------------------------------------------------------------------------------

/-- The size of a frame that a subscriber accepts. -/
def FitSize (cfg : LLConfig) (slot : Slot) : Prop :=
  0 < slot.header.info.payloadBytes.toNat
  ∧ slot.header.info.payloadBytes.toNat ≤ cfg.maxPayload.toNat

/-- `latest` names a slot with the last frame, which is not the one that is written next. -/
structure Publisher.Shows (p : Publisher) (slot : UInt32) : Prop where
  named : p.segment.header.latest = packLatest p.impl.frameId slot
  inside : slot.toNat < p.impl.cfg.slotCount.toNat
  frame : (p.segment.slots slot.toNat).header.info.frameId = p.impl.frameId
  fit : FitSize p.impl.cfg (p.segment.slots slot.toNat)
  place : p.impl.pending = none → slot = p.impl.writeSlot
  apart : p.impl.pending.isSome → slot ≠ p.impl.writeSlot

/-- Nothing has been published, or the last frame is shown. -/
structure Presenting (cfg : LLConfig) (p : Publisher) : Prop where
  inv : PublisherInv cfg p
  shown : (p.segment.header.latest = 0 ∧ p.impl.frameId = 0) ∨ ∃ slot, p.Shows slot
  begun
    : p.impl.pending.isSome → FitSize p.impl.cfg (p.segment.slots p.impl.writeSlot.toNat)

/-- What `begin_write` is asked for is no more than a slot can hold, and no write is cancelled. -/
def PublisherAction.Proper (cfg : LLConfig) : PublisherAction → Prop
  | .beginWrite width height _ => cfg.exactBytes width height ≤ cfg.maxPayload.toNat
  | .cancelWrite => False
  | .storeByte .. | .commit .. | .heartbeat _ | .setMaxPublish _ | .subscribers .. => True

instance PublisherAction.properDecidable (cfg : LLConfig)
    : DecidablePred (PublisherAction.Proper cfg)
  | .beginWrite .. => inferInstanceAs (Decidable (_ ≤ _))
  | .cancelWrite => inferInstanceAs (Decidable False)
  | .storeByte .. | .commit .. | .heartbeat _ | .setMaxPublish _ | .subscribers .. =>
      inferInstanceAs (Decidable True)

namespace Presenting

variable {cfg : LLConfig} {p next : Publisher}

/-- At first there is nothing to show. -/
theorem create (bounds : cfg.FrameBounds) (session now : UInt64)
    : Presenting cfg (.create cfg session now) where
  inv := .create bounds session now
  shown := .inl ⟨rfl, rfl⟩
  begun := nofun

/-- What neither moves the rotation nor touches `latest` or a header. -/
theorem kept (presenting : Presenting cfg p) (inv : PublisherInv cfg next)
    (config : next.impl.cfg = p.impl.cfg) (pending : next.impl.pending = p.impl.pending)
    (selected : next.impl.writeSlot = p.impl.writeSlot)
    (frameId : next.impl.frameId = p.impl.frameId)
    (latest : next.segment.header.latest = p.segment.header.latest)
    (infos
      : ∀ index,
          (next.segment.slots index).header.info = (p.segment.slots index).header.info)
    : Presenting cfg next := by
  refine ⟨inv, ?_, ?_⟩
  · rw [latest, frameId]
    rcases presenting.shown with none_ | ⟨slot, shows_⟩
    · exact .inl none_
    refine .inr ⟨slot, ?_, ?_, ?_, ?_, ?_, ?_⟩
    · rw [latest, frameId]
      exact shows_.named
    · rw [config]
      exact shows_.inside
    · rw [infos, frameId]
      exact shows_.frame
    · rw [FitSize, infos, config]
      exact shows_.fit
    · rw [pending, selected]
      exact shows_.place
    · rw [pending, selected]
      exact shows_.apart
  · rw [pending, FitSize, selected, infos, config]
    exact presenting.begun

/-- The next slot is marked, which is another one than that of the last frame. -/
theorem beginWrite (presenting : Presenting cfg p) (bounds : cfg.FrameBounds)
    {width height : UInt32} {now : UInt64}
    (exact_ : cfg.exactBytes width height ≤ cfg.maxPayload.toNat)
    (returns : p.beginWrite width height now = (next, true))
    : Presenting cfg next := by
  have inv := presenting.inv.begun bounds returns
  obtain ⟨free, impl, alters, -, size, -⟩ := Publisher.beginWrite_pointer returns
  have config := presenting.inv.handle
  have few := bounds.slots
  have inside := presenting.inv.selected
  have upcoming : p.upcoming.toNat = (p.impl.writeSlot.toNat + 1) % cfg.slotCount.toNat := by
    rw [Publisher.upcoming, config]
    exact rotate_toNat bounds inside
  have moves (slot : UInt32) (here : slot = p.impl.writeSlot) : slot ≠ p.upcoming := by
    rintro rfl
    have same := congrArg UInt32.toNat here
    rw [upcoming] at same
    have rotated : (p.impl.writeSlot.toNat + 1) % cfg.slotCount.toNat ≠ p.impl.writeSlot.toNat := by
      rcases few with three | four
      · rw [three] at inside ⊢
        omega
      · rw [four] at inside ⊢
        omega
    exact rotated same
  refine ⟨inv, ?_, fun _ => ?_⟩
  · have latest : next.segment.header = p.segment.header := by rw [alters.rest]
    rw [latest, impl]
    rcases presenting.shown with none_ | ⟨slot, shows_⟩
    · exact .inl none_
    have elsewhere := moves slot (shows_.place free)
    have same : next.segment.slots slot.toNat = p.segment.slots slot.toNat :=
      alters.apart _ fun here => elsewhere (UInt32.toNat_inj.mp here)
    refine .inr ⟨slot, ?_, ?_, ?_, ?_, ?_, fun _ => ?_⟩
    · rw [latest, impl]
      exact shows_.named
    · rw [impl]
      exact shows_.inside
    · rw [same, impl]
      exact shows_.frame
    · rw [same, impl]
      exact shows_.fit
    · rw [impl]
      rintro ⟨⟩
    · rw [impl]
      exact elsewhere
  · have admitted : (p.beginWrite width height now).2 = true := by rw [returns]
    obtain ⟨-, wide, high, -⟩ := Publisher.beginWrite_returns.mp admitted
    have small := bounds.small
    have depth := bounds.depth
    have bytes : (LLPublisher.frameBytes cfg width height).toNat = cfg.exactBytes width height := by
      rw [frameBytes_toNat]
      exact Nat.mod_eq_of_lt (by omega)
    have positive : 0 < cfg.exactBytes width height :=
      Nat.mul_pos (Nat.mul_pos (Nat.pos_of_ne_zero fun zero => wide (UInt32.toNat_inj.mp zero))
        (Nat.pos_of_ne_zero fun zero => high (UInt32.toNat_inj.mp zero))) depth
    rw [impl]
    change FitSize p.impl.cfg (next.segment.slots p.upcoming.toNat)
    rw [FitSize, size, config, UInt64.toNat_toUInt32, bytes, Nat.mod_eq_of_lt (by omega)]
    exact ⟨positive, exact_⟩

/-- The frame that was being written is the last one, and it is shown. -/
theorem commit (presenting : Presenting cfg p) (bounds : cfg.FrameBounds)
    (timestamp now published : UInt64)
    : Presenting cfg (p.commit timestamp now published) := by
  have inv := presenting.inv.commit bounds timestamp now published
  have config := presenting.inv.handle
  have inside := presenting.inv.selected
  revert inv
  unfold Publisher.commit
  split
  · exact fun _ => presenting
  · rename_i slot pending
    intro inv
    have here : slot = p.impl.writeSlot := by
      rcases presenting.inv.pending with none_ | selected
      · cases pending.symm.trans none_
      · exact Option.some.inj (pending.symm.trans selected)
    subst here
    have fit := presenting.begun (by rw [pending]; rfl)
    refine ⟨inv, .inr ⟨p.impl.writeSlot, ?_⟩, nofun⟩
    refine ⟨rfl, ?_, ?_, ?_, fun _ => rfl, nofun⟩
    · change _ < p.impl.cfg.slotCount.toNat
      rw [config]
      exact inside
    · simp [Publisher.stepSeq, Publisher.setSlot]
    · change FitSize p.impl.cfg _
      simpa [FitSize, Publisher.stepSeq, Publisher.setSlot] using fit

/-- Every proper action keeps this, by cases on it. -/
theorem step (presenting : Presenting cfg p) (bounds : cfg.FrameBounds)
    {action : PublisherAction} (proper : action.Proper cfg) (stepped : p.step action = some next)
    : Presenting cfg next := by
  have inv := presenting.inv.step bounds stepped
  cases action with
  | beginWrite width height now =>
      obtain rfl := Option.some.inj stepped
      cases returns : p.beginWrite width height now with
      | mk begun pointer =>
          cases pointer with
          | true => exact presenting.beginWrite bounds proper returns
          | false =>
              rw [returns] at inv
              rcases Publisher.beginWrite_refused returns with same | counted
              · exact same ▸ presenting
              · exact presenting.kept inv (by rw [counted]) (by rw [counted]) (by rw [counted])
                  (by rw [counted]) (by rw [counted]) fun _ => by rw [counted]
  | storeByte offset byte =>
      have stored : p.storeByte offset byte = some next := stepped
      unfold Publisher.storeByte at stored
      split at stored
      · split at stored
        · obtain rfl := Option.some.inj stored
          refine presenting.kept inv rfl rfl rfl rfl rfl fun index => ?_
          simp only [Publisher.setSlot]
          split
          · rename_i here
            rw [here]
          · rfl
        · cases stored
      · cases stored
  | cancelWrite => exact proper.elim
  | commit timestamp now published =>
      obtain rfl := Option.some.inj stepped
      exact presenting.commit bounds timestamp now published
  | heartbeat now | setMaxPublish intervalNs | subscribers gen beat down up =>
      obtain rfl := Option.some.inj stepped
      exact presenting.kept inv rfl rfl rfl rfl rfl fun _ => rfl

end Presenting

-----------------------------------------------------------------------------------------
-- Reading it
-----------------------------------------------------------------------------------------

/-- The publisher of the segment is gone, and the last frame is there, if there was one. -/
structure Final (cfg : LLConfig) (frameId : UInt64) (segment : Segment) : Prop where
  closed : segment.header.shutdown ≠ 0
  shown
    : (segment.header.latest = 0 ∧ frameId = 0)
      ∨ ∃ slot : UInt32,
          segment.header.latest = packLatest frameId slot
          ∧ slot.toNat < cfg.slotCount.toNat
          ∧ (segment.slots slot.toNat).header.seq &&& 1 = 0
          ∧ (segment.slots slot.toNat).header.info.frameId = frameId
          ∧ FitSize cfg (segment.slots slot.toNat)

/-- A publisher that is destroyed leaves such a segment behind, also in the middle of a write. -/
theorem Presenting.final {cfg : LLConfig} {p : Publisher} (presenting : Presenting cfg p)
    (closed : p.segment.header.shutdown ≠ 0)
    : Final cfg p.impl.frameId p.segment := by
  refine ⟨closed, ?_⟩
  rcases presenting.shown with none_ | ⟨slot, shows_⟩
  · exact .inl none_
  refine .inr ⟨slot, shows_.named, ?_⟩
  have config := presenting.inv.handle
  have parity := presenting.inv.parity slot.toNat
  have even : (p.segment.slots slot.toNat).header.seq.toNat % 2 = 0 := by
    rw [parity, if_neg]
    rintro ⟨pending, same⟩
    exact shows_.apart pending (UInt32.toNat_inj.mp same)
  refine ⟨config ▸ shows_.inside, ?_, shows_.frame, config ▸ shows_.fit⟩
  rw [← UInt64.toNat_inj, seq_and_one_toNat, even]
  rfl

/-- Nothing that a producer writes decides about this but what stays. -/
theorem Onward.final {cfg : LLConfig} {frameId : UInt64} {s next : Subscriber} {g : Nat}
    (onward : Onward s next) (final : Final cfg frameId (s.world.segments g))
    : Final cfg frameId (next.world.segments g) := by
  obtain ⟨closed, shown⟩ := final
  rw [← onward.slots g] at shown
  have header := onward.header g
  refine ⟨?_, ?_⟩
  · rw [header]
    exact closed
  · rw [header]
    exact shown

/-- What a read does that is made when the publisher is gone. A frame is the last one, which the
caller did not have; only who has it is told of the end.
-/
structure Parting (frameId : UInt64) (m : LLSubscriber.Impl) (ret : ReadReturn)
    (after : LLSubscriber.Impl)
    : Prop where
  result : ret.result ≠ .noNewFrame ∧ ret.result ≠ .contended
  frame : ret.result = .ok → ret.info.frameId = frameId ∧ m.lastFrame ≠ frameId
  last : after.lastFrame = if ret.result = .ok then frameId else m.lastFrame
  told
    : after.peerShutdown = true
      → m.peerShutdown = true ∨ frameId = 0 ∨ after.lastFrame = frameId

/-- The number of a slot that is there fits into two bits. -/
theorem slot_lt_four {cfg : LLConfig} (bounds : cfg.FrameBounds) {slot : UInt32}
    (inside : slot.toNat < cfg.slotCount.toNat)
    : slot.toNat < 4 := by
  have range := bounds.slots
  omega

section Reading

variable {cfg : LLConfig} {frameId : UInt64} {s : Subscriber}

/-- The two parts of `latest`. -/
theorem latest_parts {latest : UInt64} {slot : UInt32} (few : frameId.toNat < 2 ^ 62)
    (four : slot.toNat < 4) (shown : latest = packLatest frameId slot)
    : latestSlot latest = slot ∧ latestFrame latest = frameId := by
  constructor
  · rw [shown, latestSlot_packLatest _ four]
  · refine UInt64.toNat_inj.mp ?_
    rw [shown, latestFrame_toNat, packLatest_toNat few four]
    omega

/-- Who finds nothing new has the last frame, if there is one. -/
theorem Final.known {segment : Segment} {m : LLSubscriber.Impl} (final : Final cfg frameId segment)
    (few : frameId.toNat < 2 ^ 62) (bounds : cfg.FrameBounds)
    (old : m.nothingNew segment.header.latest = true)
    : frameId = 0 ∨ m.lastFrame = frameId := by
  rw [LLSubscriber.Impl.nothingNew, Bool.or_eq_true, decide_eq_true_eq, decide_eq_true_eq] at old
  rcases final.shown with ⟨-, zero⟩ | ⟨slot, latest, inside, -⟩
  · exact .inl zero
  obtain ⟨-, numbered⟩ := latest_parts few (slot_lt_four bounds inside) latest
  rcases old with none_ | same
  · -- The number of no frame is the one that is found in the word zero.
    rw [none_] at numbered
    exact .inl numbered.symm
  · exact .inr (same.symm.trans numbered)

/-- The first attempt decides. -/
theorem readAttempts_parting (final : Final cfg frameId (s.world.segments 0))
    (few : frameId.toNat < 2 ^ 62) (bounds : cfg.FrameBounds)
    (slots : s.impl.remote.slotCount = cfg.slotCount)
    (payload : s.impl.remote.maxPayload = cfg.maxPayload) (dst : Buffer) (info : LLFrameInfo)
    (attempts : Nat)
    : let outcome := (readAttempts 0 dst info (attempts + 1)).run s
      Parting frameId s.impl outcome.1 outcome.2.impl := by
  rw [readAttempts, Call.run_bind, Call.run_impl, Call.run_bind, Call.run_header, Call.run_ite]
  split
  · rename_i old
    rw [Call.run_ite, if_pos final.closed]
    exact ⟨⟨by simp, by simp⟩, by simp, rfl, fun _ => .inr (final.known few bounds old)⟩
  rename_i new
  rw [Bool.not_eq_true, LLSubscriber.Impl.nothingNew, Bool.or_eq_false_iff,
    decide_eq_false_iff_not, decide_eq_false_iff_not] at new
  obtain ⟨slot, latest, inside, even, frame, positive, fits⟩ :=
    final.shown.resolve_left fun none_ => new.1 none_.1
  obtain ⟨named, numbered⟩ := latest_parts few (slot_lt_four bounds inside) latest
  have there : ¬ latestSlot (s.world.segments 0).header.latest ≥ s.impl.remote.slotCount := by
    rw [named, slots, ge_iff_le, UInt32.le_iff_toNat_le]
    omega
  rw [Call.run_ite, if_neg there, Call.run_bind, Call.run_slot, named, Call.run_ite,
    if_neg (not_not.mpr even), Call.run_ite]
  have sized
      : ¬ (((s.world.segments 0).slots slot.toNat).header.info.payloadBytes.toUInt64 = 0
          || ((s.world.segments 0).slots slot.toNat).header.info.payloadBytes.toUInt64
            > s.impl.remote.maxPayload) = true := by
    rw [Bool.or_eq_true, decide_eq_true_eq, decide_eq_true_eq, payload, gt_iff_lt,
      UInt64.lt_iff_toNat_lt, ← UInt64.toNat_inj, UInt32.toNat_toUInt64, UInt64.toNat_zero]
    omega
  rw [if_neg sized, Call.run_ite]
  split
  · exact ⟨⟨by simp, by simp⟩, by simp, rfl, .inl⟩
  · exact ⟨⟨by simp, by simp⟩, fun _ => ⟨frame, fun had => new.2 (numbered.trans had.symm)⟩, frame,
      fun _ => .inr (.inr frame)⟩

/-- A call that delivers no frame and tells of no end. -/
structure Idles (s next : Subscriber) : Prop extends Onward s next where
  lastFrame : next.impl.lastFrame = s.impl.lastFrame
  peerShutdown : next.impl.peerShutdown = s.impl.peerShutdown

instance : IsTrans Subscriber Idles where
  trans := fun _ _ _ first second =>
    ⟨IsTrans.trans _ _ _ first.toOnward second.toOnward,
      second.lastFrame.trans first.lastFrame, second.peerShutdown.trans first.peerShutdown⟩

/-- What does not concern the claim is the same. -/
theorem Onward.idles {next : Subscriber} {m : LLSubscriber.Impl} (onward : Onward s next)
    (impl : unclaimed next.impl = unclaimed m) (lastFrame : m.lastFrame = s.impl.lastFrame)
    (peerShutdown : m.peerShutdown = s.impl.peerShutdown)
    : Idles s next :=
  ⟨onward, (congrArg (·.lastFrame) impl).trans lastFrame,
    (congrArg (·.peerShutdown) impl).trans peerShutdown⟩

theorem Refreshes.idles {next : Subscriber} (refreshes : Refreshes s next) : Idles s next :=
  refreshes.toOnward.idles refreshes.impl rfl rfl

theorem Gated.idles {next : Subscriber} (gated : Gated s next) : Idles s next := by
  obtain ⟨lastReadNs, throttled, impl⟩ := gated.impl
  exact ⟨gated.toOnward, by rw [impl], by rw [impl]⟩

/-- Without a name nobody attaches. -/
theorem poll_idles (unbound : s.world.bound = none) (system : Circumstances)
    : Idles s ((poll system).run s).2 := by
  have polled := poll_cases system s
  generalize (poll system).run s = outcome at polled
  cases polled with
  | trusted _ refreshes | fresh _ _ refreshes | limited _ _ _ refreshes => exact refreshes.idles
  | retried _ _ _ _ onward impl => exact onward.idles impl rfl rfl
  | reattached _ _ _ found =>
      rw [Subscriber.candidate, unbound] at found
      cases found

/-- A call after which the last frame is as before comes before a read. -/
theorem Parting.after {middle : Subscriber} {last : LLSubscriber.Impl} {ret : ReadReturn}
    (idles : Idles s middle) (parting : Parting frameId middle.impl ret last)
    : Parting frameId s.impl ret last := by
  obtain ⟨result, frame, got, told⟩ := parting
  exact ⟨result, idles.lastFrame ▸ frame, idles.lastFrame ▸ got, idles.peerShutdown ▸ told⟩

/-- A read that ends early. -/
theorem Parting.none_ {last : Subscriber} {ret : ReadReturn}
    (result : ret.result = .throttled ∨ ret.result = .disconnected) (idles : Idles s last)
    : Parting frameId s.impl ret last.impl := by
  have told (ended : last.impl.peerShutdown = true)
      : s.impl.peerShutdown = true ∨ frameId = 0 ∨ last.impl.lastFrame = frameId :=
    .inl (idles.peerShutdown.symm.trans ended)
  obtain ⟨result_, info, dst⟩ := ret
  rcases result with rfl | rfl
  · exact ⟨⟨nofun, nofun⟩, nofun, idles.lastFrame, told⟩
  · exact ⟨⟨nofun, nofun⟩, nofun, idles.lastFrame, told⟩

/-- What a subscriber knows of the one segment there is, if it is attached. -/
def Known (segment : Segment) (m : LLSubscriber.Impl) : Prop :=
  ∀ g, m.hdr = some g → g = 0 ∧ Seat segment 0 m

/-- A call keeps this if the name leads to no other segment. -/
theorem Seats.known {next : Subscriber} (seats : Seats s next)
    (bound : ∀ g, s.world.bound = some g → g = 0) (known : Known (s.world.segments 0) s.impl)
    : Known (next.world.segments 0) next.impl := by
  intro g attached
  have here : g = 0 := by
    rcases seats.attached g attached with before | found
    · exact (known g before).1
    · exact bound g found
  subst here
  have seated : Seated s.world s.impl := by
    intro other before
    obtain ⟨rfl, seat⟩ := known other before
    exact seat
  exact ⟨rfl, seats.seated seated 0 attached⟩

/-- The limits it reads by are those of the publisher. -/
theorem Known.limits {session : UInt64} {segment : Segment} {m : LLSubscriber.Impl}
    (known : Known segment m) (announces : Announces segment.header cfg session) {g : Nat}
    (attached : m.hdr = some g)
    : g = 0 ∧ m.remote.slotCount = cfg.slotCount ∧ m.remote.maxPayload = cfg.maxPayload := by
  obtain ⟨here, seat⟩ := known g attached
  have config := congrArg LLHeader.config announces
  rw [seat.remote, config]
  exact ⟨here, rfl, rfl⟩

/-- What a subscriber finds when the publisher is gone. -/
structure Ended (cfg : LLConfig) (session frameId : UInt64) (s : Subscriber) : Prop where
  unbound : s.world.bound = none
  announces : Announces (s.world.segments 0).header cfg session
  final : Final cfg frameId (s.world.segments 0)
  known : Known (s.world.segments 0) s.impl

/-- After a call it finds the same. -/
theorem Ended.later {session : UInt64} {next : Subscriber} (ended : Ended cfg session frameId s)
    (seats : Seats s next)
    : Ended cfg session frameId next where
  unbound := seats.bound.trans ended.unbound
  announces := by
    rw [seats.header 0]
    exact ended.announces.claimed _ _
  final := seats.toOnward.final ended.final
  known := seats.known (fun g found => by cases ended.unbound.symm.trans found) ended.known

/-- `read_latest` after the end of the publisher. -/
theorem readLatest_parting {session : UInt64} (ended : Ended cfg session frameId s)
    (few : frameId.toNat < 2 ^ 62) (bounds : cfg.FrameBounds) (system : Circumstances)
    (dst : Buffer) (info : LLFrameInfo)
    : let outcome := (readLatest system dst info).run s
      Parting frameId s.impl outcome.1 outcome.2.impl := by
  have idles := poll_idles ended.unbound system
  have seats := seats_poll system s
  simp only [readLatest, Call.run_bind]
  generalize (poll system).run s = polled at idles seats
  obtain ⟨alive, middle⟩ := polled
  cases alive with
  | false => exact .none_ (.inr rfl) idles
  | true =>
      have gate := rateGate_gated middle
      simp only [Bool.not_true, Bool.false_eq_true, if_false, Call.run_bind]
      generalize rateGate.run middle = gated at gate
      obtain ⟨passes, gated⟩ := gated
      have whole : Idles s gated := IsTrans.trans _ _ _ idles gate.idles
      cases passes with
      | false => exact .none_ (.inl rfl) whole
      | true =>
          simp only [Bool.not_true, Bool.false_eq_true, if_false, Call.run_bind, Call.run_impl]
          cases attached : gated.impl.hdr with
          | none => exact .none_ (.inr rfl) whole
          | some g =>
              have still := ended.later (IsTrans.trans _ _ _ seats gate.seats)
              obtain ⟨rfl, slots, payload⟩ := still.known.limits still.announces attached
              have parting := readAttempts_parting still.final few bounds slots payload dst info 3
              exact parting.after whole

/-- The vector overload polls twice. -/
theorem readLatestVector_parting {session : UInt64} (ended : Ended cfg session frameId s)
    (few : frameId.toNat < 2 ^ 62) (bounds : cfg.FrameBounds) (first second : Circumstances)
    (dst : Buffer) (info : LLFrameInfo)
    : let outcome := (readLatestVector first second dst info).run s
      Parting frameId s.impl outcome.1 outcome.2.impl := by
  have idles := poll_idles ended.unbound first
  have seats := seats_poll first s
  simp only [readLatestVector, Call.run_bind]
  generalize (poll first).run s = polled at idles seats
  obtain ⟨alive, middle⟩ := polled
  cases alive with
  | false => exact .none_ (.inr rfl) idles
  | true =>
      have gate := cheapGate_gated middle
      simp only [Bool.not_true, Bool.false_eq_true, if_false, Call.run_bind]
      generalize cheapGate.run middle = gated at gate
      obtain ⟨passes, gated⟩ := gated
      have whole : Idles s gated := IsTrans.trans _ _ _ idles gate.idles
      cases passes with
      | false => exact .none_ (.inl rfl) whole
      | true =>
          simp only [Bool.not_true, Bool.false_eq_true, if_false, Call.run_bind, Call.run_impl]
          have still := ended.later (IsTrans.trans _ _ _ seats gate.seats)
          have parting := readLatest_parting still few bounds second
            (dst.resize gated.impl.remote.maxPayload) info
          exact parting.after whole

end Reading

-----------------------------------------------------------------------------------------
-- Before the end
-----------------------------------------------------------------------------------------

/-- Nobody is told of an end that has not come. -/
structure Untold (s next : Subscriber) : Prop extends Onward s next where
  told
    : (∀ g, (s.world.segments g).header.shutdown = 0)
      → next.impl.peerShutdown = true
      → s.impl.peerShutdown = true

instance : Std.Refl Untold where
  refl := fun s => ⟨Std.Refl.refl s, fun _ => id⟩

/-- Subscribers do not shut segments down. -/
theorem Onward.running {s next : Subscriber} (onward : Onward s next)
    (running : ∀ g, (s.world.segments g).header.shutdown = 0) (g : Nat)
    : (next.world.segments g).header.shutdown = 0 := by
  rw [onward.header g]
  exact running g

instance : IsTrans Subscriber Untold where
  trans := fun _ _ _ first second =>
    ⟨IsTrans.trans _ _ _ first.toOnward second.toOnward, fun running told =>
      first.told running (second.told (first.toOnward.running running) told)⟩

theorem Idles.untold {s next : Subscriber} (idles : Idles s next) : Untold s next :=
  ⟨idles.toOnward, fun _ told => idles.peerShutdown.symm.trans told⟩

theorem untold_poll (system : Circumstances) : Steady Untold (poll system) := by
  intro s
  have polled := poll_cases system s
  generalize (poll system).run s = outcome at polled
  cases polled with
  | trusted _ refreshes | fresh _ _ refreshes | limited _ _ _ refreshes =>
      exact refreshes.idles.untold
  | retried _ _ _ _ onward impl => exact (onward.idles impl rfl rfl).untold
  | reattached _ _ _ _ _ onward impl =>
      refine ⟨onward, fun _ told => ?_⟩
      cases ((congrArg (·.peerShutdown) impl).symm.trans told : false = true)

/-- The attempts tell of an end only if there is one, by induction on their number. -/
theorem untold_readAttempts (g : Nat) (dst : Buffer) (info : LLFrameInfo) (attempts : Nat)
    : Steady Untold (readAttempts g dst info attempts) := by
  intro s
  refine ⟨(readAttempts_cases g dst info attempts s).seats.toOnward, fun running => ?_⟩
  induction attempts with
  | zero => exact id
  | succ attempts ih =>
      rw [readAttempts, Call.run_bind, Call.run_impl, Call.run_bind, Call.run_header,
        Call.run_ite]
      split
      · rw [Call.run_ite, if_neg (not_not.mpr (running g))]
        exact id
      rw [Call.run_ite]
      split
      · exact id
      rw [Call.run_bind, Call.run_slot, Call.run_ite]
      split
      · exact ih
      · rw [Call.run_ite]
        split
        · exact id
        · rw [Call.run_ite]
          split <;> exact id

theorem untold_readLatest (system : Circumstances) (dst : Buffer) (info : LLFrameInfo)
    : Steady Untold (readLatest system dst info) := by
  refine .bind (untold_poll system) fun alive => .ite (.pure _) ?_
  refine .bind (fun s => (rateGate_gated s).idles.untold) fun passes => .ite (.pure _) ?_
  refine .bind (.load _) fun m => ?_
  split
  · exact untold_readAttempts _ dst info 4
  · exact .pure _

/-- No call tells of an end before the end, by cases on the call. -/
theorem untold_perform (call : PlainCall) : Steady Untold call.perform := by
  intro s
  cases call with
  | poll system => exact untold_poll system s
  | readLatest system dst info => exact untold_readLatest system dst info s
  | readLatestVector first second dst info =>
      change Untold s ((readLatestVector first second dst info).run s).2
      have steady : Steady Untold (readLatestVector first second dst info) := by
        refine .bind (untold_poll first) fun alive => .ite (.pure _) ?_
        refine .bind (fun s => (cheapGate_gated s).idles.untold) fun passes => .ite (.pure _) ?_
        exact .bind (.load _) fun m => untold_readLatest second _ info
      exact steady s
  | setStaleTimeoutMs ms => exact ⟨⟨⟨0, rfl⟩, rfl, fun _ => rfl⟩, fun _ => id⟩
  | setMaxRead intervalNs => exact ⟨⟨⟨0, rfl⟩, rfl, fun _ => rfl⟩, fun _ => id⟩

/-- A subscriber that is opened has been told nothing. -/
theorem openSubscriber_untold (name : Name) (system : Circumstances) (s : Subscriber)
    : ((openSubscriber name system).run s).2.impl.peerShutdown = false := by
  let fresh : Subscriber :=
    { (Call.nowNs.run s).2 with impl := { name, lastProgress := s.clock 0 } }
  change ((tryConnect system).run fresh).2.impl.peerShutdown = false
  have connected := tryConnect_cases system fresh
  generalize (tryConnect system).run fresh = outcome at connected
  cases connected with
  | refused | kept => rfl
  | adopted _ _ _ impl => exact congrArg (·.peerShutdown) impl

theorem idles_send (request : PushCall) : Steady Idles (send request) := by
  intro s
  obtain ⟨result, next, nextCmd, sent, cmdDropped, run, onward, impl⟩ := send_run request s
  rw [run]
  exact onward.idles impl rfl rfl

theorem idles_receive : Steady Idles receive := by
  intro s
  have received := receive_cases s
  generalize receive.run s = outcome at received
  cases received with
  | nothing refreshes => exact refreshes.idles
  | command _ before after impl =>
      exact Onward.idles (IsTrans.trans _ _ _ before after) impl rfl rfl

-----------------------------------------------------------------------------------------
-- The conversation and its end
-----------------------------------------------------------------------------------------

/-- The calls that read. -/
def PlainCall.reading : PlainCall → Option (Call ReadReturn)
  | .readLatest system dst info => some (Calls.readLatest system dst info)
  | .readLatestVector first second dst info =>
      some (Calls.readLatestVector first second dst info)
  | .poll _ | .setStaleTimeoutMs _ | .setMaxRead _ => none

/-- A read that was made when the publisher was gone: who made it, the result, and the id of the
frame if there is one.
-/
structure LastRead where
  who : Nat
  result : LLReadResult
  frameId : UInt64
deriving DecidableEq

/-- A conversation and all reads since the publisher is gone. -/
structure Farewell where
  conversation : Conversation
  reads : List LastRead := []

/-- The read that a call makes when the publisher is gone. -/
def Conversation.lastRead (c : Conversation) : ConversationAction → Option LastRead
  | .call who call clock =>
      match c.gone, c.present who, call.reading with
      | true, some m, some read =>
          let ret := (read.run (c.view m clock)).1
          some { who, result := ret.result, frameId := ret.info.frameId }
      | _, _, _ => none
  | _ => none

/-- The calls of a conversation, with the reads after its end. -/
def farewellMachine : Machine Farewell ConversationAction where
  step := fun f action =>
    (f.conversation.step action).map fun conversation =>
      { conversation, reads := f.reads ++ (f.conversation.lastRead action).toList }

/-- What the publisher does is proper. -/
def ConversationAction.Proper (cfg : LLConfig) : ConversationAction → Prop
  | .publish action => action.Proper cfg
  | .open_ .. | .call .. | .send .. | .receive .. | .close _ | .publisherSend ..
  | .publisherReceive | .publisherClose =>
      True

instance ConversationAction.properDecidable (cfg : LLConfig)
    : DecidablePred (ConversationAction.Proper cfg)
  | .publish action => inferInstanceAs (Decidable (action.Proper cfg))
  | .open_ .. | .call .. | .send .. | .receive .. | .close _ | .publisherSend ..
  | .publisherReceive | .publisherClose =>
      inferInstanceAs (Decidable True)

/-- The publisher shows its last frame, and all subscribers know the segment. -/
structure Hosted (cfg : LLConfig) (session : UInt64) (c : Conversation) : Prop where
  presenting : Presenting cfg c.publisher
  announces : Announces c.publisher.segment.header cfg session
  known : ∀ who m, c.present who = some m → Known c.publisher.segment m
  shutdown : c.publisher.segment.header.shutdown = if c.gone then 1 else 0

/-- A call that the publisher makes is made before its end. -/
theorem Conversation.stepPublisher_here {c next : Conversation} {outcome : Option Conversation}
    (stepped : c.stepPublisher outcome = some next)
    : c.gone = false ∧ outcome = some next := by
  unfold stepPublisher at stepped
  split at stepped
  · cases stepped
  · rename_i here
    exact ⟨Bool.eq_false_of_not_eq_true here, stepped⟩

/-- No call on the frame path ends anything, by cases on the call. -/
theorem Publisher.step_shutdown {p next : Publisher} {action : PublisherAction}
    (stepped : p.step action = some next)
    : next.segment.size = p.segment.size
      ∧ next.segment.header.shutdown = p.segment.header.shutdown := by
  cases action with
  | beginWrite width height now =>
      obtain rfl := Option.some.inj stepped
      simp only [beginWrite]
      split <;> exact ⟨rfl, rfl⟩
  | storeByte offset byte =>
      simp only [step, storeByte] at stepped
      split at stepped
      · split at stepped
        · obtain rfl := Option.some.inj stepped
          exact ⟨rfl, rfl⟩
        · cases stepped
      · cases stepped
  | cancelWrite =>
      obtain rfl := Option.some.inj stepped
      unfold cancelWrite
      split <;> exact ⟨rfl, rfl⟩
  | commit timestamp now published =>
      obtain rfl := Option.some.inj stepped
      unfold commit
      split <;> exact ⟨rfl, rfl⟩
  | heartbeat now | setMaxPublish intervalNs | subscribers gen beat down up =>
      obtain rfl := Option.some.inj stepped
      exact ⟨rfl, rfl⟩

namespace Hosted

variable {cfg : LLConfig} {session : UInt64} {c next : Conversation} {who : Nat}
  {m : LLSubscriber.Impl} {s : Subscriber} {clock : Nat → UInt64}

/-- A publisher that nobody has attached to. -/
theorem create (bounds : cfg.FrameBounds) (now : UInt64)
    : Hosted cfg session (.create cfg session now) where
  presenting := .create bounds session now
  announces := rfl
  known := fun who m there => by simp [Conversation.present, Conversation.create] at there
  shutdown := rfl

/-- What a call of a subscriber stores, the publisher has to expect of subscribers. -/
theorem stored_step (onward : Onward (c.view m clock) s)
    : let after := s.world.segments 0
      c.publisher.step
        (.subscribers after.header.commandOwnerGen after.header.commandOwnerHeartbeatNs after.down
          after.up)
      = some (c.stored s).publisher := by
  have segment
      : (c.stored s).publisher.segment
        = {
            c.publisher.segment with
            header := {
              c.publisher.segment.header with
              commandOwnerGen := (s.world.segments 0).header.commandOwnerGen
              commandOwnerHeartbeatNs := (s.world.segments 0).header.commandOwnerHeartbeatNs
            }
            down := (s.world.segments 0).down
            up := (s.world.segments 0).up
          } :=
    Segment.mk.injEq .. |>.mpr ⟨onward.size 0, onward.header 0, onward.slots 0, rfl, rfl⟩
  exact congrArg (fun segment => some { c.publisher with segment }) segment.symm

/-- The name leads to the one segment there is, or nowhere. -/
theorem view_bound (c : Conversation) (m : LLSubscriber.Impl) (clock : Nat → UInt64) (g : Nat)
    (found : (c.view m clock).world.bound = some g)
    : g = 0 := by
  have found : (if c.gone then none else some 0) = some g := found
  split at found
  · cases found
  · exact (Option.some.inj found).symm

/-- A call of a subscriber keeps this, if those that are there then know the segment. -/
theorem subscriber (hosted : Hosted cfg session c) (bounds : cfg.FrameBounds)
    (onward : Onward (c.view m clock) s) (publisher : next.publisher = (c.stored s).publisher)
    (gone : next.gone = c.gone)
    (known : ∀ who m, next.present who = some m → Known (s.world.segments 0) m)
    : Hosted cfg session next := by
  have header := onward.header 0
  refine ⟨?_, ?_, ?_, ?_⟩
  · rw [publisher]
    refine hosted.presenting.step bounds ?_ (stored_step onward)
    trivial
  · rw [publisher]
    change Announces (s.world.segments 0).header cfg session
    rw [header]
    exact hosted.announces.claimed _ _
  · rw [publisher]
    exact known
  · rw [publisher, gone]
    change (s.world.segments 0).header.shutdown = _
    rw [header]
    exact hosted.shutdown

/-- Those that were there before know the segment as it is then. -/
theorem others (hosted : Hosted cfg session c) (onward : Onward (c.view m clock) s)
    (other : Nat) (n : LLSubscriber.Impl) (there : c.present other = some n)
    : Known (s.world.segments 0) n := by
  intro g attached
  obtain ⟨here, seat⟩ := hosted.known other n there g attached
  refine ⟨here, seat.kept (onward.size 0) ?_⟩
  rw [onward.header 0]
  rfl

/-- A call of a subscriber that is there. -/
theorem after (hosted : Hosted cfg session c) (bounds : cfg.FrameBounds)
    (there : c.present who = some m) (seats : Seats (c.view m clock) s)
    : Hosted cfg session (c.after who s) := by
  refine hosted.subscriber bounds seats.toOnward rfl rfl fun other n there' => ?_
  rw [Conversation.present_after there] at there'
  split at there'
  · cases there'
    exact seats.known (view_bound c m clock) (hosted.known who m there)
  · exact hosted.others seats.toOnward other n there'

/-- Another subscriber is opened. -/
theorem opened (hosted : Hosted cfg session c) (bounds : cfg.FrameBounds)
    (seats : Seats (c.view {} clock) s)
    : Hosted cfg session (c.opened s) := by
  refine hosted.subscriber bounds seats.toOnward rfl rfl fun other n there => ?_
  rw [Conversation.present_opened] at there
  split at there
  · cases there
    exact seats.known (view_bound c {} clock) nofun
  · exact hosted.others seats.toOnward other n there

/-- A subscriber is closed. -/
theorem closed (hosted : Hosted cfg session c) (bounds : cfg.FrameBounds)
    (onward : Onward (c.view m clock) s)
    : Hosted cfg session (c.closed who s) := by
  refine hosted.subscriber bounds onward rfl rfl fun other n there => ?_
  rw [Conversation.present_closed] at there
  split at there
  · cases there
  · exact hosted.others onward other n there

/-- A call of the publisher. -/
theorem publisher {p : Publisher} (hosted : Hosted cfg session c) (presenting : Presenting cfg p)
    (size : p.segment.size = c.publisher.segment.size)
    (header
      : ∃ latest shutdown beat,
          p.segment.header
            = { c.publisher.segment.header with latest, shutdown, lastHeartbeatNs := beat })
    (same : next.subscribers = c.subscribers) (publisher : next.publisher = p)
    (shutdown : p.segment.header.shutdown = if next.gone then 1 else 0)
    : Hosted cfg session next := by
  subst publisher
  obtain ⟨latest, mark, beat, header⟩ := header
  refine ⟨presenting, ?_, fun who m there g attached => ?_, shutdown⟩
  · have stored :=
      congrArg (fun h : LLHeader => { h with latest, shutdown := mark, lastHeartbeatNs := beat })
        hosted.announces
    exact header ▸ stored
  · rw [Conversation.present, same] at there
    obtain ⟨here, seat⟩ := hosted.known who m there g attached
    exact ⟨here, seat.kept size (congrArg (·.config) header)⟩

end Hosted

-----------------------------------------------------------------------------------------
-- What a call does
-----------------------------------------------------------------------------------------

/-- What a call does to the publisher, and to who is there. Only reads are noted. -/
inductive Stepped (cfg : LLConfig) (c : Conversation) : ConversationAction → Conversation → Prop
  | opened {name system clock s} (seats : Seats (c.view {} clock) s)
    (untold : s.impl.peerShutdown = false)
    : Stepped cfg c (.open_ name system clock) (c.opened s)
  | called {who call clock m} (there : c.present who = some m)
    : Stepped cfg c (.call who call clock) (c.after who (call.perform.run (c.view m clock)).2)
  | idle {action who clock m s next} (quiet : c.lastRead action = none)
    (there : c.present who = some m) (seats : Seats (c.view m clock) s)
    (idles : Idles (c.view m clock) s) (publisher : next.publisher = (c.after who s).publisher)
    (subscribers : next.subscribers = (c.after who s).subscribers) (gone : next.gone = c.gone)
    : Stepped cfg c action next
  | closed {who m s} (onward : Onward (c.view m fun _ => 0) s)
    : Stepped cfg c (.close who) (c.closed who s)
  | published {action next} (quiet : c.lastRead action = none) (here : c.gone = false)
    (subscribers : next.subscribers = c.subscribers)
    (presenting : Presenting cfg next.publisher)
    (size : next.publisher.segment.size = c.publisher.segment.size)
    (header
      : ∃ latest shutdown beat,
          next.publisher.segment.header
            = { c.publisher.segment.header with latest, shutdown, lastHeartbeatNs := beat })
    (shutdown : next.publisher.segment.header.shutdown = if next.gone then 1 else 0)
    : Stepped cfg c action next

section Stepping

variable {cfg : LLConfig} {session : UInt64} {c next : Conversation}

theorem seats_perform (call : PlainCall) : Steady Seats call.perform := by
  intro s
  cases call with
  | poll system => exact seats_poll system s
  | readLatest system dst info => exact seats_readLatest system dst info s
  | readLatestVector first second dst info => exact seats_readLatestVector first second dst info s
  | setStaleTimeoutMs ms => exact seats_setImpl ⟨rfl, rfl, rfl, rfl, rfl, rfl⟩
  | setMaxRead intervalNs => exact seats_setImpl ⟨rfl, rfl, rfl, rfl, rfl, rfl⟩

/-- The publisher's command calls have nothing to do with frames. -/
theorem Hosted.commands {action : ConversationAction} {impl : LLPublisher.Impl}
    {down up : RingData} (hosted : Hosted cfg session c) (here : c.gone = false)
    (quiet : c.lastRead action = none)
    (publisher
      : next.publisher = { impl, segment := { c.publisher.segment with down, up } })
    (subscribers : next.subscribers = c.subscribers) (gone : next.gone = c.gone)
    (config : impl.cfg = c.publisher.impl.cfg) (pending : impl.pending = c.publisher.impl.pending)
    (selected : impl.writeSlot = c.publisher.impl.writeSlot)
    (frameId : impl.frameId = c.publisher.impl.frameId)
    : Stepped cfg c action next := by
  have inv := hosted.presenting.inv
  have after : PublisherInv cfg next.publisher := by
    rw [publisher]
    refine ⟨config.trans inv.handle, ?_, ?_, ?_, inv.latest⟩
    · rw [selected]
      exact inv.selected
    · rw [pending, selected]
      exact inv.pending
    · rw [pending, selected]
      exact inv.parity
  refine .published quiet here subscribers ?_ ?_ ?_ ?_
  · rw [publisher] at after ⊢
    exact hosted.presenting.kept after config pending selected frameId rfl fun _ => rfl
  · rw [publisher]
  · rw [publisher]
    exact ⟨_, _, _, rfl⟩
  · rw [publisher, gone]
    exact hosted.shutdown

/-- The inversion of a step. -/
theorem Hosted.stepped (hosted : Hosted cfg session c) (bounds : cfg.FrameBounds)
    {action : ConversationAction} (proper : action.Proper cfg)
    (stepped : conversationMachine.step c action = some next)
    : Stepped cfg c action next := by
  cases action with
  | open_ name system clock =>
      obtain rfl := Option.some.inj stepped
      exact .opened (seats_openSubscriber name system _) (openSubscriber_untold name system _)
  | call who call clock =>
      obtain ⟨m, there, rfl⟩ := Option.map_eq_some_iff.mp stepped
      exact .called there
  | send who request clock =>
      obtain ⟨m, there, rfl⟩ := Option.map_eq_some_iff.mp stepped
      refine .idle rfl there (seats_send request (c.view m clock))
        (idles_send request (c.view m clock)) ?_ ?_ ?_
      all_goals
        dsimp only
        split <;> rfl
  | receive who clock =>
      obtain ⟨m, there, rfl⟩ := Option.map_eq_some_iff.mp stepped
      refine .idle rfl there (seats_receive (c.view m clock)) (idles_receive (c.view m clock))
        ?_ ?_ ?_
      all_goals
        dsimp only
        split <;> rfl
  | close who =>
      obtain ⟨m, there, rfl⟩ := Option.map_eq_some_iff.mp stepped
      exact .closed (refreshes_close _).toOnward
  | publish action =>
      have own : ∀ gen beat down up, action ≠ .subscribers gen beat down up := by
        rintro gen beat down up rfl
        cases stepped
      have stepped
          : c.stepPublisher
              ((c.publisher.step action).map fun publisher => { c with publisher })
            = some next := by
        cases action with
        | subscribers gen beat down up => exact absurd rfl (own gen beat down up)
        | _ => exact stepped
      obtain ⟨here, moved⟩ := Conversation.stepPublisher_here stepped
      obtain ⟨p, published, rfl⟩ := Option.map_eq_some_iff.mp moved
      obtain ⟨size, shutdown⟩ := Publisher.step_shutdown published
      exact .published rfl here rfl (hosted.presenting.step bounds proper published) size
        (Publisher.step_publishes own published).header (shutdown.trans hosted.shutdown)
  | publisherSend answering request now =>
      obtain ⟨here, moved⟩ := Conversation.stepPublisher_here stepped
      obtain ⟨replyTo, refers, rfl⟩ := Option.map_eq_some_iff.mp moved
      dsimp only [Publisher.send]
      cases push c.publisher.impl.cfg.downstreamRing c.publisher.segment.down
          { request with replyTo, id := c.publisher.impl.nextCmd, timestampNs := now } with
      | mk down accepted =>
          cases accepted with
          | false | true => exact hosted.commands here rfl rfl rfl rfl rfl rfl rfl rfl
  | publisherReceive =>
      obtain ⟨here, moved⟩ := Conversation.stepPublisher_here stepped
      obtain rfl := Option.some.inj moved
      dsimp only [Publisher.receive]
      cases pop c.publisher.impl.cfg.upstreamRing c.publisher.segment.up with
      | mk up got =>
          cases got with
          | none | some command => exact hosted.commands here rfl rfl rfl rfl rfl rfl rfl rfl
  | publisherClose =>
      obtain ⟨here, moved⟩ := Conversation.stepPublisher_here stepped
      obtain rfl := Option.some.inj moved
      have inv := hosted.presenting.inv
      refine .published rfl here rfl ?_ rfl ⟨_, _, _, rfl⟩ rfl
      exact hosted.presenting.kept ⟨inv.handle, inv.selected, inv.pending, inv.parity, inv.latest⟩
        rfl rfl rfl rfl rfl fun _ => rfl

/-- A step keeps what is known of the publisher and by the subscribers. -/
theorem Hosted.step (hosted : Hosted cfg session c) (bounds : cfg.FrameBounds)
    {action : ConversationAction} (stepped : Stepped cfg c action next)
    : Hosted cfg session next := by
  cases stepped with
  | opened seats untold => exact hosted.opened bounds seats
  | called there => exact hosted.after bounds there (seats_perform _ _)
  | idle quiet there seats idles publisher subscribers gone =>
      have after := hosted.after bounds there seats
      obtain ⟨presenting, announces, known, shutdown⟩ := after
      refine ⟨publisher ▸ presenting, publisher ▸ announces, ?_, ?_⟩
      · rw [publisher]
        intro other n there'
        rw [Conversation.present, subscribers] at there'
        exact known other n there'
      · rw [publisher, gone]
        exact shutdown
  | closed onward => exact hosted.closed bounds onward
  | published quiet here subscribers presenting size header shutdown =>
      exact hosted.publisher presenting size header subscribers rfl shutdown

/-- Nobody has been told of an end, and after a call before the end nobody has been, either. -/
theorem Stepped.nobody (hosted : Hosted cfg session c) {action : ConversationAction}
    (stepped : Stepped cfg c action next) (here : c.gone = false)
    (nobody : ∀ who, ∀ m ∈ c.present who, m.peerShutdown = false)
    : c.lastRead action = none ∧ ∀ who, ∀ m ∈ next.present who, m.peerShutdown = false := by
  cases stepped with
  | opened seats untold =>
      refine ⟨rfl, fun other n there => ?_⟩
      rw [Conversation.present_opened] at there
      split at there
      · cases there
        exact untold
      · exact nobody other n there
  | @called who call clock m there =>
      refine ⟨by simp [Conversation.lastRead, here], fun other n there' => ?_⟩
      rw [Conversation.present_after there] at there'
      split at there'
      · cases there'
        have running : c.publisher.segment.header.shutdown = 0 := by
          rw [hosted.shutdown, here]
          rfl
        have untold := (untold_perform call (c.view m clock)).told fun _ => running
        exact Bool.eq_false_of_not_eq_true fun told => by
          cases (nobody who m there).symm.trans (untold told)
      · exact nobody other n there'
  | idle quiet there seats idles publisher subscribers gone =>
      refine ⟨quiet, fun other n there' => ?_⟩
      rw [Conversation.present, subscribers] at there'
      have there' := there'
      change (Conversation.after c _ _).present other = some n at there'
      rw [Conversation.present_after there] at there'
      split at there'
      · cases there'
        exact idles.peerShutdown.trans (nobody _ _ there)
      · exact nobody other n there'
  | closed onward =>
      refine ⟨rfl, fun other n there => ?_⟩
      rw [Conversation.present_closed] at there
      split at there
      · cases there
      · exact nobody other n there
  | published quiet _ subscribers =>
      refine ⟨quiet, fun other n there => ?_⟩
      rw [Conversation.present, subscribers] at there
      exact nobody other n there

end Stepping

-----------------------------------------------------------------------------------------
-- The last reads
-----------------------------------------------------------------------------------------

/-- What a call of a subscriber adds to the reads after the end. -/
structure Adds (frameId : UInt64) (who : Nat) (m after : LLSubscriber.Impl)
    (new : Option LastRead)
    : Prop where
  own : ∀ r ∈ new, r.who = who
  results : ∀ r ∈ new, r.result ≠ .noNewFrame ∧ r.result ≠ .contended
  frame
    : ∀ r ∈ new,
        r.result = .ok
        → r.frameId = frameId ∧ m.lastFrame ≠ frameId ∧ after.lastFrame = frameId
  last : after.lastFrame = m.lastFrame ∨ after.lastFrame = frameId
  told
    : after.peerShutdown = true
      → m.peerShutdown = true ∨ frameId = 0 ∨ after.lastFrame = frameId

/-- A call that is no read, or delivers nothing. -/
theorem Idles.adds {s next : Subscriber} (idles : Idles s next) (frameId : UInt64) (who : Nat)
    : Adds frameId who s.impl next.impl none where
  own := nofun
  results := nofun
  frame := nofun
  last := .inl idles.lastFrame
  told := fun told => .inl (idles.peerShutdown.symm.trans told)

/-- A read. -/
theorem Parting.adds {frameId : UInt64} {m after : LLSubscriber.Impl} {ret : ReadReturn}
    (parting : Parting frameId m ret after) (who : Nat)
    : Adds frameId who m after
        (some { who, result := ret.result, frameId := ret.info.frameId }) where
  own := fun r here => by
    cases here
    rfl
  results := fun r here => by
    cases here
    exact parting.result
  frame := fun r here ok => by
    cases here
    obtain ⟨frame, new⟩ := parting.frame ok
    exact ⟨frame, new, parting.last.trans (if_pos ok)⟩
  last := by
    rw [parting.last]
    split
    · exact .inr rfl
    · exact .inl rfl
  told := parting.told

/-- All that is promised about the end of a publisher, and who has the last frame. -/
structure Parted (frameId : UInt64) (c : Conversation) (reads : List LastRead) : Prop where
  results : ∀ r ∈ reads, r.result ≠ .noNewFrame ∧ r.result ≠ .contended
  last : ∀ r ∈ reads, r.result = .ok → r.frameId = frameId
  once
    : reads.Pairwise fun one another =>
        one.result = .ok → another.result = .ok → one.who ≠ another.who
  had : ∀ r ∈ reads, r.result = .ok → ∀ m ∈ c.present r.who, m.lastFrame = frameId
  told
    : ∀ who, ∀ m ∈ c.present who,
        m.peerShutdown = true → frameId = 0 ∨ m.lastFrame = frameId
  members : ∀ r ∈ reads, r.who < c.subscribers.length

namespace Parted

variable {frameId : UInt64} {c next : Conversation} {reads : List LastRead} {who : Nat}
  {m : LLSubscriber.Impl} {s : Subscriber}

/-- Before the end there is nothing to promise. -/
theorem of_nobody (nobody : ∀ who, ∀ m ∈ c.present who, m.peerShutdown = false)
    : Parted frameId c [] where
  results := nofun
  last := nofun
  once := .nil
  had := nofun
  told := fun who m there told => by cases (nobody who m there).symm.trans told
  members := nofun

/-- A subscriber that was there has made a call. -/
theorem called (parted : Parted frameId c reads) (there : c.present who = some m)
    {new : Option LastRead} (adds : Adds frameId who m s.impl new)
    (same : next.subscribers = (c.after who s).subscribers)
    : Parted frameId next (reads ++ new.toList) := by
  have present (other : Nat)
      : next.present other = if other = who then some s.impl else c.present other := by
    rw [← Conversation.present_after there, Conversation.present, same]
    rfl
  have count : next.subscribers.length = c.subscribers.length := by
    rw [same, Conversation.after, List.length_set]
  refine ⟨?_, ?_, ?_, ?_, ?_, ?_⟩
  · intro r here
    rcases List.mem_append.mp here with before | now
    · exact parted.results r before
    · exact adds.results r (Option.mem_toList.mp now)
  · intro r here ok
    rcases List.mem_append.mp here with before | now
    · exact parted.last r before ok
    · exact (adds.frame r (Option.mem_toList.mp now) ok).1
  · refine List.pairwise_append.mpr ⟨parted.once, ?_, fun one before another now ok ok' same => ?_⟩
    · cases new with
      | none => exact .nil
      | some r => exact List.pairwise_singleton _ r
    · -- Who has got the last frame before does not get it again.
      have now := Option.mem_toList.mp now
      have whose : one.who = who := same.trans (adds.own another now)
      exact (adds.frame another now ok').2.1 (parted.had one before ok m (whose ▸ there))
  · intro r here ok n there'
    rw [present] at there'
    rcases List.mem_append.mp here with before | now
    · split at there'
      · rename_i whose
        cases there'
        have had := parted.had r before ok m (whose ▸ there)
        rcases adds.last with same | frame
        · exact same.trans had
        · exact frame
      · exact parted.had r before ok n there'
    · have now := Option.mem_toList.mp now
      rw [if_pos (adds.own r now)] at there'
      cases there'
      exact (adds.frame r now ok).2.2
  · intro other n there' told
    rw [present] at there'
    split at there'
    · cases there'
      rcases adds.told told with before | known
      · rcases parted.told who m there before with zero | had
        · exact .inl zero
        · rcases adds.last with same | frame
          · exact .inr (same.trans had)
          · exact .inr frame
      · exact known
    · exact parted.told other n there' told
  · intro r here
    rw [count]
    rcases List.mem_append.mp here with before | now
    · exact parted.members r before
    · rw [adds.own r (Option.mem_toList.mp now)]
      exact Conversation.present_lt there

/-- Another subscriber has been opened. -/
theorem opened (parted : Parted frameId c reads) (untold : s.impl.peerShutdown = false)
    : Parted frameId (c.opened s) reads where
  results := parted.results
  last := parted.last
  once := parted.once
  had := fun r here ok n there => by
    rw [Conversation.present_opened, if_neg (parted.members r here).ne] at there
    exact parted.had r here ok n there
  told := fun other n there told => by
    rw [Conversation.present_opened] at there
    split at there
    · cases there
      cases untold.symm.trans told
    · exact parted.told other n there told
  members := fun r here => by
    have before := parted.members r here
    simp only [Conversation.opened, List.length_append]
    omega

/-- A subscriber has been closed. -/
theorem closed (parted : Parted frameId c reads) : Parted frameId (c.closed who s) reads where
  results := parted.results
  last := parted.last
  once := parted.once
  had := fun r here ok n there => by
    rw [Conversation.present_closed] at there
    split at there
    · cases there
    · exact parted.had r here ok n there
  told := fun other n there told => by
    rw [Conversation.present_closed] at there
    split at there
    · cases there
    · exact parted.told other n there told
  members := fun r here => by
    rw [Conversation.closed, List.length_set]
    exact parted.members r here

end Parted

section Runs

variable {cfg : LLConfig} {session : UInt64} {c : Conversation} {f next : Farewell}

/-- After the end a call is a read of this kind, or delivers nothing. -/
theorem Hosted.adds (hosted : Hosted cfg session c) (bounds : cfg.FrameBounds)
    (gone : c.gone = true) (few : c.publisher.impl.frameId.toNat < 2 ^ 62) {who : Nat}
    {m : LLSubscriber.Impl} (there : c.present who = some m) (call : PlainCall)
    (clock : Nat → UInt64)
    : Adds c.publisher.impl.frameId who m (call.perform.run (c.view m clock)).2.impl
        (c.lastRead (.call who call clock)) := by
  have closed : c.publisher.segment.header.shutdown ≠ 0 := by
    rw [hosted.shutdown, gone]
    decide
  have ended : Ended cfg session c.publisher.impl.frameId (c.view m clock) :=
    ⟨if_pos gone, hosted.announces, hosted.presenting.final closed, hosted.known who m there⟩
  cases call with
  | poll system =>
      have idles : Idles (c.view m clock) _ := poll_idles ended.unbound system
      simp only [Conversation.lastRead, PlainCall.reading, gone, there]
      exact idles.adds _ who
  | setStaleTimeoutMs ms =>
      have idles : Idles (c.view m clock) ((setStaleTimeoutMs ms).run (c.view m clock)).2 :=
        ⟨⟨⟨0, rfl⟩, rfl, fun _ => rfl⟩, rfl, rfl⟩
      simp only [Conversation.lastRead, PlainCall.reading, gone, there]
      exact idles.adds _ who
  | setMaxRead intervalNs =>
      have idles : Idles (c.view m clock) (c.view { m with minReadNs := intervalNs } clock) :=
        ⟨⟨⟨0, rfl⟩, rfl, fun _ => rfl⟩, rfl, rfl⟩
      simp only [Conversation.lastRead, PlainCall.reading, gone, there]
      exact idles.adds _ who
  | readLatest system dst info =>
      have parting := readLatest_parting ended few bounds system dst info
      simp only [Conversation.lastRead, PlainCall.reading, gone, there]
      exact parting.adds who
  | readLatestVector first second dst info =>
      have parting := readLatestVector_parting ended few bounds first second dst info
      simp only [Conversation.lastRead, PlainCall.reading, gone, there]
      exact parting.adds who

/-- What holds in every state of a conversation and the reads after its end. -/
structure Attended (cfg : LLConfig) (session : UInt64) (f : Farewell) : Prop where
  hosted : Hosted cfg session f.conversation
  before
    : f.conversation.gone = false
      → f.reads = [] ∧ ∀ who, ∀ m ∈ f.conversation.present who, m.peerShutdown = false
  parted
    : f.conversation.publisher.impl.frameId.toNat < 2 ^ 62
      → Parted f.conversation.publisher.impl.frameId f.conversation f.reads

/-- Every proper call keeps this. -/
theorem Attended.step (attended : Attended cfg session f) (bounds : cfg.FrameBounds)
    {action : ConversationAction} (proper : action.Proper cfg)
    (stepped : farewellMachine.step f action = some next)
    : Attended cfg session next := by
  obtain ⟨hosted, before, parted⟩ := attended
  obtain ⟨c, moved, rfl⟩ := Option.map_eq_some_iff.mp stepped
  have stepped := hosted.stepped bounds proper moved
  have after := hosted.step bounds stepped
  cases gone : f.conversation.gone with
  | false =>
      obtain ⟨none_, nobody⟩ := before gone
      obtain ⟨quiet, nobody⟩ := stepped.nobody hosted gone nobody
      have reads : f.reads ++ (f.conversation.lastRead action).toList = [] := by
        rw [quiet, none_]
        rfl
      refine ⟨after, fun _ => ⟨reads, nobody⟩, fun _ => ?_⟩
      dsimp only
      rw [reads]
      exact .of_nobody nobody
  | true =>
      have ended (same : c.gone = f.conversation.gone) (here : c.gone = false) : False := by
        cases here.symm.trans (same.trans gone)
      cases stepped with
      | opened seats untold =>
          refine ⟨after, fun here => (ended rfl here).elim, fun few => ?_⟩
          dsimp only [Conversation.lastRead, Option.toList]
          rw [List.append_nil]
          exact (parted few).opened untold
      | @called who call clock m there =>
          refine ⟨after, fun here => (ended rfl here).elim, fun few => ?_⟩
          exact (parted few).called there (hosted.adds bounds gone few there call clock) rfl
      | @idle _ who clock m s _ quiet there seats idles publisher subscribers same =>
          refine ⟨after, fun here => (ended same here).elim, fun few => ?_⟩
          dsimp only at few ⊢
          rw [publisher] at few ⊢
          rw [quiet]
          exact (parted few).called there (idles.adds _ who) subscribers
      | closed onward =>
          refine ⟨after, fun here => (ended rfl here).elim, fun few => ?_⟩
          dsimp only [Conversation.lastRead, Option.toList]
          rw [List.append_nil]
          exact (parted few).closed
      | published quiet here => cases gone.symm.trans here

/-- What is promised about the end of a publisher: a read either returns the last frame, or says
why it does not; nobody gets it twice, and nobody is told of the end without having it.
-/
structure Farewell.Fair (f : Farewell) : Prop where
  results : ∀ r ∈ f.reads, r.result ≠ .noNewFrame ∧ r.result ≠ .contended
  last
    : ∀ r ∈ f.reads, r.result = .ok → r.frameId = f.conversation.publisher.impl.frameId
  once
    : f.reads.Pairwise fun one another =>
        one.result = .ok → another.result = .ok → one.who ≠ another.who
  told
    : ∀ who, ∀ m ∈ f.conversation.present who,
        m.peerShutdown = true
        → f.conversation.gone = true
          ∧ (f.conversation.publisher.impl.frameId = 0
            ∨ m.lastFrame = f.conversation.publisher.impl.frameId)

/-- In every run whose steps are whole public calls, of a publisher and of any number of
subscribers: once the publisher has gone, in the middle of a write or not, each read returns the
last frame or says that it is throttled, that the buffer is too small or that there is no
producer. No subscriber gets the last frame twice, and none is told of the shutdown that does not
have it. No write is cancelled, and all frames fit.
-/
theorem farewell_fair (accepted : cfg.accepted = true) {now : UInt64}
    {schedule : List ConversationAction} (proper : ∀ action ∈ schedule, action.Proper cfg)
    (reached
      : farewellMachine.run { conversation := .create cfg session now } schedule = some f)
    (few : f.conversation.publisher.impl.frameId.toNat < 2 ^ 62)
    : f.Fair := by
  have bounds := cfg.accepted_frameBounds accepted
  have start : Attended cfg session { conversation := .create cfg session now } := by
    have nobody : ∀ who, ∀ m ∈ (Conversation.create cfg session now).present who,
        m.peerShutdown = false := by
      intro who m there
      simp [Conversation.present, Conversation.create] at there
    exact ⟨.create bounds now, fun _ => ⟨rfl, nobody⟩, fun _ => .of_nobody nobody⟩
  have attended : Attended cfg session f :=
    Machine.invariant_of_run (fun _ action => action.Proper cfg) (Attended cfg session)
      (fun _ _ _ attended proper stepped => attended.step bounds proper stepped) start
      (Machine.meets_of_forall (fun _ _ holds => holds) proper) reached
  have parted := attended.parted few
  refine ⟨parted.results, parted.last, parted.once, fun who m there told => ?_⟩
  refine ⟨?_, parted.told who m there told⟩
  cases gone : f.conversation.gone with
  | true => rfl
  | false => cases ((attended.before gone).2 who m there).symm.trans told

end Runs

/-- The publisher goes in the middle of its second write. The first frame is read once, and the
next read tells of the end.
-/
theorem farewell_fair_midwrite
    : ∃ f : Farewell,
        f.reads = [
          { who := 0, result := .ok, frameId := 1 },
          { who := 0, result := .disconnected, frameId := 0 }
        ]
        ∧ f.Fair := by
  let read : PlainCall := .readLatest {} { size := 1228800 } {}
  let schedule : List ConversationAction := [
    .open_ [] {} fun _ => 10,
    .publish (.beginWrite 640 480 11),
    .publish (.commit 0 12 13),
    .publish (.beginWrite 640 480 14),
    .publisherClose,
    .call 0 read fun _ => 15,
    .call 0 read fun _ => 16
  ]
  have passes
      : (farewellMachine.run { conversation := .create {} 7 5 } schedule).any
          (fun f =>
            decide
              (f.reads = [
                  { who := 0, result := .ok, frameId := 1 },
                  { who := 0, result := .disconnected, frameId := 0 }
                ]
                ∧ f.conversation.publisher.impl.frameId.toNat < 2 ^ 62))
        = true := by
    decide +kernel
  obtain ⟨f, reached, tested⟩ := Machine.reaches_of_any passes
  rw [decide_eq_true_eq] at tested
  exact ⟨f, tested.1, farewell_fair (by decide +kernel) (by decide +kernel) reached tested.2⟩

end ShmFrame.Calls
