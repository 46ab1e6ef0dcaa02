import ShmFrame.Calls.PublisherInvariant
import ShmFrame.Calls.Unnoticed

/-! When a cancelled write is invisible: as long as the rotation of the slots has not come
back to the slot that `latest` names.
-/

namespace ShmFrame.Calls

open ShmFrame.Foundation

-----------------------------------------------------------------------------------------
-- Rounds
-----------------------------------------------------------------------------------------

/-- A `begin_write`, the bytes stored into the slot, and a `cancel_write`. -/
structure Round where
  width : UInt32
  height : UInt32
  now : UInt64
  stores : List (Nat × UInt8) := []

namespace Publisher

/-- Stores bytes one after the other. -/
def storeBytes (p : Publisher) : List (Nat × UInt8) → Option Publisher
  | [] => some p
  | (offset, byte) :: rest => (p.storeByte offset byte).bind fun stored => storeBytes stored rest

/-- One round; none if `begin_write` refuses or a store is out of bounds. -/
def cancelledRound (p : Publisher) (round : Round) : Option Publisher :=
  let (begun, pointer) := p.beginWrite round.width round.height round.now
  if pointer then (begun.storeBytes round.stores).map cancelWrite else none

/-- Successive rounds. -/
def cancelledRounds (p : Publisher) : List Round → Option Publisher
  | [] => some p
  | round :: rest => (p.cancelledRound round).bind fun after => cancelledRounds after rest

end Publisher

/-- A `read_latest` of either overload. -/
inductive ReadCall
  | raw (system : Circumstances)
  | vector (first second : Circumstances)

/-- Performs the read. -/
def ReadCall.perform (dst : Buffer) (info : LLFrameInfo) : ReadCall → Call ReadReturn
  | .raw system => readLatest system dst info
  | .vector first second => readLatestVector first second dst info

/-- No subscriber attached to the segment can tell by its next read whether the rounds took
place: neither by the result nor by the info nor by the bytes.
-/
def Invisible (p : Publisher) (k : Nat) : Prop :=
  ∀ rounds after,
    rounds.length = k
    → p.cancelledRounds rounds = some after
    → ∀ (s : Subscriber) (g : Nat) (read : ReadCall) (dst : Buffer) (info : LLFrameInfo),
        s.impl.hdr = some g
        → s.world.segments g = p.segment
        → ((read.perform dst info).run
              { s with world := s.world.setSegment g after.segment }).1
          = ((read.perform dst info).run s).1

/-- None of up to `k` rounds selects the slot that `latest` names. -/
def SparesLatest (p : Publisher) (k : Nat) : Prop :=
  ∀ rounds after,
    1 ≤ rounds.length
    → rounds.length ≤ k
    → p.cancelledRounds rounds = some after
    → p.segment.header.latest ≠ 0
    → after.impl.writeSlot ≠ latestSlot p.segment.header.latest

/-- One of up to `k` rounds comes to a slot. -/
def Publisher.Visits (p : Publisher) (k index : Nat) : Prop :=
  ∃ j, 1 ≤ j ∧ j ≤ k
    ∧ (p.impl.writeSlot.toNat + j) % p.impl.cfg.slotCount.toNat = index

/-- How many rounds it takes the rotation to come back to the slot that `latest` names. -/
def Publisher.roundsToLatest (p : Publisher) : Nat :=
  ((latestSlot p.segment.header.latest).toNat + p.impl.cfg.slotCount.toNat
      - p.impl.writeSlot.toNat - 1) % p.impl.cfg.slotCount.toNat
    + 1

-----------------------------------------------------------------------------------------
-- What rounds leave behind
-----------------------------------------------------------------------------------------

namespace Publisher

variable {p next : Publisher}

/-- The payload area after some stores. -/
def storedBytes : List (Nat × UInt8) → (Nat → UInt8) → Nat → UInt8
  | [], payload => payload
  | (offset, byte) :: rest, payload =>
      storedBytes rest fun other => if other = offset then byte else payload other

/-- Storing bytes changes the payload of the pending slot only, by induction on them. -/
theorem storeBytes_effect {stores : List (Nat × UInt8)} {slot : UInt32}
    (pending : p.impl.pending = some slot) (stored : p.storeBytes stores = some next)
    : next.impl = p.impl
      ∧ Alters slot.toNat p next
      ∧ (next.segment.slots slot.toNat).header = (p.segment.slots slot.toNat).header
      ∧ (next.segment.slots slot.toNat).payload
        = storedBytes stores (p.segment.slots slot.toNat).payload := by
  induction stores generalizing p with
  | nil =>
      cases stored
      exact ⟨rfl, ⟨rfl, fun _ _ => rfl⟩, rfl, rfl⟩
  | cons store rest ih =>
      obtain ⟨middle, first, later⟩ := Option.bind_eq_some_iff.mp stored
      simp only [storeByte, pending] at first
      split at first
      · cases first
        obtain ⟨impl, alters, header, payload⟩ := @ih (p.setSlot slot.toNat _) pending later
        rw [setSlot_same] at header payload
        exact ⟨impl, (Alters.setSlot p _ _).trans alters, header, payload⟩
      · cases first

/-- `cancel_write` changes the sequence word of the pending slot only. -/
theorem cancelWrite_effect {slot : UInt32} (pending : p.impl.pending = some slot)
    : p.cancelWrite.impl = { p.impl with pending := none }
      ∧ Alters slot.toNat p p.cancelWrite
      ∧ (p.cancelWrite.segment.slots slot.toNat).header.info
        = (p.segment.slots slot.toNat).header.info
      ∧ (p.cancelWrite.segment.slots slot.toNat).payload
        = (p.segment.slots slot.toNat).payload := by
  simp only [cancelWrite, pending, stepSeq, setSlot_same, true_and, and_true]
  exact ⟨rfl, fun _ elsewhere => if_neg elsewhere⟩

/-- A round leaves nothing pending; it advances the rotation and overwrites the slot it
comes to.
-/
theorem cancelledRound_effect {round : Round} (done : p.cancelledRound round = some next)
    : p.impl.pending = none
      ∧ next.impl = { p.impl with writeSlot := p.upcoming }
      ∧ Alters p.upcoming.toNat p next
      ∧ (next.segment.slots p.upcoming.toNat).header.info.payloadBytes
        = (LLPublisher.frameBytes p.impl.cfg round.width round.height).toUInt32
      ∧ (next.segment.slots p.upcoming.toNat).payload
        = storedBytes round.stores (p.segment.slots p.upcoming.toNat).payload := by
  unfold cancelledRound at done
  cases returns : p.beginWrite round.width round.height round.now with
  | mk begun pointer =>
      simp only [returns] at done
      split at done
      · rename_i handed
        subst handed
        obtain ⟨free, impl, alters, -, bytes, payload⟩ := beginWrite_pointer returns
        obtain ⟨filled, storing, rfl⟩ := Option.map_eq_some_iff.mp done
        have begunPending : begun.impl.pending = some p.upcoming := by rw [impl]
        obtain ⟨same, fills, header, stored⟩ := storeBytes_effect begunPending storing
        have filledPending : filled.impl.pending = some p.upcoming := by rw [same, impl]
        obtain ⟨settled, settles, info, kept⟩ := cancelWrite_effect filledPending
        refine ⟨free, ?_, (alters.trans fills).trans settles, ?_, ?_⟩
        · rw [settled, same, impl, ← free]
        · rw [info, header]
          exact bytes
        · rw [kept, stored, payload]
      · cases done

/-- A series of rounds comes to the slot of the first one and to those of the others. -/
theorem visits_succ (bounds : p.impl.cfg.FrameBounds)
    (inside : p.impl.writeSlot.toNat < p.impl.cfg.slotCount.toNat)
    (moved : next.impl.writeSlot = p.upcoming) (same : next.impl.cfg = p.impl.cfg)
    {k index : Nat}
    : p.Visits (k + 1) index ↔ p.upcoming.toNat = index ∨ next.Visits k index := by
  have upcoming : p.upcoming.toNat = _ := rotate_toNat bounds inside
  simp only [Visits, moved, same, upcoming, Nat.mod_add_mod]
  constructor
  · rintro ⟨j, positive, most, rfl⟩
    obtain first | later : j = 1 ∨ 2 ≤ j := by omega
    · exact Or.inl (by rw [first])
    · exact Or.inr ⟨j - 1, by omega, by omega, by congr 1; omega⟩
  · rintro (rfl | ⟨j, positive, most, rfl⟩)
    · exact ⟨1, le_rfl, by omega, rfl⟩
    · exact ⟨j + 1, by omega, by omega, by congr 1; omega⟩

/-- Successive rounds visit the slots in turn and change nothing else: a slot they do not
come to is as before, and one they come to is as the last round there left it, by induction
on the rounds.
-/
theorem cancelledRounds_effect {rounds : List Round} {Left : Slot → Prop}
    (bounds : p.impl.cfg.FrameBounds)
    (inside : p.impl.writeSlot.toNat < p.impl.cfg.slotCount.toNat)
    (leaves
      : ∀ round ∈ rounds, ∀ (slot : Slot) (payload : Nat → UInt8),
          slot.payload = storedBytes round.stores payload
          → slot.header.info.payloadBytes
            = (LLPublisher.frameBytes p.impl.cfg round.width round.height).toUInt32
          → Left slot)
    (done : p.cancelledRounds rounds = some next)
    : next.impl = { p.impl with writeSlot := next.impl.writeSlot }
      ∧ next.impl.writeSlot.toNat
        = (p.impl.writeSlot.toNat + rounds.length) % p.impl.cfg.slotCount.toNat
      ∧ next.segment = { p.segment with slots := next.segment.slots }
      ∧ ∀ index,
          (¬ p.Visits rounds.length index
              → next.segment.slots index = p.segment.slots index)
          ∧ (p.Visits rounds.length index → Left (next.segment.slots index)) := by
  induction rounds generalizing p with
  | nil =>
      cases done
      refine ⟨rfl, (Nat.mod_eq_of_lt inside).symm, rfl, fun index => ⟨fun _ => rfl, ?_⟩⟩
      rintro ⟨j, positive, most, -⟩
      exact absurd (positive.trans most) (by simp)
  | cons round rest ih =>
      obtain ⟨middle, first, later⟩ := Option.bind_eq_some_iff.mp done
      obtain ⟨-, impl, alters, bytes, payload⟩ := cancelledRound_effect first
      have same : middle.impl.cfg = p.impl.cfg := by rw [impl]
      have moved : middle.impl.writeSlot = p.upcoming := by rw [impl]
      have upcoming : p.upcoming.toNat = _ := rotate_toNat bounds inside
      have inside' : middle.impl.writeSlot.toNat < middle.impl.cfg.slotCount.toNat := by
        have few := bounds.slots
        rw [moved, upcoming, same]
        exact Nat.mod_lt _ (by omega)
      obtain ⟨impl', slot', segment', visited⟩ :=
        @ih middle (same ▸ bounds) inside'
          (fun round member => same ▸ leaves round (List.mem_cons_of_mem _ member)) later
      refine ⟨?_, ?_, ?_, fun index => ?_⟩
      · rw [impl', impl]
      · rw [slot', moved, upcoming, same, Nat.mod_add_mod, List.length_cons]
        congr 1
        omega
      · rw [segment', alters.rest]
      · rw [List.length_cons, visits_succ bounds inside moved same]
        by_cases again : middle.Visits rest.length index
        · exact ⟨fun never => absurd (Or.inr again) never, fun _ => (visited index).2 again⟩
        · rw [(visited index).1 again]
          refine ⟨fun never => alters.apart index fun here => never (Or.inl here.symm), ?_⟩
          rintro (rfl | again')
          · exact leaves round List.mem_cons_self _ _ payload bytes
          · exact absurd again' again

/-- The rotation comes back to the slot that `latest` names after so many rounds, and not
before.
-/
theorem visits_latest (bounds : p.impl.cfg.FrameBounds)
    (inside : p.impl.writeSlot.toNat < p.impl.cfg.slotCount.toNat)
    (named
      : (latestSlot p.segment.header.latest).toNat < p.impl.cfg.slotCount.toNat)
    (k : Nat)
    : p.Visits k (latestSlot p.segment.header.latest).toNat ↔ p.roundsToLatest ≤ k := by
  unfold Visits roundsToLatest
  obtain three | four := bounds.slots
  · rw [three] at inside named ⊢
    constructor
    · rintro ⟨j, positive, most, comes⟩
      omega
    · intro enough
      exact ⟨_, Nat.le_add_left 1 _, enough, by omega⟩
  · rw [four] at inside named ⊢
    constructor
    · rintro ⟨j, positive, most, comes⟩
      omega
    · intro enough
      exact ⟨_, Nat.le_add_left 1 _, enough, by omega⟩

end Publisher

-----------------------------------------------------------------------------------------
-- Few rounds are invisible
-----------------------------------------------------------------------------------------

/-- The rounds change the slots of the segment only, and not the one `latest` names. -/
theorem PublisherInv.rounds_untouched {cfg : LLConfig} {p after : Publisher}
    (inv : PublisherInv cfg p) (bounds : cfg.FrameBounds) {rounds : List Round}
    (few : p.segment.header.latest = 0 ∨ rounds.length < p.roundsToLatest)
    (done : p.cancelledRounds rounds = some after)
    : after.segment = { p.segment with slots := after.segment.slots }
      ∧ Untouched p.segment.header.latest p.segment.slots after.segment.slots := by
  obtain rfl := inv.handle
  obtain ⟨-, -, segment, visited⟩ := Publisher.cancelledRounds_effect
    bounds inv.selected (fun _ _ _ _ _ _ => True.intro) done
  refine ⟨segment, fun published => (visited _).1 fun visits => ?_⟩
  rw [Publisher.visits_latest bounds inv.selected (inv.latest published)] at visits
  obtain none_ | less := few
  · exact published none_
  · omega

/-- Fewer rounds than it takes to come back to that slot are invisible. -/
theorem PublisherInv.invisible {cfg : LLConfig} {p : Publisher} (inv : PublisherInv cfg p)
    (bounds : cfg.FrameBounds) {k : Nat}
    (few : p.segment.header.latest = 0 ∨ k < p.roundsToLatest)
    : Invisible p k := by
  rintro rounds after rfl done s g read dst info - mapped
  obtain ⟨segment, untouched⟩ := inv.rounds_untouched bounds few done
  have changed : { s with world := s.world.setSegment g after.segment }
      = s.withSlots g after.segment.slots := by
    rw [Subscriber.withSlots, mapped, ← segment]
  have shows_ : Shows g p.segment.header.latest p.segment.slots s := by
    rw [Shows, mapped]
    exact ⟨rfl, rfl⟩
  have unnoticed
      : Unnoticed g p.segment.header.latest p.segment.slots after.segment.slots
          (read.perform dst info) := by
    cases read with
    | raw system => exact unnoticed_readLatest untouched system dst info
    | vector first second => exact unnoticed_readLatestVector untouched first second dst info
  rw [changed, unnoticed.commutes s shows_]

/-- None of them selects it. -/
theorem PublisherInv.sparesLatest {cfg : LLConfig} {p : Publisher} (inv : PublisherInv cfg p)
    (bounds : cfg.FrameBounds) {k : Nat}
    (few : p.segment.header.latest = 0 ∨ k < p.roundsToLatest)
    : SparesLatest p k := by
  obtain rfl := inv.handle
  intro rounds after positive most done published selects
  obtain ⟨-, slot, -, -⟩ := Publisher.cancelledRounds_effect
    bounds inv.selected (fun _ _ _ _ _ _ => True.intro) done
  have visits : p.Visits k (latestSlot p.segment.header.latest).toNat :=
    ⟨rounds.length, positive, most, by rw [← slot, selects]⟩
  rw [Publisher.visits_latest bounds inv.selected (inv.latest published)] at visits
  obtain none_ | less := few
  · exact published none_
  · omega

-----------------------------------------------------------------------------------------
-- Enough rounds are seen
-----------------------------------------------------------------------------------------

namespace PublisherInv

variable {cfg : LLConfig} {p next : Publisher}

/-- Storing bytes keeps the invariant, by induction on them. -/
theorem storeBytes (inv : PublisherInv cfg p) {stores : List (Nat × UInt8)}
    (stored : p.storeBytes stores = some next)
    : PublisherInv cfg next := by
  induction stores generalizing p with
  | nil =>
      cases stored
      exact inv
  | cons store rest ih =>
      obtain ⟨middle, first, later⟩ := Option.bind_eq_some_iff.mp stored
      exact ih (inv.storeByte first) later

/-- So does a round. -/
theorem cancelledRound (inv : PublisherInv cfg p) (bounds : cfg.FrameBounds) {round : Round}
    (done : p.cancelledRound round = some next)
    : PublisherInv cfg next := by
  unfold Publisher.cancelledRound at done
  cases returns : p.beginWrite round.width round.height round.now with
  | mk begun pointer =>
      simp only [returns] at done
      split at done
      · rename_i handed
        subst handed
        obtain ⟨filled, storing, rfl⟩ := Option.map_eq_some_iff.mp done
        exact ((inv.begun bounds returns).storeBytes storing).cancelWrite
      · cases done

/-- So do successive rounds, by induction on them. -/
theorem cancelledRounds (inv : PublisherInv cfg p) (bounds : cfg.FrameBounds)
    {rounds : List Round} (done : p.cancelledRounds rounds = some next)
    : PublisherInv cfg next := by
  induction rounds generalizing p with
  | nil =>
      cases done
      exact inv
  | cons round rest ih =>
      obtain ⟨middle, first, later⟩ := Option.bind_eq_some_iff.mp done
      exact ih (inv.cancelledRound bounds first) later

end PublisherInv

/-- A round of one pixel, as early as the limit on the rate allows, that stores a byte. -/
def Publisher.trial (p : Publisher) (byte : UInt8) : Round where
  width := 1
  height := 1
  now := p.impl.lastPublishNs + p.impl.minIntervalNs
  stores := [(0, byte)]

/-- The size of one pixel. -/
theorem frameBytes_pixel (cfg : LLConfig)
    : LLPublisher.frameBytes cfg 1 1 = cfg.bytesPerPixel.toUInt64 := by
  simp [LLPublisher.frameBytes]

/-- A pixel is at least one byte and at most a full frame. -/
theorem pixel_bounds {cfg : LLConfig} (bounds : cfg.FrameBounds)
    : 1 ≤ cfg.bytesPerPixel.toNat ∧ cfg.bytesPerPixel.toNat ≤ cfg.maxPayload.toNat := by
  refine ⟨bounds.depth, ?_⟩
  have positive := bounds.positive
  rw [bounds.payload, LLConfig.exactBytes] at positive ⊢
  exact Nat.le_mul_of_pos_left _ (Nat.pos_of_mul_pos_right positive)

/-- Such a round succeeds whenever nothing is pending. -/
theorem Publisher.trial_succeeds {p : Publisher} (bounds : p.impl.cfg.FrameBounds)
    (free : p.impl.pending = none) (byte : UInt8)
    : ∃ next, p.cancelledRound (p.trial byte) = some next := by
  obtain ⟨depth, fits⟩ := pixel_bounds bounds
  have admitted : p.impl.admitWrite 1 1 (p.impl.lastPublishNs + p.impl.minIntervalNs)
      = ({ p.impl with writeSlot := p.upcoming }, true) := by
    have small : ¬ LLPublisher.frameBytes p.impl.cfg 1 1 > p.impl.cfg.maxPayload := by
      rw [frameBytes_pixel, gt_iff_lt, UInt64.lt_iff_toNat_lt, UInt32.toNat_toUInt64]
      omega
    have elapsed
        : p.impl.lastPublishNs + p.impl.minIntervalNs - p.impl.lastPublishNs
          = p.impl.minIntervalNs := by
      rw [UInt64.add_comm, UInt64.add_sub_cancel]
    simp [LLPublisher.Impl.admitWrite, free, small, elapsed, Publisher.upcoming]
  have room : 0 < p.impl.cfg.maxPayload.toNat := bounds.positive
  simp [cancelledRound, beginWrite, trial, admitted, storeBytes, storeByte, setSlot, room]

/-- So do any number of them one after the other, by induction on their number. -/
theorem Publisher.trials_succeed {p : Publisher} (bounds : p.impl.cfg.FrameBounds)
    (free : p.impl.pending = none) (byte : UInt8) (k : Nat)
    : ∃ after, p.cancelledRounds (List.replicate k (p.trial byte)) = some after := by
  induction k generalizing p with
  | zero => exact ⟨p, rfl⟩
  | succ k ih =>
      obtain ⟨middle, first⟩ := trial_succeeds bounds free byte
      obtain ⟨-, impl, -⟩ := cancelledRound_effect first
      have same : middle.trial byte = p.trial byte := by rw [trial, trial, impl]
      obtain ⟨after, later⟩ := @ih middle (by rw [impl]; exact bounds) (by rw [impl]; exact free)
      refine ⟨after, ?_⟩
      rw [List.replicate_succ, cancelledRounds, first, Option.bind_some, ← same]
      exact later

/-- A slot as a trial leaves it. -/
def Stamped (cfg : LLConfig) (byte : UInt8) (slot : Slot) : Prop :=
  slot.payload 0 = byte ∧ slot.header.info.payloadBytes = cfg.bytesPerPixel

/-- Enough trials leave their byte in the slot that `latest` names. -/
theorem PublisherInv.trials_stamp {cfg : LLConfig} {p after : Publisher}
    (inv : PublisherInv cfg p) (bounds : cfg.FrameBounds)
    (published : p.segment.header.latest ≠ 0) {byte : UInt8} {k : Nat}
    (enough : p.roundsToLatest ≤ k)
    (done : p.cancelledRounds (List.replicate k (p.trial byte)) = some after)
    : after.segment.header = p.segment.header
      ∧ Stamped cfg byte (after.segment.slots (latestSlot p.segment.header.latest).toNat) := by
  obtain rfl := inv.handle
  have leaves
      : ∀ round ∈ List.replicate k (p.trial byte), ∀ (slot : Slot) (payload : Nat → UInt8),
          slot.payload = Publisher.storedBytes round.stores payload
          → slot.header.info.payloadBytes
            = (LLPublisher.frameBytes p.impl.cfg round.width round.height).toUInt32
          → Stamped p.impl.cfg byte slot := by
    intro round member slot payload stored bytes
    obtain rfl := List.eq_of_mem_replicate member
    constructor
    · rw [stored]
      rfl
    · rw [bytes]
      simp [Publisher.trial, LLPublisher.frameBytes]
  obtain ⟨-, -, segment, visited⟩ :=
    Publisher.cancelledRounds_effect bounds inv.selected leaves done
  refine ⟨by rw [segment], (visited _).2 ?_⟩
  rw [List.length_replicate]
  exact (Publisher.visits_latest bounds inv.selected (inv.latest published) k).mpr enough

/-- An attached subscriber that has not read the latest frame; it has read none at all
unless the frame ids have wrapped.
-/
def observer (cfg : LLConfig) (segment : Segment) : Subscriber where
  impl := {
    hdr := some 0
    remote := cfg
    lastFrame := if latestFrame segment.header.latest = 0 then 1 else 0
  }
  world := World.setSegment { segments := fun _ => {}, bound := none } 0 segment
  clock := fun _ => 0

/-- The same subscriber with the segment replaced, if `latest` stays what it is. -/
theorem observer_replaced (cfg : LLConfig) {segment other : Segment}
    (same : other.header = segment.header)
    : {
        observer cfg segment with
        world := (observer cfg segment).world.setSegment 0 other
      } = observer cfg other := by
  simp only [observer, World.setSegment, same, Subscriber.mk.injEq, World.mk.injEq, true_and,
    and_true]
  funext index
  split <;> rfl

/-- Polling changes nothing for it: by its clock it has just made progress. -/
theorem observer_polls (cfg : LLConfig) (segment : Segment)
    : (poll {}).run (observer cfg segment) = (true, observer cfg segment) := by
  simp [-StateT.run_bind, -StateT.run_pure, Call.run_bind, Call.run_pure, poll, refreshClaim,
    stillOwnsCommands, observer]

/-- Nothing limits the rate of its reads. -/
theorem observer_rateGate (cfg : LLConfig) (segment : Segment)
    : rateGate.run (observer cfg segment) = (true, observer cfg segment) := by
  simp [-StateT.run_bind, -StateT.run_pure, Call.run_bind, Call.run_pure, rateGate, observer]

/-- What it reads from an even slot: the first byte is that of the slot if a frame is
returned, and else untouched.
-/
theorem observer_reads {cfg : LLConfig} {segment : Segment} {slot : Slot}
    (published : segment.header.latest ≠ 0)
    (named : latestSlot segment.header.latest < cfg.slotCount)
    (there : segment.slots (latestSlot segment.header.latest).toNat = slot)
    (even : slot.header.seq &&& 1 = 0) (old : UInt8)
    : ((readLatest {} { bytes := fun _ => old, size := cfg.maxPayload } {}).run
          (observer cfg segment)).1.dst.bytes 0
      = if slot.header.info.payloadBytes.toUInt64 = 0
            ∨ cfg.maxPayload < slot.header.info.payloadBytes.toUInt64 then old
        else slot.payload 0 := by
  have attached : (observer cfg segment).impl.hdr = some 0 := rfl
  have remote : (observer cfg segment).impl.remote = cfg := rfl
  have mapped : (observer cfg segment).world.segments 0 = segment := rfl
  have fresh : (observer cfg segment).impl.nothingNew segment.header.latest = false := by
    unfold LLSubscriber.Impl.nothingNew observer
    split
    · rename_i wrapped
      simp [published, wrapped]
    · rename_i counted
      simp [published, counted]
  have within : ¬ cfg.slotCount ≤ latestSlot segment.header.latest := by simpa using named
  have attempt
      : (readLatest {} { bytes := fun _ => old, size := cfg.maxPayload } {}).run
          (observer cfg segment)
        = (readAttempts 0 { bytes := fun _ => old, size := cfg.maxPayload } {} 4).run
          (observer cfg segment) := by
    simp [-StateT.run_bind, -StateT.run_pure, Call.run_bind, readLatest, observer_polls,
      observer_rateGate, attached]
  rw [attempt, readAttempts]
  simp only [Call.run_bind, Call.run_impl, Call.run_header, mapped, fresh, remote,
    Bool.false_eq_true, if_false, ge_iff_le, within, Call.run_slot, there, even, ne_eq,
    not_true_eq_false, Bool.or_eq_true, decide_eq_true_eq, gt_iff_lt]
  split
  · rfl
  · rename_i taken
    obtain ⟨some_, fits⟩ := not_or.mp taken
    have positive : 0 < slot.header.info.payloadBytes.toNat := by
      rw [← UInt64.toNat_inj, UInt32.toNat_toUInt64] at some_
      exact Nat.pos_of_ne_zero some_
    simp [-StateT.run_bind, -StateT.run_pure, -bind_pure_comp, Call.run_bind, Call.run_pure,
      fits, positive]

/-- The parity test of the source on an even sequence word. -/
theorem PublisherInv.stable {cfg : LLConfig} {p : Publisher} (inv : PublisherInv cfg p)
    (free : p.impl.pending = none) (index : Nat)
    : (p.segment.slots index).header.seq &&& 1 = 0 := by
  have even := inv.parity index
  simp only [free, Option.isSome_none, Bool.false_eq_true, false_and, if_false] at even
  rw [← UInt64.toNat_inj, seq_and_one_toNat, even]
  rfl

/-- As many rounds as it takes to come back to the slot that `latest` names can be seen: the
observer receives whatever byte was stored there last, on the old frame's account.
-/
theorem PublisherInv.visible {cfg : LLConfig} {p : Publisher} (inv : PublisherInv cfg p)
    (bounds : cfg.FrameBounds) (free : p.impl.pending = none)
    (published : p.segment.header.latest ≠ 0) {k : Nat} (enough : p.roundsToLatest ≤ k)
    : ¬ Invisible p k := by
  obtain rfl := inv.handle
  let index := (latestSlot p.segment.header.latest).toNat
  let old := (p.segment.slots index).payload 0
  intro invisible
  obtain ⟨after, done⟩ := Publisher.trials_succeed bounds free (old + 1) k
  obtain ⟨header, stamp, size⟩ := inv.trials_stamp bounds published enough done
  have named := UInt32.lt_iff_toNat_lt.mpr (inv.latest published)
  have before := observer_reads published named rfl (inv.stable free index) old
  have freed : after.impl.pending = none := by
    obtain ⟨impl, -⟩ := Publisher.cancelledRounds_effect bounds inv.selected
      (fun _ _ _ _ _ _ => True.intro) done
    rw [impl]
    exact free
  have later := observer_reads (header ▸ published) (header ▸ named) rfl
    ((inv.cancelledRounds bounds done).stable freed _) old
  obtain ⟨depth, fits⟩ := pixel_bounds bounds
  rw [header] at later
  rw [size, if_neg, stamp] at later
  · have same := invisible _ after List.length_replicate done (observer p.impl.cfg p.segment) 0
      (.raw {}) { bytes := fun _ => old, size := p.impl.cfg.maxPayload } {} rfl
      (World.setSegment_same _ 0 p.segment)
    rw [observer_replaced p.impl.cfg header] at same
    have bytes := congrArg (fun read => read.dst.bytes 0) same
    simp only [ReadCall.perform] at bytes
    rw [before, later] at bytes
    have untouched : old + 1 = old := by
      rw [bytes]
      split <;> rfl
    simp at untouched
  · rw [← UInt64.toNat_inj, UInt64.lt_iff_toNat_lt, UInt32.toNat_toUInt64]
    rintro (empty | large)
    · exact absurd empty (Nat.ne_of_gt depth)
    · omega

/-- From every state of a publisher with nothing pending: rounds of writes that are
cancelled are invisible, and spare the slot that `latest` names, if and only if nothing has
been published yet or there are too few rounds for the rotation to come back to that slot.
-/
theorem cancelledWrite_invisible_iff {cfg : LLConfig} (accepted : cfg.accepted = true)
    {session now : UInt64} {schedule : List PublisherAction} {p : Publisher}
    (reached : publisherMachine.run (.create cfg session now) schedule = some p)
    (free : p.impl.pending = none) (k : Nat)
    : Invisible p k ∧ SparesLatest p k
      ↔ p.segment.header.latest = 0 ∨ k < p.roundsToLatest := by
  have bounds := cfg.accepted_frameBounds accepted
  have inv := PublisherInv.of_run bounds reached
  constructor
  · rintro ⟨invisible, -⟩
    by_contra enough
    obtain ⟨published, back⟩ := not_or.mp enough
    exact inv.visible bounds free published (Nat.not_lt.mp back) invisible
  · intro few
    exact ⟨inv.invisible bounds few, inv.sparesLatest bounds few⟩

/-- Publishes a frame of one pixel that starts with the byte 7. -/
def publishSeven : List PublisherAction :=
  [.beginWrite 1 1 10, .storeByte 0 7, .commit 10 10 10]

/-- Two cancelled writes after the first frame are invisible. -/
theorem cancelledWrite_invisible_twice
    : ∃ p,
        publisherMachine.run (.create {} 1 0) publishSeven = some p
        ∧ p.segment.header.latest = 5
        ∧ Invisible p 2
        ∧ SparesLatest p 2 := by
  have passes
      : (publisherMachine.run (.create {} 1 0) publishSeven).any
          (fun p =>
            p.impl.pending = none ∧ p.segment.header.latest = 5 ∧ 2 < p.roundsToLatest)
        = true := by
    decide +kernel
  obtain ⟨p, reached, tested⟩ := Machine.reaches_of_any passes
  rw [decide_eq_true_eq] at tested
  obtain ⟨free, latest, few⟩ := tested
  exact ⟨p, reached, latest,
    (cancelledWrite_invisible_iff (by decide +kernel) reached free 2).mpr (Or.inr few)⟩

/-- A cancelled write of one pixel that stores the byte 9. -/
def cancelNine : Round where
  width := 1
  height := 1
  now := 20
  stores := [(0, 9)]

/-- The third cancelled write after the first frame selects the slot of that frame, and the
observer reads the byte of the cancelled write.
-/
theorem cancelledWrite_seen
    : ∃ p after,
        publisherMachine.run (.create {} 1 0) publishSeven = some p
        ∧ p.impl.pending = none
        ∧ p.cancelledRounds (List.replicate 3 cancelNine) = some after
        ∧ ((readLatest {} { size := 4096 } {}).run (observer {} p.segment)).1.dst.bytes 0 = 7
        ∧ ((readLatest {} { size := 4096 } {}).run (observer {} after.segment)).1.dst.bytes 0 = 9
        ∧ ¬ Invisible p 3
        ∧ ¬ SparesLatest p 3 := by
  have passes
      : (publisherMachine.run (.create {} 1 0) publishSeven).any
          (fun p =>
            p.impl.pending = none
            ∧ p.segment.header.latest ≠ 0
            ∧ ((readLatest {} { size := 4096 } {}).run (observer {} p.segment)).1.dst.bytes 0 = 7
            ∧ (p.cancelledRounds (List.replicate 3 cancelNine)).any fun after =>
                after.segment.header = p.segment.header
                ∧ after.impl.writeSlot = latestSlot p.segment.header.latest
                ∧ ((readLatest {} { size := 4096 } {}).run
                    (observer {} after.segment)).1.dst.bytes 0 = 9)
        = true := by
    decide +kernel
  obtain ⟨p, reached, tested⟩ := Machine.reaches_of_any passes
  simp only [Option.any_eq_true, decide_eq_true_eq] at tested
  obtain ⟨free, published, seven, after, done, header, selects, nine⟩ := tested
  refine ⟨p, after, reached, free, done, seven, nine, fun invisible => ?_, fun spares => ?_⟩
  · have same := invisible _ after rfl done (observer {} p.segment) 0 (.raw {})
      { size := 4096 } {} rfl (World.setSegment_same _ 0 p.segment)
    rw [observer_replaced {} header] at same
    have bytes := congrArg (fun read => read.dst.bytes 0) same
    simp only [ReadCall.perform] at bytes
    rw [seven, nine] at bytes
    cases bytes
  · exact spares _ after (by decide) (by decide) done published selects

end ShmFrame.Calls
