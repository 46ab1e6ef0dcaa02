import ShmFrame.Calls.Publisher

/-! What holds between the calls of a publisher, and what its calls do to the segment.
-/

namespace ShmFrame.Calls

open ShmFrame.Foundation

-----------------------------------------------------------------------------------------
-- Reachable publishers
-----------------------------------------------------------------------------------------

/-- What holds between the calls of a publisher: sequence words are odd exactly in the slot
being written, and `latest` names a slot there is.
-/
structure PublisherInv (cfg : LLConfig) (p : Publisher) : Prop where
  handle : p.impl.cfg = cfg
  selected : p.impl.writeSlot.toNat < cfg.slotCount.toNat
  pending : p.impl.pending = none ∨ p.impl.pending = some p.impl.writeSlot
  parity
    : ∀ index,
        (p.segment.slots index).header.seq.toNat % 2
        = if p.impl.pending.isSome ∧ index = p.impl.writeSlot.toNat then 1 else 0
  latest
    : p.segment.header.latest ≠ 0
      → (latestSlot p.segment.header.latest).toNat < cfg.slotCount.toNat

/-- A publisher that has just been created satisfies the invariant. -/
theorem PublisherInv.create {cfg : LLConfig} (bounds : cfg.FrameBounds) (session now : UInt64)
    : PublisherInv cfg (.create cfg session now) where
  handle := rfl
  selected := by
    have := bounds.slots
    change 0 < _
    omega
  pending := Or.inl rfl
  parity := fun index => rfl
  latest := fun published => absurd rfl published

/-- The rotation stays below the number of slots. -/
theorem rotate_toNat {cfg : LLConfig} (bounds : cfg.FrameBounds) {slot : UInt32}
    (inside : slot.toNat < cfg.slotCount.toNat)
    : ((slot + 1) % cfg.slotCount).toNat = (slot.toNat + 1) % cfg.slotCount.toNat := by
  have few := bounds.slots
  rw [UInt32.toNat_mod, UInt32.toNat_add]
  simp only [UInt32.reduceToNat]
  congr 1
  omega

/-- The slot the rotation selects next. -/
def Publisher.upcoming (p : Publisher) : UInt32 :=
  (p.impl.writeSlot + 1) % p.impl.cfg.slotCount

/-- A stored slot is what is then found there. -/
@[simp] theorem Publisher.setSlot_same (p : Publisher) (index : Nat) (slot : Slot)
    : (p.setSlot index slot).segment.slots index = slot :=
  if_pos rfl

/-- Of the segment only one slot changes. -/
structure Alters (index : Nat) (before after : Publisher) : Prop where
  rest : after.segment = { before.segment with slots := after.segment.slots }
  apart : ∀ other, other ≠ index → after.segment.slots other = before.segment.slots other

/-- Storing a slot changes that slot only. -/
theorem Alters.setSlot (p : Publisher) (index : Nat) (slot : Slot)
    : Alters index p (p.setSlot index slot) :=
  ⟨rfl, fun _ elsewhere => if_neg elsewhere⟩

/-- Changes of the same slot add up. -/
theorem Alters.trans {index : Nat} {first second third : Publisher}
    (one : Alters index first second) (two : Alters index second third)
    : Alters index first third where
  rest := by
    rw [two.rest, one.rest]
  apart := fun other elsewhere =>
    (two.apart other elsewhere).trans (one.apart other elsewhere)

/-- A `begin_write` that returns a pointer found nothing pending; it advances the rotation
and marks the selected slot.
-/
theorem Publisher.beginWrite_pointer {p begun : Publisher} {width height : UInt32}
    {now : UInt64} (returns : p.beginWrite width height now = (begun, true))
    : p.impl.pending = none
      ∧ begun.impl = { p.impl with writeSlot := p.upcoming, pending := some p.upcoming }
      ∧ Alters p.upcoming.toNat p begun
      ∧ (begun.segment.slots p.upcoming.toNat).header.seq
        = (p.segment.slots p.upcoming.toNat).header.seq + 1
      ∧ (begun.segment.slots p.upcoming.toNat).header.info.payloadBytes
        = (LLPublisher.frameBytes p.impl.cfg width height).toUInt32
      ∧ (begun.segment.slots p.upcoming.toNat).payload
        = (p.segment.slots p.upcoming.toNat).payload := by
  unfold Publisher.beginWrite at returns
  obtain refused | counted | ⟨⟨free, -⟩, admitted⟩ :=
    p.impl.admitWrite_cases width height now
  · simp [refused] at returns
  · simp [counted] at returns
  · rw [admitted] at returns
    cases returns
    refine ⟨free, rfl, ⟨rfl, fun _ elsewhere => if_neg elsewhere⟩, ?_, ?_, ?_⟩
    all_goals
      simp [Publisher.upcoming, Publisher.slot, LLPublisher.geometry]

/-- Any other `begin_write` at most counts a throttled call. -/
theorem Publisher.beginWrite_refused {p begun : Publisher} {width height : UInt32}
    {now : UInt64} (returns : p.beginWrite width height now = (begun, false))
    : begun = p ∨ begun = { p with impl := { p.impl with throttled := p.impl.throttled + 1 } } := by
  unfold Publisher.beginWrite at returns
  obtain refused | counted | ⟨-, admitted⟩ := p.impl.admitWrite_cases width height now
  · rw [refused] at returns
    cases returns
    exact Or.inl rfl
  · rw [counted] at returns
    cases returns
    exact Or.inr rfl
  · simp [admitted] at returns

namespace PublisherInv

variable {cfg : LLConfig} {p next : Publisher}

/-- Marking the next slot keeps the invariant. -/
theorem begun (inv : PublisherInv cfg p) (bounds : cfg.FrameBounds) {width height : UInt32}
    {now : UInt64} (returns : p.beginWrite width height now = (next, true))
    : PublisherInv cfg next := by
  obtain ⟨free, impl, alters, seq, -, -⟩ := Publisher.beginWrite_pointer returns
  have few := bounds.slots
  have handle : next.impl.cfg = cfg := by
    rw [impl]
    exact inv.handle
  have upcoming : p.upcoming.toNat = (p.impl.writeSlot.toNat + 1) % cfg.slotCount.toNat := by
    rw [Publisher.upcoming, inv.handle]
    exact rotate_toNat bounds inv.selected
  refine ⟨handle, ?_, Or.inr (by rw [impl]), fun index => ?_, ?_⟩
  · rw [impl, upcoming]
    exact Nat.mod_lt _ (by omega)
  · have parity := inv.parity index
    simp only [free, Option.isSome_none, Bool.false_eq_true, false_and, if_false] at parity
    rw [impl]
    simp only [Option.isSome_some, true_and]
    split
    · rename_i here
      rw [here, seq, seq_succ_parity, ← here, parity]
    · rename_i elsewhere
      rw [alters.apart index elsewhere, parity]
  · rw [alters.rest]
    exact inv.latest

/-- Storing a byte keeps the invariant. -/
theorem storeByte (inv : PublisherInv cfg p) {offset : Nat} {byte : UInt8}
    (stored : p.storeByte offset byte = some next)
    : PublisherInv cfg next := by
  unfold Publisher.storeByte at stored
  split at stored
  · split at stored
    · cases stored
      refine ⟨inv.handle, inv.selected, inv.pending, fun index => ?_, inv.latest⟩
      simp only [Publisher.setSlot]
      split
      · rename_i here
        subst here
        exact inv.parity _
      · exact inv.parity index
    · cases stored
  · cases stored

/-- Making the pending slot's sequence word even again leaves all of them even. -/
theorem stepSeq_even (inv : PublisherInv cfg p) {slot : UInt32}
    (pending : p.impl.pending = some slot) (index : Nat)
    : ((p.stepSeq slot).segment.slots index).header.seq.toNat % 2 = 0 := by
  have parity := inv.parity index
  obtain none_ | selected := inv.pending
  · rw [none_] at pending
    cases pending
  obtain rfl := Option.some.inj (pending.symm.trans selected)
  simp only [pending, Option.isSome_some, true_and] at parity
  simp only [Publisher.stepSeq, Publisher.setSlot]
  split at parity
  · rename_i here
    subst here
    simp only [if_true, seq_succ_parity, parity]
  · rename_i elsewhere
    simp only [elsewhere, if_false, parity]

/-- `cancel_write` keeps the invariant. -/
theorem cancelWrite (inv : PublisherInv cfg p) : PublisherInv cfg p.cancelWrite := by
  unfold Publisher.cancelWrite
  split
  · exact inv
  · rename_i slot pending
    refine ⟨inv.handle, inv.selected, Or.inl rfl, fun index => ?_, inv.latest⟩
    simpa using inv.stepSeq_even pending index

/-- Storing metadata keeps the invariant. -/
theorem storeInfo (inv : PublisherInv cfg p) (slot : UInt32) (info : LLFrameInfo)
    : PublisherInv cfg
        (p.setSlot slot.toNat
          {
            p.segment.slots slot.toNat with
            header := { (p.segment.slots slot.toNat).header with info }
          }) := by
  refine ⟨inv.handle, inv.selected, inv.pending, fun index => ?_, inv.latest⟩
  simp only [Publisher.setSlot]
  split
  · rename_i here
    subst here
    exact inv.parity _
  · exact inv.parity index

/-- `commit` keeps the invariant: `latest` names the slot that was being written. -/
theorem commit (inv : PublisherInv cfg p) (bounds : cfg.FrameBounds)
    (timestamp now published : UInt64)
    : PublisherInv cfg (p.commit timestamp now published) := by
  have few := bounds.slots
  have inside := inv.selected
  unfold Publisher.commit
  split
  · exact inv
  · rename_i slot pending
    refine ⟨inv.handle, inv.selected, Or.inl rfl, fun index => ?_, fun _ => ?_⟩
    · simpa using (inv.storeInfo slot _).stepSeq_even pending index
    · change (latestSlot (packLatest _ p.impl.writeSlot)).toNat < cfg.slotCount.toNat
      rw [latestSlot_packLatest _ (by omega)]
      exact inv.selected

/-- Every action keeps the invariant, by cases. -/
theorem step (inv : PublisherInv cfg p) (bounds : cfg.FrameBounds)
    {action : PublisherAction} (stepped : p.step action = some next)
    : PublisherInv cfg next := by
  cases action with
  | beginWrite width height now =>
      cases stepped
      cases returns : p.beginWrite width height now with
      | mk begun pointer =>
          cases pointer with
          | true => exact inv.begun bounds returns
          | false =>
              obtain rfl | rfl := Publisher.beginWrite_refused returns
              · exact inv
              · exact { inv with }
  | storeByte offset byte => exact inv.storeByte stepped
  | cancelWrite =>
      cases stepped
      exact inv.cancelWrite
  | commit timestamp now published =>
      cases stepped
      exact inv.commit bounds timestamp now published
  | heartbeat now | setMaxPublish intervalNs | subscribers gen beat down up =>
      cases stepped
      exact { inv with }

/-- Every publisher that calls can lead to satisfies the invariant. -/
theorem of_run (bounds : cfg.FrameBounds) {session now : UInt64}
    {schedule : List PublisherAction}
    (reached : publisherMachine.run (.create cfg session now) schedule = some p)
    : PublisherInv cfg p :=
  Machine.invariant_of_reached (PublisherInv cfg) (fun _ _ _ inv stepped => inv.step bounds stepped)
    (.create bounds session now) reached

end PublisherInv

end ShmFrame.Calls
