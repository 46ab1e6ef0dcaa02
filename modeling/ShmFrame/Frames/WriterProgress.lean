import ShmFrame.Foundation.Seqlock
import ShmFrame.Frames.WriterInvariant

/-! What readers may rely on while the publisher moves: every slot is a sequence lock, and
the histories only grow.
-/

namespace ShmFrame.Frames

open ShmFrame.Foundation

/-- A slot as a sequence lock over its metadata and payload. -/
def slotCell (memory : FrameMemory) (index : Nat) : Versioned (LLFrameInfo × (Nat → UInt8)) where
  version := (memory.slots index).header.seq.toNat
  content := ((memory.slots index).header.info, (memory.slots index).payload)

/-- How the publisher's data may move between two moments of a run. -/
structure Progresses (slots : Nat) (before after : WriterData) : Prop where
  cells
    : ∀ index < slots, (slotCell before.memory index).Evolves (slotCell after.memory index)
  committed : before.committed <:+ after.committed
  log : before.latestLog <:+ after.latestLog

/-- Standing still is progress. -/
theorem Progresses.refl (slots : Nat) (d : WriterData) : Progresses slots d d :=
  ⟨fun _ _ => .refl _, List.suffix_rfl, List.suffix_rfl⟩

/-- A store into one slot is progress when it is legal for that slot. -/
theorem WriterData.storeSlot_progresses {slots : Nat} {d : WriterData} {slot : Slot}
    (legal
      : (slotCell d.memory d.current).Evolves
          ⟨slot.header.seq.toNat, slot.header.info, slot.payload⟩)
    : Progresses slots d (d.storeSlot slot) := by
  refine ⟨fun index _ => ?_, List.suffix_rfl, List.suffix_rfl⟩
  unfold slotCell
  rw [d.storeSlot_slots]
  by_cases same : index = d.current
  · rw [if_pos same, same]
    exact legal
  · rw [if_neg same]
    exact .refl _

namespace Stands

variable {cfg : LLConfig} {d : WriterData} {stage : Stage} {numbering : Nat}
  {unstored : List InfoField}

/-- Raising the sequence word of the current slot is progress. -/
theorem raise_progresses (stands : Stands cfg d stage numbering unstored)
    (bounds : cfg.FrameBounds) (small : d.committed.length < 2 ^ 62)
    : Progresses cfg.slotCount.toNat d (d.storeSeq (d.slot.header.seq + 1)) := by
  have value := stands.sequence d.current (stands.current_lt bounds)
  have bound := rounds_le cfg.slotCount.toNat d.committed.length d.current
  have odd : stage.odd d.impl.writeSlot.toNat d.current ≤ 1 := by
    unfold Stage.odd
    split <;> decide
  have next := toNat_succ (c := d.slot.header.seq) (by rw [WriterData.slot, value]; omega)
  refine WriterData.storeSlot_progresses (.of_lt ?_)
  change d.slot.header.seq.toNat < (d.slot.header.seq + 1).toNat
  omega

/-- Stores into a marked slot that keep its sequence word are progress. -/
theorem overwrite_progresses (stands : Stands cfg d .marked numbering unstored)
    (bounds : cfg.FrameBounds) {slot : Slot}
    (sameSeq : slot.header.seq = d.slot.header.seq)
    : Progresses cfg.slotCount.toNat d (d.storeSlot slot) := by
  have value := stands.sequence d.current (stands.current_lt bounds)
  rw [stands.current_eq, Stage.odd_here, ← stands.current_eq] at value
  refine WriterData.storeSlot_progresses (.of_odd ?_ ?_)
  · exact congrArg UInt64.toNat sameSeq
  · change (d.memory.slots d.current).header.seq.toNat % 2 = 1
    omega

/-- Storing a metadata field of a marked slot is progress. -/
theorem storeField_progresses (stands : Stands cfg d .marked numbering unstored)
    (bounds : cfg.FrameBounds) (field : InfoField)
    : Progresses cfg.slotCount.toNat d (d.storeField field) :=
  stands.overwrite_progresses bounds rfl

end Stands

/-- Each access of the publisher is progress, by cases on the cut. -/
theorem WriterInv.access_progresses {cfg : LLConfig} {w next : Writer} {now : UInt64}
    (inv : WriterInv cfg w) (bounds : cfg.FrameBounds)
    (small : next.committed.length < 2 ^ 62) (stepped : w.access now = some next)
    : Progresses cfg.slotCount.toNat w.toWriterData next.toWriterData := by
  obtain ⟨d, phase⟩ := w
  cases phase with
  | ready | closed => cases stepped
  | beginLoadSeq | commitLoadSeq =>
      cases stepped
      exact .refl _ _
  | beginStoreSeq seq =>
      obtain ⟨⟨_, loaded⟩, stands⟩ := inv
      have current : seq = d.slot.header.seq := loaded
      subst current
      cases stepped
      exact stands.raise_progresses bounds small
  | beginStoreInfo rest =>
      rcases rest with _ | ⟨field, _ | ⟨second, rest⟩⟩
      · cases stepped
      · cases stepped
        exact { inv.2.storeField_progresses bounds field with }
      · cases stepped
        exact inv.2.storeField_progresses bounds field
  | cancelLoadSeq | cancelStoreSeq _ => exact inv.elim
  | commitStoreInfo rest =>
      rcases rest with _ | ⟨field, _ | ⟨second, rest⟩⟩
      · cases stepped
      · cases stepped
        exact inv.2.storeField_progresses bounds field
      · cases stepped
        exact inv.2.storeField_progresses bounds field
  | commitStoreSeq seq =>
      obtain ⟨⟨_, loaded⟩, stands⟩ := inv
      have current : seq = d.slot.header.seq := loaded
      subst current
      cases stepped
      have fewer : d.committed.length < 2 ^ 62 := Nat.lt_of_succ_lt small
      exact {
        stands.raise_progresses bounds fewer with
        committed := List.suffix_cons _ _
      }
  | commitStoreLatest =>
      cases stepped
      exact {
        cells := fun _ _ => .refl _
        committed := List.suffix_rfl
        log := List.suffix_cons _ _
      }
  | commitStoreHeartbeat =>
      cases stepped
      exact ⟨fun _ _ => .refl _, List.suffix_rfl, List.suffix_rfl⟩

/-- Every step of the publisher is progress. -/
theorem WriterInv.step_progresses {cfg : LLConfig} {w next : Writer} {action : WriteAction}
    (inv : WriterInv cfg w) (bounds : cfg.FrameBounds) (keeps : action.NoCancel)
    (small : next.committed.length < 2 ^ 62) (stepped : w.step action = some next)
    : Progresses cfg.slotCount.toNat w.toWriterData next.toWriterData := by
  obtain ⟨d, phase⟩ := w
  cases action with
  | access now =>
      exact inv.access_progresses bounds small (by cases phase <;> exact stepped)
  | cancelWrite => exact keeps.elim
  | beginWrite width height now =>
      cases phase <;> cases stepped
      rcases d.impl.admitWrite_cases width height now with refused | throttled | ⟨_, admitted⟩
      · simp only [Writer.enterBegin, refused]
        exact .refl _ _
      · simp only [Writer.enterBegin, throttled]
        exact ⟨fun _ _ => .refl _, List.suffix_rfl, List.suffix_rfl⟩
      · simp only [Writer.enterBegin, admitted, if_true]
        exact ⟨fun _ _ => .refl _, List.suffix_rfl, List.suffix_rfl⟩
  | storePayload offset byte =>
      cases phase <;> try cases stepped
      simp only [Writer.step] at stepped
      split at stepped
      · rename_i allowed
        cases stepped
        rcases inv with ⟨free, _⟩ | ⟨_, stands⟩
        · have none : d.impl.pending = none := free
          simp [none] at allowed
        · exact stands.overwrite_progresses bounds rfl
      · cases stepped
  | commit timestamp now =>
      cases phase <;> cases stepped
      simp only [Writer.enterCommit]
      split
      · exact ⟨fun _ _ => .refl _, List.suffix_rfl, List.suffix_rfl⟩
      · exact .refl _ _
  | setMaxPublish intervalNs | close =>
      cases phase <;> cases stepped
      exact ⟨fun _ _ => .refl _, List.suffix_rfl, List.suffix_rfl⟩

end ShmFrame.Frames
