import Mathlib.Data.Nat.ModEq
import ShmFrame.Frames.Publisher

/-! What the slots and `latest` hold at every cut of the publisher's calls, as long as every
write that was begun is committed. Frame `f` then lives in slot `f % slot_count`.
-/

namespace ShmFrame.Frames

open ShmFrame.Foundation

-----------------------------------------------------------------------------------------
-- Counting frames by slot
-----------------------------------------------------------------------------------------

/-- How many of the frames `1 .. count` live in `slot`. -/
def rounds (slots : Nat) : Nat → Nat → Nat
  | 0, _ => 0
  | count + 1, slot => rounds slots count slot + if (count + 1) % slots = slot then 1 else 0

/-- A slot has seen at most as many frames as were published. -/
theorem rounds_le (slots count slot : Nat) : rounds slots count slot ≤ count := by
  induction count with
  | zero => exact Nat.le_refl 0
  | succ count ih =>
      simp only [rounds]
      split <;> omega

/-- Publishing more frames never lowers a slot's count. -/
theorem rounds_mono {slots fewer more : Nat} (slot : Nat) (le : fewer ≤ more)
    : rounds slots fewer slot ≤ rounds slots more slot := by
  induction le with
  | refl => exact Nat.le_refl _
  | step _ ih => exact ih.trans (Nat.le_add_right _ _)

/-- A slot revisited after frame `frame` has been left alone for a full rotation: the
rotation returns to it no earlier than frame `frame + slots`.
-/
theorem rotation {slots frame later : Nat} (same : later % slots = frame % slots)
    (after : frame < later)
    : frame + slots ≤ later := by
  have divides : slots ∣ later - frame := (Nat.modEq_iff_dvd' after.le).mp same.symm
  have := Nat.le_of_dvd (by omega) divides
  omega

/-- A slot whose count moved past frame `frame` has been through a full rotation. -/
theorem rotation_of_rounds {slots frame count : Nat}
    (more : rounds slots frame (frame % slots) < rounds slots count (frame % slots))
    : frame + slots ≤ count := by
  induction count with
  | zero => simp [rounds] at more
  | succ count ih =>
      simp only [rounds] at more
      split at more
      · rename_i same
        rcases Nat.lt_or_ge frame (count + 1) with after | before
        · exact rotation same after
        · have := @rounds_mono slots _ _ (frame % slots) before
          simp only [rounds, same, if_true] at this
          omega
      · exact (ih more).trans (Nat.le_succ count)

/-- The newest frame of a history that lives in `slot`. -/
def newestIn (slots : Nat) : List Frame → Nat → Option Frame
  | [], _ => none
  | frame :: older, slot =>
      if (older.length + 1) % slots = slot then some frame else newestIn slots older slot

/-- The frames of a history carry the ids `1, 2, ...` in the order of their commits. -/
def Numbered : List Frame → Prop
  | [] => True
  | frame :: older => frame.info.frameId.toNat = older.length + 1 ∧ Numbered older

/-- The values of a history of `latest` name frames `1, 2, ...` in their slots. -/
def Logged (slots : Nat) : List UInt64 → Prop
  | [] => True
  | packed :: older =>
      packed.toNat = 4 * (older.length + 1) + (older.length + 1) % slots
      ∧ Logged slots older

/-- The newest frame of a slot is a frame of the history. -/
theorem newestIn_mem {slots slot : Nat} {history : List Frame} {frame : Frame}
    (newest : newestIn slots history slot = some frame)
    : frame ∈ history := by
  induction history with
  | nil => cases newest
  | cons head older ih =>
      simp only [newestIn] at newest
      split at newest
      · exact Option.some.inj newest ▸ List.mem_cons_self
      · exact List.mem_cons_of_mem _ (ih newest)

/-- A slot named by any published id has a newest frame, and its id is no smaller. -/
theorem newestIn_of_id {slots id : Nat} {history : List Frame}
    (numbered : Numbered history) (positive : 1 ≤ id) (published : id ≤ history.length)
    : ∃ frame, newestIn slots history (id % slots) = some frame
        ∧ id ≤ frame.info.frameId.toNat := by
  induction history with
  | nil =>
      simp only [List.length_nil] at published
      omega
  | cons head older ih =>
      simp only [newestIn]
      split
      · rename_i same
        refine ⟨head, rfl, ?_⟩
        simp only [List.length_cons] at published
        exact numbered.1 ▸ published
      · rename_i different
        refine ih numbered.2 ?_
        simp only [List.length_cons] at published
        by_contra beyond
        exact different (by rw [show id = older.length + 1 by omega])

-----------------------------------------------------------------------------------------
-- The stages of one frame
-----------------------------------------------------------------------------------------

/-- How far the current frame is: not begun, slot chosen, slot marked odd, or stable again
with `latest` still on its predecessor.
-/
inductive Stage
  | idle
  | chosen
  | marked
  | stable
deriving DecidableEq

/-- Frames begun but not yet committed. -/
def Stage.ahead : Stage → Nat
  | .chosen | .marked => 1
  | _ => 0

/-- Frames committed but not yet named by `latest`. -/
def Stage.behind : Stage → Nat
  | .stable => 1
  | _ => 0

/-- How far the sequence word of `index` is past the even value of its committed frames. -/
def Stage.odd (stage : Stage) (writeSlot index : Nat) : Nat :=
  if stage = .marked ∧ index = writeSlot then 1 else 0

/-- The marked slot is one past its even value. -/
theorem Stage.odd_here (writeSlot : Nat) : Stage.odd .marked writeSlot writeSlot = 1 := by
  simp [Stage.odd]

/-- Every other slot is even. -/
theorem Stage.odd_apart {writeSlot index : Nat} (apart : index ≠ writeSlot)
    (stage : Stage)
    : stage.odd writeSlot index = 0 := by
  simp [Stage.odd, apart]

/-- Without a marked slot every slot is even. -/
theorem Stage.odd_unmarked {stage : Stage} (unmarked : stage ≠ .marked)
    (writeSlot index : Nat)
    : stage.odd writeSlot index = 0 := by
  simp [Stage.odd, unmarked]

/-- Incrementing a counter below the top of its range does not wrap. -/
theorem toNat_succ {c : UInt64} (small : c.toNat < 2 ^ 63)
    : (c + 1).toNat = c.toNat + 1 := by
  rw [UInt64.toNat_add]
  exact Nat.mod_eq_of_lt (by simp; omega)

/-- A slot that is not being written holds the newest frame of its share. -/
def HoldsNewest (slots : Nat) (history : List Frame) (index : Nat) (slot : Slot) : Prop :=
  ∀ frame, newestIn slots history index = some frame
    → slot.header.info = frame.info ∧ slot.payload = frame.payload

/-- The publisher's data at one stage of the current frame. `numbering` is 1 once `commit`
has counted the frame, and `unstored` lists the metadata fields of the marked slot that do
not hold the frame's values yet.
-/
structure Stands (cfg : LLConfig) (d : WriterData) (stage : Stage) (numbering : Nat)
    (unstored : List InfoField)
    : Prop where
  config : d.impl.cfg = cfg
  numbered : Numbered d.committed
  logged : Logged cfg.slotCount.toNat d.latestLog
  latest : d.memory.latest = d.latestLog.head?.getD 0
  published : d.latestLog.length + stage.behind = d.committed.length
  frameId : d.impl.frameId.toNat = d.committed.length + numbering
  target : numbering = 1 → d.target.frameId = d.impl.frameId
  writeSlot
    : d.impl.writeSlot.toNat = (d.committed.length + stage.ahead) % cfg.slotCount.toNat
  pending : d.impl.pending = none ∨ d.impl.pending = some d.impl.writeSlot
  sequence
    : ∀ index < cfg.slotCount.toNat,
        (d.memory.slots index).header.seq.toNat
        = 2 * rounds cfg.slotCount.toNat d.committed.length index
          + stage.odd d.impl.writeSlot.toNat index
  contents
    : ∀ index < cfg.slotCount.toNat,
        ¬ (stage = .marked ∧ index = d.impl.writeSlot.toNat)
        → HoldsNewest cfg.slotCount.toNat d.committed index (d.memory.slots index)
  stored
    : stage = .marked
      → ∀ field ∉ unstored,
          field.Agree d.target (d.memory.slots d.impl.writeSlot.toNat).header.info

/-- The writer's invariant while every begun write is committed: where each cut of the
calls stands, and that loaded sequence words are still current.
-/
def WriterInv (cfg : LLConfig) (w : Writer) : Prop :=
  let d := w.toWriterData
  match w.phase with
  | .ready | .closed =>
      d.impl.pending = none ∧ Stands cfg d .idle 0 []
      ∨ d.impl.pending.isSome ∧ Stands cfg d .marked 0 InfoField.commitOrder
  | .beginLoadSeq => d.impl.pending = none ∧ Stands cfg d .chosen 0 []
  | .beginStoreSeq seq =>
      (d.impl.pending = none ∧ seq = d.slot.header.seq) ∧ Stands cfg d .chosen 0 []
  | .beginStoreInfo rest =>
      d.impl.pending = none ∧ Stands cfg d .marked 0 (rest ++ InfoField.commitOrder)
  | .commitStoreInfo rest => d.impl.pending.isSome ∧ Stands cfg d .marked 1 rest
  | .commitLoadSeq => d.impl.pending.isSome ∧ Stands cfg d .marked 1 []
  | .commitStoreSeq seq =>
      (d.impl.pending.isSome ∧ seq = d.slot.header.seq) ∧ Stands cfg d .marked 1 []
  | .commitStoreLatest => d.impl.pending.isSome ∧ Stands cfg d .stable 0 []
  | .commitStoreHeartbeat => d.impl.pending = none ∧ Stands cfg d .idle 0 []
  | .cancelLoadSeq | .cancelStoreSeq _ => False

/-- A fresh segment satisfies the invariant with an empty history. -/
theorem WriterInv.create {cfg : LLConfig} (now : UInt64)
    : WriterInv cfg (Writer.create cfg now) := by
  refine Or.inl ⟨rfl, ?_⟩
  exact {
    config := rfl
    numbered := trivial
    logged := trivial
    latest := rfl
    published := rfl
    frameId := rfl
    target := fun impossible => absurd impossible (by decide)
    writeSlot := by simp [Writer.create, Stage.ahead]
    pending := Or.inl rfl
    sequence := by simp [Writer.create, Stage.odd, rounds]
    contents := by simp [Writer.create, HoldsNewest, newestIn]
    stored := fun impossible => absurd impossible (by decide)
  }

-----------------------------------------------------------------------------------------
-- What each store does to the standing
-----------------------------------------------------------------------------------------

/-- A slot store changes the slot being written and no other. -/
theorem WriterData.storeSlot_slots (d : WriterData) (slot : Slot) (index : Nat)
    : (d.storeSlot slot).memory.slots index
      = if index = d.current then slot else d.memory.slots index := by
  rfl

/-- A slot store is what the publisher then finds in its slot. -/
theorem WriterData.storeSlot_slot (d : WriterData) (slot : Slot)
    : (d.storeSlot slot).slot = slot := by
  rw [WriterData.slot, d.storeSlot_slots]
  exact if_pos rfl

/-- Storing the sequence word changes no other slot and nothing else of its own slot. -/
theorem WriterData.storeSeq_slots (d : WriterData) (seq : UInt64) (index : Nat)
    : (d.storeSeq seq).memory.slots index
      = if index = d.current then { d.slot with header := { d.slot.header with seq } }
        else d.memory.slots index :=
  d.storeSlot_slots _ index

namespace Stands

variable {cfg : LLConfig} {d : WriterData} {stage : Stage} {numbering : Nat}
  {unstored : List InfoField}

/-- A pending write is the one last selected. -/
theorem current_eq (stands : Stands cfg d stage numbering unstored)
    : d.current = d.impl.writeSlot.toNat := by
  rcases stands.pending with none | some
  · simp [WriterData.current, none]
  · simp [WriterData.current, some]

/-- The slot being written is one of the segment's slots. -/
theorem current_lt (stands : Stands cfg d stage numbering unstored)
    (bounds : cfg.FrameBounds)
    : d.current < cfg.slotCount.toNat := by
  rw [stands.current_eq, stands.writeSlot]
  exact Nat.mod_lt _ (by rcases bounds.slots with h | h <;> omega)

/-- Marking the chosen slot makes its sequence word odd; no other slot changes. -/
theorem mark (stands : Stands cfg d .chosen 0 []) (bounds : cfg.FrameBounds)
    (small : d.committed.length < 2 ^ 62)
    : Stands cfg (d.storeSeq (d.slot.header.seq + 1)) .marked 0
        (InfoField.beginOrder ++ InfoField.commitOrder) := by
  have here := stands.current_eq
  have even := stands.sequence d.current (stands.current_lt bounds)
  rw [Stage.odd_unmarked (by decide), Nat.add_zero] at even
  have bound := rounds_le cfg.slotCount.toNat d.committed.length d.current
  exact {
    stands with
    target := fun impossible => absurd impossible (by decide)
    sequence := by
      intro index inside
      change _ = 2 * rounds _ d.committed.length index
        + Stage.odd .marked d.impl.writeSlot.toNat index
      rw [d.storeSeq_slots]
      by_cases same : index = d.current
      · rw [if_pos same, same, ← here, Stage.odd_here, ← even]
        exact toNat_succ (by rw [WriterData.slot, even]; omega)
      · have other := stands.sequence index inside
        rw [Stage.odd_unmarked (by decide)] at other
        rw [if_neg same, Stage.odd_apart (here ▸ same), other]
    contents := by
      intro index inside unmarked
      have apart : index ≠ d.current := fun same => unmarked ⟨rfl, same.trans here⟩
      rw [d.storeSeq_slots, if_neg apart]
      exact stands.contents index inside (by simp)
    stored := by
      intro _ field absent
      cases field <;> simp [InfoField.beginOrder, InfoField.commitOrder] at absent
  }

/-- Any store that keeps the sequence word of the marked slot keeps the standing, once the
fields counted as stored agree with the frame.
-/
theorem overwrite (stands : Stands cfg d .marked numbering unstored) {slot : Slot}
    {remaining : List InfoField}
    (sameSeq : slot.header.seq = d.slot.header.seq)
    (agrees : ∀ field ∉ remaining, field.Agree d.target slot.header.info)
    : Stands cfg (d.storeSlot slot) .marked numbering remaining := by
  have here := stands.current_eq
  exact {
    stands with
    sequence := by
      intro index inside
      rw [d.storeSlot_slots]
      by_cases same : index = d.current
      · subst same
        rw [if_pos rfl, sameSeq]
        exact stands.sequence d.current inside
      · rw [if_neg same]
        exact stands.sequence index inside
    contents := by
      intro index inside unmarked
      have apart : index ≠ d.current := fun same => unmarked ⟨rfl, same.trans here⟩
      rw [d.storeSlot_slots, if_neg apart]
      exact stands.contents index inside (by simpa using here ▸ apart)
    stored := by
      intro _ field absent
      change field.Agree d.target
        ((d.storeSlot slot).memory.slots d.impl.writeSlot.toNat).header.info
      rw [d.storeSlot_slots, if_pos here.symm]
      exact agrees field absent
  }

/-- Storing the first missing field of the frame leaves the others missing. -/
theorem storeField {field : InfoField}
    (stands : Stands cfg d .marked numbering (field :: unstored))
    : Stands cfg (d.storeField field) .marked numbering unstored := by
  refine stands.overwrite rfl ?_
  intro other absent
  by_cases same : other = field
  · subst same
    exact other.agree_copy_self _ _
  · refine (InfoField.agree_copy_other same _ _ _).mpr ?_
    rw [WriterData.slot, stands.current_eq]
    exact stands.stored rfl other (by simp [same, absent])

/-- The caller's payload stores touch no header. -/
theorem storeByte (stands : Stands cfg d .marked numbering unstored) (offset : Nat)
    (byte : UInt8)
    : Stands cfg (d.storeByte offset byte) .marked numbering unstored := by
  refine stands.overwrite rfl ?_
  rw [WriterData.slot, stands.current_eq]
  exact stands.stored rfl

/-- With all fields stored, making the sequence word even again commits the frame: the slot
holds exactly its metadata and payload.
-/
theorem settle (stands : Stands cfg d .marked 1 []) (bounds : cfg.FrameBounds)
    (small : d.committed.length + 1 < 2 ^ 62)
    : Stands cfg (d.storeSeq (d.slot.header.seq + 1)).recordCommit .stable 0 [] := by
  have here := stands.current_eq
  have odd := stands.sequence d.current (stands.current_lt bounds)
  rw [here, Stage.odd_here, ← here] at odd
  have bound := rounds_le cfg.slotCount.toNat d.committed.length d.current
  have place : (d.committed.length + 1) % cfg.slotCount.toNat = d.current :=
    (here.trans stands.writeSlot).symm
  have payload : (d.storeSeq (d.slot.header.seq + 1)).slot.payload = d.slot.payload := by
    rw [WriterData.storeSeq, d.storeSlot_slot]
  have info : d.slot.header.info = d.target := by
    rw [WriterData.slot, here]
    exact (LLFrameInfo.eq_of_agree fun field => stands.stored rfl field (by simp)).symm
  exact {
    stands with
    numbered := by
      refine ⟨?_, stands.numbered⟩
      change d.target.frameId.toNat = _
      rw [stands.target rfl]
      exact stands.frameId
    published := congrArg (· + 1) stands.published
    frameId := stands.frameId
    target := fun impossible => absurd impossible (by decide)
    writeSlot := stands.writeSlot
    sequence := by
      intro index inside
      change ((d.storeSeq _).memory.slots index).header.seq.toNat
        = 2 * rounds _ (d.committed.length + 1) index
          + Stage.odd .stable d.impl.writeSlot.toNat index
      rw [Stage.odd_unmarked (by decide), rounds, place, d.storeSeq_slots]
      by_cases same : index = d.current
      · have next := toNat_succ (c := d.slot.header.seq)
          (by rw [WriterData.slot, odd]; omega)
        rw [if_pos same, if_pos same.symm, same, next, WriterData.slot, odd]
        omega
      · have other := stands.sequence index inside
        rw [Stage.odd_apart (here ▸ same)] at other
        rw [if_neg same, if_neg (Ne.symm same), other]
        omega
    contents := by
      intro index inside _ frame newest
      change newestIn _ (_ :: d.committed) index = some frame at newest
      change ((d.storeSeq _).memory.slots index).header.info = _
        ∧ ((d.storeSeq _).memory.slots index).payload = _
      rw [newestIn, place] at newest
      rw [d.storeSeq_slots]
      by_cases same : index = d.current
      · rw [if_pos same.symm] at newest
        rw [if_pos same, ← Option.some.inj newest]
        exact ⟨info, payload.symm⟩
      · rw [if_neg (Ne.symm same)] at newest
        rw [if_neg same]
        exact stands.contents index inside (fun marked => same (here ▸ marked.2)) frame
          newest
    stored := fun impossible => absurd impossible (by decide)
  }

/-- Storing `latest` names the committed frame in its slot. -/
theorem storeLatest (stands : Stands cfg d .stable 0 []) (bounds : cfg.FrameBounds)
    (small : d.committed.length < 2 ^ 62) (now : UInt64)
    : Stands cfg (d.storeLatest now) .idle 0 [] := by
  have published : d.latestLog.length + 1 = d.committed.length := stands.published
  have frameId : d.impl.frameId.toNat = d.committed.length := stands.frameId
  have writeSlot : d.impl.writeSlot.toNat = d.committed.length % cfg.slotCount.toNat :=
    stands.writeSlot
  have inside : d.impl.writeSlot.toNat < cfg.slotCount.toNat :=
    stands.current_eq ▸ stands.current_lt bounds
  exact {
    stands with
    logged := by
      refine ⟨?_, stands.logged⟩
      rw [packLatest_toNat (by omega) (by rcases bounds.slots with h | h <;> omega),
        frameId, writeSlot, published]
    latest := rfl
    published := published
    target := fun impossible => absurd impossible (by decide)
    pending := Or.inl rfl
    sequence := stands.sequence
    contents := fun index inside _ => stands.contents index inside (by simp)
    stored := fun impossible => absurd impossible (by decide)
  }

/-- `begin_write` returns with the slot it selected pending. -/
theorem returnPointer (stands : Stands cfg d .marked numbering unstored)
    : Stands cfg d.returnPointer .marked numbering unstored :=
  { stands with pending := Or.inr rfl }

/-- An admitted `begin_write` advances to the slot of the next frame. -/
theorem choose (stands : Stands cfg d .idle 0 []) (bounds : cfg.FrameBounds)
    (free : d.impl.pending = none) (target : LLFrameInfo)
    : Stands cfg
        {
          d with
          impl := { d.impl with writeSlot := (d.impl.writeSlot + 1) % cfg.slotCount }
          target
        }
        .chosen 0 [] := by
  have writeSlot : d.impl.writeSlot.toNat = d.committed.length % cfg.slotCount.toNat :=
    stands.writeSlot
  have inside := stands.current_eq ▸ stands.current_lt bounds
  exact {
    stands with
    target := fun impossible => absurd impossible (by decide)
    writeSlot := by
      change ((d.impl.writeSlot + 1) % cfg.slotCount).toNat = _
      rw [UInt32.toNat_mod, UInt32.toNat_add, UInt32.toNat_one,
        Nat.mod_eq_of_lt (a := _ + 1) (by rcases bounds.slots with h | h <;> omega),
        writeSlot, Nat.mod_add_mod]
      rfl
    pending := Or.inl free
    sequence := stands.sequence
    contents := fun index inside _ => stands.contents index inside (by simp)
    stored := fun impossible => absurd impossible (by decide)
  }

/-- Entering `commit` numbers the frame; only fields still to be stored change. -/
theorem number (stands : Stands cfg d .marked 0 InfoField.commitOrder)
    (small : d.committed.length < 2 ^ 62) (timestamp : UInt64)
    : Stands cfg
        {
          d with
          impl := { d.impl with frameId := d.impl.frameId + 1 }
          target := {
            d.target with
            frameId := d.impl.frameId + 1
            timestampNs := timestamp
          }
        }
        .marked 1 InfoField.commitOrder := by
  have frameId : d.impl.frameId.toNat = d.committed.length := stands.frameId
  exact {
    stands with
    frameId := by
      change (d.impl.frameId + 1).toNat = _
      rw [toNat_succ (by omega), frameId]
    target := fun _ => rfl
    stored := by
      intro _ field absent
      have agree := stands.stored rfl field absent
      cases field <;> first
        | exact agree
        | simp [InfoField.commitOrder] at absent
  }

end Stands

-----------------------------------------------------------------------------------------
-- Every step of the publisher keeps the invariant
-----------------------------------------------------------------------------------------

/-- Each access of a call moves the data to the standing of the next cut, by cases on the
cut.
-/
theorem WriterInv.access {cfg : LLConfig} {w next : Writer} {now : UInt64}
    (inv : WriterInv cfg w) (bounds : cfg.FrameBounds)
    (small : next.committed.length < 2 ^ 62) (stepped : w.access now = some next)
    : WriterInv cfg next := by
  obtain ⟨d, phase⟩ := w
  cases phase with
  | ready | closed => cases stepped
  | beginLoadSeq =>
      cases stepped
      exact ⟨⟨inv.1, rfl⟩, inv.2⟩
  | beginStoreSeq seq =>
      obtain ⟨⟨free, loaded⟩, stands⟩ := inv
      have current : seq = d.slot.header.seq := loaded
      subst current
      cases stepped
      exact ⟨free, stands.mark bounds small⟩
  | beginStoreInfo rest =>
      cases rest with
      | nil => cases stepped
      | cons field rest =>
          cases rest with
          | nil =>
              cases stepped
              exact Or.inr ⟨rfl, inv.2.storeField.returnPointer⟩
          | cons second rest =>
              cases stepped
              exact ⟨inv.1, inv.2.storeField⟩
  | cancelLoadSeq | cancelStoreSeq _ => exact inv.elim
  | commitStoreInfo rest =>
      cases rest with
      | nil => cases stepped
      | cons field rest =>
          cases rest <;> cases stepped <;> exact ⟨inv.1, inv.2.storeField⟩
  | commitLoadSeq =>
      cases stepped
      exact ⟨⟨inv.1, rfl⟩, inv.2⟩
  | commitStoreSeq seq =>
      obtain ⟨⟨pending, loaded⟩, stands⟩ := inv
      have current : seq = d.slot.header.seq := loaded
      subst current
      cases stepped
      exact ⟨pending, stands.settle bounds small⟩
  | commitStoreLatest =>
      cases stepped
      exact ⟨rfl, inv.2.storeLatest bounds small now⟩
  | commitStoreHeartbeat =>
      cases stepped
      exact Or.inl ⟨inv.1, { inv.2 with }⟩

/-- Entering `begin_write` either changes a counter or selects the next slot. -/
theorem WriterInv.enterBegin {cfg : LLConfig} {d : WriterData}
    (inv : WriterInv cfg ⟨d, .ready⟩) (bounds : cfg.FrameBounds) (width height : UInt32)
    (now : UInt64)
    : WriterInv cfg (Writer.enterBegin ⟨d, .ready⟩ width height now) := by
  rcases d.impl.admitWrite_cases width height now with
    refused | throttled | ⟨⟨free, _⟩, admitted⟩
  · simp only [Writer.enterBegin, refused]
    exact inv
  · simp only [Writer.enterBegin, throttled]
    exact inv.imp (fun h => ⟨h.1, { h.2 with }⟩) (fun h => ⟨h.1, { h.2 with }⟩)
  · simp only [Writer.enterBegin, admitted, if_true]
    rcases inv with ⟨_, stands⟩ | ⟨pending, _⟩
    · have next := stands.choose bounds free (LLPublisher.geometry d.impl.cfg width height)
      exact ⟨free, stands.config ▸ next⟩
    · exact absurd pending (by simp [free])

/-- Entering `commit` makes no slot stable yet. -/
theorem Writer.enterCommit_committed (w : Writer) (timestamp now : UInt64)
    : (w.enterCommit timestamp now).committed = w.committed := by
  unfold Writer.enterCommit
  split <;> rfl

/-- Entering `commit` with a pending write numbers the frame. -/
theorem WriterInv.enterCommit {cfg : LLConfig} {d : WriterData}
    (inv : WriterInv cfg ⟨d, .ready⟩) (small : d.committed.length < 2 ^ 62)
    (timestamp now : UInt64)
    : WriterInv cfg (Writer.enterCommit ⟨d, .ready⟩ timestamp now) := by
  rcases inv with ⟨free, stands⟩ | ⟨pending, stands⟩
  · have none : d.impl.pending = none := free
    simp only [Writer.enterCommit, none, Option.isSome_none, Bool.false_eq_true, if_false]
    exact Or.inl ⟨free, stands⟩
  · simp only [Writer.enterCommit, pending, if_true]
    exact ⟨pending, stands.number small _⟩

/-- Every step of the publisher that is no cancellation keeps the invariant. -/
theorem WriterInv.step {cfg : LLConfig} {w next : Writer} {action : WriteAction}
    (inv : WriterInv cfg w) (bounds : cfg.FrameBounds) (keeps : action.NoCancel)
    (small : next.committed.length < 2 ^ 62) (stepped : w.step action = some next)
    : WriterInv cfg next := by
  obtain ⟨d, phase⟩ := w
  cases action with
  | access now => exact inv.access bounds small (by cases phase <;> exact stepped)
  | cancelWrite => exact keeps.elim
  | beginWrite width height now =>
      cases phase <;> cases stepped
      exact inv.enterBegin bounds width height now
  | storePayload offset byte =>
      cases phase <;> try cases stepped
      simp only [Writer.step] at stepped
      split at stepped
      · rename_i allowed
        cases stepped
        rcases inv with ⟨free, _⟩ | ⟨pending, stands⟩
        · have none : d.impl.pending = none := free
          simp [none] at allowed
        · exact Or.inr ⟨pending, stands.storeByte offset byte⟩
      · cases stepped
  | commit timestamp now =>
      cases phase <;> cases stepped
      rw [Writer.enterCommit_committed] at small
      exact inv.enterCommit small timestamp now
  | setMaxPublish intervalNs =>
      cases phase <;> cases stepped
      exact inv.imp (fun h => ⟨h.1, { h.2 with }⟩) (fun h => ⟨h.1, { h.2 with }⟩)
  | close =>
      cases phase <;> cases stepped
      exact inv.imp (fun h => ⟨h.1, { h.2 with }⟩) (fun h => ⟨h.1, { h.2 with }⟩)

end ShmFrame.Frames
