import ShmFrame.Frames.ReaderInvariant

/-! Every committed frame has a payload within the limits the reader checks, as long as
every `begin_write` asks for a geometry whose exact size is in range.
-/

namespace ShmFrame.Frames

open ShmFrame.Foundation

/-- A payload size that `read_latest` does not reject. -/
def Sized (cfg : LLConfig) (info : LLFrameInfo) : Prop :=
  1 ≤ info.payloadBytes.toNat ∧ info.payloadBytes.toNat ≤ cfg.maxPayload.toNat

/-- `target` holds a geometry: some `begin_write` was admitted and has not ended yet. -/
def Writer.Writing (w : Writer) : Prop :=
  match w.phase with
  | .ready | .closed => w.impl.pending.isSome
  | .commitStoreHeartbeat => False
  | _ => True

/-- The sizes a publisher has committed and is about to commit are in range. -/
structure SizesInv (cfg : LLConfig) (w : Writer) : Prop where
  config : w.impl.cfg = cfg
  target : w.Writing → Sized cfg w.target
  committed : ∀ frame ∈ w.committed, Sized cfg frame.info
  free : w.phase = .commitStoreHeartbeat → w.impl.pending = none

/-- In range the 64-bit product of `begin_write` and its 32-bit truncation are exact. -/
theorem LLPublisher.geometry_sized {cfg : LLConfig} (bounds : cfg.FrameBounds)
    {width height : UInt32} {now : UInt64}
    (inRange : (WriteAction.beginWrite width height now).InRange cfg)
    : Sized cfg (LLPublisher.geometry cfg width height) := by
  obtain ⟨positive, fits⟩ := inRange
  have small := bounds.small
  have depth := bounds.depth
  have area : width.toNat * height.toNat ≤ cfg.exactBytes width height :=
    Nat.le_mul_of_pos_right _ depth
  have exact64
      : (LLPublisher.frameBytes cfg width height).toNat = cfg.exactBytes width height := by
    simp only [LLPublisher.frameBytes, UInt64.toNat_mul, UInt32.toNat_toUInt64]
    rw [Nat.mod_eq_of_lt (a := width.toNat * height.toNat) (by omega)]
    exact Nat.mod_eq_of_lt (by rw [LLConfig.exactBytes] at fits; omega)
  have exact32
      : (LLPublisher.geometry cfg width height).payloadBytes.toNat
        = cfg.exactBytes width height := by
    rw [LLPublisher.geometry, UInt64.toNat_toUInt32, exact64]
    exact Nat.mod_eq_of_lt (by omega)
  exact ⟨exact32 ▸ positive, exact32 ▸ fits⟩

/-- A fresh publisher has committed nothing. -/
theorem SizesInv.create (cfg : LLConfig) (now : UInt64)
    : SizesInv cfg (Writer.create cfg now) where
  config := rfl
  target := fun writing => by simp [Writer.Writing, Writer.create] at writing
  committed := by simp [Writer.create]
  free := fun heartbeat => by simp [Writer.create] at heartbeat

/-- Each access keeps the sizes, by cases on the cut. -/
theorem SizesInv.access {cfg : LLConfig} {w next : Writer} {now : UInt64}
    (inv : SizesInv cfg w) (stepped : w.access now = some next)
    : SizesInv cfg next := by
  obtain ⟨d, phase⟩ := w
  obtain ⟨config, target, committed, free⟩ := inv
  -- Inside a call that writes, an access keeps `target` and commits no other frame.
  have inside {after : Writer} (sized : Sized cfg d.target)
      (sameTarget : after.target = d.target) (sameConfig : after.impl.cfg = d.impl.cfg)
      (frames : ∀ frame ∈ after.committed, frame ∈ d.committed ∨ frame.info = d.target)
      (apart : after.phase ≠ .commitStoreHeartbeat)
      : SizesInv cfg after := {
    config := sameConfig.trans config
    target := fun _ => sameTarget ▸ sized
    committed := fun frame member => by
      rcases frames frame member with old | new
      · exact committed frame old
      · exact new ▸ sized
    free := fun heartbeat => absurd heartbeat apart
  }
  cases phase with
  | ready | closed => cases stepped
  | beginLoadSeq | beginStoreSeq _ | commitLoadSeq | cancelLoadSeq =>
      cases stepped
      exact inside (target trivial) rfl rfl (fun _ => Or.inl) (by simp)
  | beginStoreInfo rest | commitStoreInfo rest =>
      rcases rest with _ | ⟨field, _ | ⟨second, rest⟩⟩
      · cases stepped
      · cases stepped
        exact inside (target trivial) rfl rfl (fun _ => Or.inl) (by simp)
      · cases stepped
        exact inside (target trivial) rfl rfl (fun _ => Or.inl) (by simp)
  | cancelStoreSeq _ =>
      cases stepped
      exact inside (target trivial) rfl rfl (fun _ => Or.inl) (by simp)
  | commitStoreSeq seq =>
      cases stepped
      refine inside (target trivial) rfl rfl (fun frame member => ?_) (by simp)
      rcases List.mem_cons.mp member with rfl | old
      · exact Or.inr rfl
      · exact Or.inl old
  | commitStoreLatest =>
      cases stepped
      exact ⟨config, fun writing => writing.elim, committed, fun _ => rfl⟩
  | commitStoreHeartbeat =>
      cases stepped
      have none : d.impl.pending = none := free rfl
      exact ⟨config, fun writing => by simp [Writer.Writing, WriterData.storeHeartbeat, none]
        at writing, committed, fun heartbeat => by simp at heartbeat⟩

/-- Every step in range keeps the sizes. -/
theorem SizesInv.step {cfg : LLConfig} {w next : Writer} {action : WriteAction}
    (inv : SizesInv cfg w) (bounds : cfg.FrameBounds) (inRange : action.InRange cfg)
    (stepped : w.step action = some next)
    : SizesInv cfg next := by
  obtain ⟨d, phase⟩ := w
  cases action with
  | access now => exact inv.access (by cases phase <;> exact stepped)
  | beginWrite width height now =>
      cases phase <;> cases stepped
      have config : d.impl.cfg = cfg := inv.config
      rcases d.impl.admitWrite_cases width height now with refused | throttled | ⟨_, admitted⟩
      · simp only [Writer.enterBegin, refused]
        exact inv
      · simp only [Writer.enterBegin, throttled]
        exact ⟨inv.config, inv.target, inv.committed, inv.free⟩
      · simp only [Writer.enterBegin, admitted, if_true, config]
        exact ⟨rfl, fun _ => LLPublisher.geometry_sized bounds inRange, inv.committed,
          fun heartbeat => by simp at heartbeat⟩
  | storePayload offset byte =>
      cases phase <;> try cases stepped
      simp only [Writer.step] at stepped
      split at stepped
      · cases stepped
        exact ⟨inv.config, inv.target, inv.committed, inv.free⟩
      · cases stepped
  | commit timestamp now =>
      cases phase <;> cases stepped
      unfold Writer.enterCommit
      split
      · rename_i pending
        exact ⟨inv.config, fun _ => inv.target pending, inv.committed,
          fun heartbeat => by simp at heartbeat⟩
      · exact inv
  | cancelWrite =>
      cases phase <;> cases stepped
      split
      · rename_i pending
        exact ⟨inv.config, fun _ => inv.target pending, inv.committed,
          fun heartbeat => by simp at heartbeat⟩
      · exact inv
  | setMaxPublish intervalNs =>
      cases phase <;> cases stepped
      exact ⟨inv.config, inv.target, inv.committed, inv.free⟩
  | close =>
      cases phase <;> cases stepped
      exact ⟨inv.config, inv.target, inv.committed, fun heartbeat => by simp at heartbeat⟩

/-- Readers do not touch the publisher, so every step of the system keeps the sizes. -/
theorem SizesInv.system_step {cfg : LLConfig} {s next : State} {action : Action}
    (inv : SizesInv cfg s.writer) (bounds : cfg.FrameBounds)
    (inRange : action.Writes (WriteAction.InRange cfg))
    (stepped : s.step action = some next)
    : SizesInv cfg next.writer := by
  cases action with
  | write action =>
      obtain ⟨writer, moved, rfl⟩ := Option.map_eq_some_iff.mp stepped
      exact inv.step bounds inRange moved
  | _ =>
      obtain ⟨r, _, rfl⟩ := Option.map_eq_some_iff.mp stepped
      exact inv

end ShmFrame.Frames
