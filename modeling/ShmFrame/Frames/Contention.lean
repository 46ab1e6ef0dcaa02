import Mathlib.Algebra.Order.BigOperators.Group.List
import ShmFrame.Frames.FrameSizes
import ShmFrame.Frames.NoTearing

/-! `Contended` means having been lapped: an attempt is given up only after the publisher
went once around the other slots while the attempt lasted.
-/

namespace ShmFrame.Frames

open ShmFrame.Foundation

/-- The attempt a call of `read_latest` is in. -/
def ReadPhase.attempt : ReadPhase → Option Nat
  | .ready | .loadShutdown => none
  | .loadLatest attempt => some attempt
  | .loadSeq attempt _ => some attempt
  | .loadInfo attempt _ _ _ _ => some attempt
  | .copy attempt _ _ _ _ => some attempt
  | .recheck attempt _ _ _ _ => some attempt

/-- The history of `latest` up to which the finished attempts of the call extend. -/
def Reader.settled (r : Reader) (log : List UInt64) : List UInt64 :=
  match r.phase with
  | .loadLatest _ => log
  | _ => r.attemptLog

/-- The attempts a call has given up were all lapped, in disjoint stretches of the history
of `latest`.
-/
structure LapInv (cfg : LLConfig) (log : List UInt64) (r : Reader) : Prop where
  lapped : ∀ lap ∈ r.laps, cfg.slotCount.toNat - 1 ≤ lap
  counted : ∀ attempt, r.phase.attempt = some attempt → r.laps.length = attempt ∧ attempt < 4
  disjoint
    : r.phase.attempt.isSome → r.callLog.length + r.laps.sum ≤ (r.settled log).length
  oversized
    : ∀ attempt packed before info,
        r.phase = .recheck attempt packed before info .badSize → ¬ Sized cfg info
  contended
    : r.result = some .contended
      → r.laps.length = 4
        ∧ r.callLog.length + r.laps.sum ≤ r.returnLog.length
        ∧ r.callLog <:+ r.returnLog
  returned : r.returnLog <:+ log

/-- A subscriber that never read satisfies the invariant. -/
theorem LapInv.create {cfg : LLConfig} (impl : LLSubscriber.Impl)
    : LapInv cfg [] { impl := impl } where
  lapped := by simp
  counted := fun _ reading => by simp [ReadPhase.attempt] at reading
  disjoint := fun reading => by simp [ReadPhase.attempt] at reading
  oversized := fun _ _ _ _ recheck => by simp at recheck
  contended := fun contended => by simp at contended
  returned := List.suffix_rfl

/-- A watched slot whose sequence word moved past the watched frame has been reached by a
full rotation, all but the last frame of which `latest` has already named.
-/
theorem Stands.rotated {cfg : LLConfig} {d : WriterData} {stage : Stage} {numbering : Nat}
    {unstored : List InfoField} {call attempt : List UInt64} {packed : UInt64}
    (stands : Stands cfg d stage numbering unstored) (bounds : cfg.FrameBounds)
    (watches : Watches cfg d call attempt packed)
    (moved
      : 2 * rounds cfg.slotCount.toNat attempt.length
          (attempt.length % cfg.slotCount.toNat)
        < (d.memory.slots (latestSlot packed).toNat).header.seq.toNat)
    : cfg.slotCount.toNat - 1 ≤ d.latestLog.length - attempt.length := by
  have watched := stands.watched_le watches
  have published := stands.published
  have value := stands.sequence _ (watches.inside bounds)
  rw [watches.slot] at value moved
  by_cases marked : stage = .marked ∧ attempt.length % cfg.slotCount.toNat
      = d.impl.writeSlot.toNat
  · -- The publisher is inside the slot: its next frame lives where the watched one does.
    obtain ⟨rfl, here⟩ := marked
    have place := stands.writeSlot
    simp only [Stage.ahead, Stage.behind] at place published
    have far := rotation (place.symm.trans here.symm) (by omega)
    omega
  · -- The slot is stable: a later frame of the same slot has been committed.
    have even : stage.odd d.impl.writeSlot.toNat (attempt.length % cfg.slotCount.toNat) = 0 :=
      if_neg marked
    rw [even] at value
    have far := @rotation_of_rounds cfg.slotCount.toNat attempt.length d.committed.length
      (by omega)
    have behind : stage.behind ≤ 1 := by cases stage <;> decide
    omega

namespace LapInv

variable {cfg : LLConfig} {log : List UInt64} {r : Reader}

/-- More values of `latest` leave the finished attempts where they were. -/
theorem extend (inv : LapInv cfg log r) {longer : List UInt64} (suffix : log <:+ longer)
    : LapInv cfg longer r := by
  refine { inv with
    disjoint := fun reading => ?_
    returned := inv.returned.trans suffix }
  have before := inv.disjoint reading
  have grown := suffix.length_le
  unfold Reader.settled at before ⊢
  split at before
  · omega
  · exact before

/-- Returning anything but `Contended` ends the call. -/
theorem ends (inv : LapInv cfg log r) {after : Reader} (laps : after.laps = r.laps)
    (ready : after.phase = .ready) (other : after.result ≠ some .contended)
    (returned : after.returnLog = log)
    : LapInv cfg log after where
  lapped := laps ▸ inv.lapped
  counted := fun _ reading => by simp [ready, ReadPhase.attempt] at reading
  disjoint := fun reading => by simp [ready, ReadPhase.attempt] at reading
  oversized := fun _ _ _ _ recheck => by simp [ready] at recheck
  contended := fun contended => absurd contended other
  returned := returned ▸ List.suffix_rfl

/-- Giving up a lapped attempt adds its stretch to the finished ones. -/
theorem retry (inv : LapInv cfg log r) {attempt : Nat}
    (reading : r.phase.attempt = some attempt) (settled : r.settled log = r.attemptLog)
    (call : r.callLog <:+ r.attemptLog) (current : r.attemptLog <:+ log)
    (silent : r.result = none)
    (lap : cfg.slotCount.toNat - 1 ≤ log.length - r.attemptLog.length)
    : LapInv cfg log (r.retry attempt log) := by
  obtain ⟨count, few⟩ := inv.counted attempt reading
  have disjoint := inv.disjoint (by rw [reading]; rfl)
  rw [settled] at disjoint
  have grown := current.length_le
  have lapped : ∀ lap ∈ (log.length - r.attemptLog.length) :: r.laps,
      cfg.slotCount.toNat - 1 ≤ lap := by
    intro other member
    rcases List.mem_cons.mp member with rfl | old
    · exact lap
    · exact inv.lapped other old
  have longer
      : r.callLog.length + ((log.length - r.attemptLog.length) :: r.laps).sum
        ≤ log.length := by
    rw [List.sum_cons]
    omega
  unfold Reader.retry
  dsimp only
  split
  · rename_i more
    exact {
      lapped := lapped
      counted := fun next reading => by
        obtain rfl := Option.some.inj reading
        exact ⟨by rw [List.length_cons, count], more⟩
      disjoint := fun _ => longer
      oversized := fun _ _ _ _ recheck => by simp at recheck
      contended := fun contended => by simp [silent] at contended
      returned := inv.returned
    }
  · rename_i last
    exact {
      lapped := lapped
      counted := fun _ reading => by simp [Reader.finish, ReadPhase.attempt] at reading
      disjoint := fun reading => by simp [Reader.finish, ReadPhase.attempt] at reading
      oversized := fun _ _ _ _ recheck => by simp [Reader.finish] at recheck
      contended := fun _ =>
        ⟨by simp only [Reader.finish, List.length_cons]; omega, longer, call.trans current⟩
      returned := List.suffix_rfl
    }

/-- Going on within an attempt keeps the finished ones. -/
theorem proceed (inv : LapInv cfg log r) {phase : ReadPhase}
    (same : phase.attempt = r.phase.attempt)
    (stays : ∀ attempt, phase ≠ .loadLatest attempt)
    (settled : r.settled log = r.attemptLog)
    (oversized
      : ∀ attempt packed before info,
          phase = .recheck attempt packed before info .badSize → ¬ Sized cfg info)
    : LapInv cfg log { r with phase } where
  lapped := inv.lapped
  counted := fun attempt reading => inv.counted attempt (same ▸ reading)
  disjoint := fun reading => by
    have before := inv.disjoint (same ▸ reading)
    rw [settled] at before
    cases phase with
    | loadLatest attempt => exact absurd rfl (stays attempt)
    | _ => exact before
  oversized := oversized
  contended := inv.contended
  returned := inv.returned

/-- The size checks reject only sizes out of range. -/
theorem checkSize (inv : LapInv cfg log r) {attempt : Nat} {packed before : UInt64}
    {info : LLFrameInfo} (reading : r.phase.attempt = some attempt)
    (settled : r.settled log = r.attemptLog)
    (remote : r.impl.remote.maxPayload = cfg.maxPayload)
    : LapInv cfg log (r.checkSize attempt packed before info) := by
  unfold Reader.checkSize
  dsimp only
  split
  · rename_i rejected
    refine inv.proceed reading.symm (by simp) settled ?_
    rintro _ _ _ _ recheck ⟨positive, fits⟩
    cases recheck
    simp only [Bool.or_eq_true, decide_eq_true_eq, remote, gt_iff_lt,
      UInt64.lt_iff_toNat_lt, UInt32.toNat_toUInt64] at rejected
    rcases rejected with zero | large
    · have := congrArg UInt64.toNat zero
      rw [UInt32.toNat_toUInt64, UInt64.toNat_zero] at this
      omega
    · omega
  split
  · exact inv.proceed reading.symm (by simp) settled (by simp)
  · exact inv.proceed reading.symm (by simp) settled (by simp)

/-- Every access of a reader keeps the finished attempts lapped, by cases on the move. -/
theorem move {d : WriterData} {next : Reader} {now : UInt64} {stage : Stage}
    {numbering : Nat} {unstored : List InfoField}
    (inv : LapInv cfg d.latestLog r) (known : ReaderInv cfg d r)
    (stands : Stands cfg d stage numbering unstored) (bounds : cfg.FrameBounds)
    (sized : ∀ frame ∈ d.committed, Sized cfg frame.info)
    (moved : ReadMove d.memory d.latestLog now r next)
    : LapInv cfg d.latestLog next := by
  have phaseInv := known.phase
  cases moved with
  | nothingNew phase stale =>
      exact {
        inv with
        counted := fun _ reading => by simp [ReadPhase.attempt] at reading
        disjoint := fun reading => by simp [ReadPhase.attempt] at reading
        oversized := fun _ _ _ _ recheck => by simp at recheck
      }
  | badSlot phase fresh outside =>
      -- `latest` names a slot of the segment, so the check of the source never fires.
      rw [PhaseInv, phase] at phaseInv
      simp only [LLSubscriber.Impl.nothingNew, Bool.or_eq_false_iff,
        decide_eq_false_iff_not] at fresh
      have inside := (stands.watch bounds fresh.1 phaseInv).inside bounds
      obtain ⟨-, attached⟩ := known.inCall (by simp [phase])
      rw [(known.remote attached).1] at outside
      exact absurd (UInt32.le_iff_toNat_le.mp outside) (by omega)
  | @loadLatest attempt phase fresh =>
      have disjoint := inv.disjoint (by rw [phase]; rfl)
      rw [Reader.settled, phase] at disjoint
      exact {
        inv with
        counted := fun other reading => inv.counted other (by rw [phase]; exact reading)
        disjoint := fun _ => disjoint
        oversized := fun _ _ _ _ recheck => by simp at recheck
      }
  | disconnected phase shut => exact inv.ends rfl rfl (by simp [Reader.finish]) rfl
  | noNewFrame phase => exact inv.ends rfl rfl (by simp [Reader.finish]) rfl
  | @busy attempt packed phase odd =>
      rw [PhaseInv, phase] at phaseInv
      refine inv.retry (by rw [phase]; rfl) (by rw [Reader.settled, phase]) phaseInv.call
        phaseInv.log (known.inCall (by simp [phase])).1 (stands.rotated bounds phaseInv ?_)
      have parity := seq_and_one_toNat (d.memory.slots (latestSlot packed).toNat).header.seq
      have value := stands.sequence _ (phaseInv.inside bounds)
      have older := @rounds_mono cfg.slotCount.toNat _ _ (latestSlot packed).toNat
        (stands.watched_le phaseInv)
      have one : (d.memory.slots (latestSlot packed).toNat).header.seq.toNat % 2 ≠ 0 := by
        intro even
        exact odd (UInt64.toNat_inj.mp (parity.trans even))
      rw [phaseInv.slot] at value older one ⊢
      omega
  | loadSeq phase even =>
      exact inv.proceed (by rw [phase]; rfl) (by simp) (by rw [Reader.settled, phase])
        (by simp)
  | loadField phase =>
      exact inv.proceed (by rw [phase]; rfl) (by simp) (by rw [Reader.settled, phase])
        (by simp)
  | loadLastField phase =>
      exact inv.checkSize (by rw [phase]; rfl) (by rw [Reader.settled, phase])
        (known.remote (known.inCall (by simp [phase])).2).2
  | @lapped attempt packed before info verdict phase changed =>
      rw [PhaseInv, phase] at phaseInv
      refine inv.retry (by rw [phase]; rfl) (by rw [Reader.settled, phase]) phaseInv.call
        phaseInv.log (known.inCall (by simp [phase])).1
        (stands.rotated bounds phaseInv.toWatches ?_)
      exact Nat.lt_of_le_of_lt phaseInv.seen
        (phaseInv.observed.lapped fun same => changed (UInt64.toNat_inj.mp same))
  | @conclude attempt packed before info verdict phase same =>
      cases verdict with
      | badSize =>
          -- A confirmed size is that of a committed frame, hence in range.
          rw [PhaseInv, phase] at phaseInv
          obtain ⟨frame, member, ⟨sameInfo, -⟩, -⟩ :=
            stands.holds_frame bounds phaseInv same
          have rejected := inv.oversized _ _ _ _ phase
          exact absurd (sameInfo ▸ sized frame member) rejected
      | tooSmall =>
          exact inv.ends rfl rfl (by simp [Reader.conclude, Reader.finish]) rfl
      | copied =>
          exact inv.ends rfl rfl
            (by simp [Reader.conclude, Reader.accept, Reader.finish]) rfl

/-- Copying payload bytes keeps the finished attempts. -/
theorem copyByte {memory : FrameMemory} {next : Reader} {index : Nat}
    (inv : LapInv cfg log r) (stepped : r.copyByte memory index = some next)
    : LapInv cfg log next := by
  unfold Reader.copyByte at stepped
  split at stepped
  case h_2 => cases stepped
  rename_i attempt packed before info copied phase
  split at stepped
  case isFalse => cases stepped
  have going (later : ReadPhase) (same : later.attempt = r.phase.attempt)
      (stays : ∀ attempt, later ≠ .loadLatest attempt)
      (copying : ∀ attempt packed before info,
        later ≠ .recheck attempt packed before info .badSize)
      (dst : Nat → UInt8)
      : LapInv cfg log { r with phase := later, dst } := {
    inv.proceed same stays (by rw [Reader.settled, phase])
      fun attempt packed before info recheck => absurd recheck (copying _ _ _ _) with }
  dsimp only at stepped
  split at stepped
  · cases stepped
    exact going _ (by rw [phase]; rfl) (by simp) (by simp) _
  · cases stepped
    exact going _ (by rw [phase]; rfl) (by simp) (by simp) _

/-- Entering `read_latest` starts counting anew. -/
theorem enterRead {next : Reader} {capacity now : UInt64} (inv : LapInv cfg log r)
    (entry : ReadEntry r capacity now log next)
    : LapInv cfg log next := by
  cases entry with
  | entered ready attached =>
      exact {
        lapped := by simp
        counted := fun attempt reading => by
          obtain rfl := Option.some.inj reading
          exact ⟨rfl, by decide⟩
        disjoint := fun _ => Nat.le_refl _
        oversized := fun _ _ _ _ recheck => by simp at recheck
        contended := fun contended => by simp at contended
        returned := inv.returned
      }
  | disconnected ready | throttled ready =>
      exact {
        lapped := by simp [Reader.finish]
        counted := fun _ reading => by simp [Reader.finish, ReadPhase.attempt] at reading
        disjoint := fun reading => by simp [Reader.finish, ReadPhase.attempt] at reading
        oversized := fun _ _ _ _ recheck => by simp [Reader.finish] at recheck
        contended := fun contended => by simp [Reader.finish] at contended
        returned := List.suffix_rfl
      }

/-- Attaching happens between calls. -/
theorem attach {next : Reader} {session : UInt64} (inv : LapInv cfg log r)
    (stepped : r.attach cfg session = some next)
    : LapInv cfg log next := by
  unfold Reader.attach at stepped
  split at stepped
  case h_2 => cases stepped
  cases stepped
  exact ⟨inv.lapped, inv.counted, inv.disjoint, inv.oversized, inv.contended, inv.returned⟩

/-- A change of the read cap happens between calls. -/
theorem setMaxRead {next : Reader} {intervalNs : UInt64} (inv : LapInv cfg log r)
    (stepped : r.setMaxRead intervalNs = some next)
    : LapInv cfg log next := by
  unfold Reader.setMaxRead at stepped
  split at stepped
  case h_2 => cases stepped
  cases stepped
  exact ⟨inv.lapped, inv.counted, inv.disjoint, inv.oversized, inv.contended, inv.returned⟩

/-- Four lapped attempts make a call overlap four rotations. -/
theorem overlap (inv : LapInv cfg log r) (contended : r.result = some .contended)
    : ∃ published, r.returnLog = published ++ r.callLog
        ∧ 4 * (cfg.slotCount.toNat - 1) ≤ published.length := by
  obtain ⟨four, window, published, returned⟩ := inv.contended contended
  have total := r.laps.card_nsmul_le_sum _ inv.lapped
  rw [four, Nat.nsmul_eq_mul] at total
  rw [← returned, List.length_append] at window
  exact ⟨published, returned.symm, by omega⟩

end LapInv

-----------------------------------------------------------------------------------------
-- Whole runs
-----------------------------------------------------------------------------------------

/-- Steps of readers leave the publisher alone, and its own steps only extend the history
of `latest`.
-/
theorem SystemInv.step_log {cfg : LLConfig} {s next : State} {action : Action}
    (inv : SystemInv cfg s) (bounds : cfg.FrameBounds)
    (keeps : action.Writes WriteAction.NoCancel)
    (small : next.writer.committed.length < 2 ^ 62)
    (stepped : s.step action = some next)
    : s.writer.latestLog <:+ next.writer.latestLog := by
  cases action with
  | write action =>
      obtain ⟨writer, moved, rfl⟩ := Option.map_eq_some_iff.mp stepped
      exact (inv.writer.step_progresses bounds keeps small moved).log
  | _ =>
      obtain ⟨r, _, rfl⟩ := Option.map_eq_some_iff.mp stepped
      exact List.suffix_rfl

/-- Every step in range keeps every reader's finished attempts lapped. -/
theorem LapInv.step {cfg : LLConfig} {s next : State} {action : Action}
    (laps : ∀ reader, LapInv cfg s.writer.latestLog (s.readers reader))
    (inv : SystemInv cfg s) (sizes : SizesInv cfg s.writer) (bounds : cfg.FrameBounds)
    (keeps : action.Writes WriteAction.NoCancel)
    (small : next.writer.committed.length < 2 ^ 62)
    (stepped : s.step action = some next) (reader : Nat)
    : LapInv cfg next.writer.latestLog (next.readers reader) := by
  obtain ⟨stage, numbering, unstored, stands⟩ := inv.writer.stands
  have grown := inv.step_log bounds keeps small stepped
  -- A reader's step concerns that reader only.
  have single {mover : Nat} {outcome : Option Reader}
      (moved : s.withReader mover outcome = some next)
      (lapped : ∀ r, outcome = some r → LapInv cfg s.writer.latestLog r)
      : LapInv cfg next.writer.latestLog (next.readers reader) := by
    obtain ⟨r, outcomeEq, rfl⟩ := Option.map_eq_some_iff.mp moved
    change LapInv cfg _ (Function.update s.readers mover r reader)
    by_cases same : reader = mover
    · rw [same, Function.update_self]
      exact lapped r outcomeEq
    · rw [Function.update_of_ne same]
      exact laps reader
  cases action with
  | write action =>
      obtain ⟨writer, moved, rfl⟩ := Option.map_eq_some_iff.mp stepped
      exact (laps reader).extend grown
  | attach mover session =>
      exact single stepped fun r attached =>
        (laps mover).attach (stands.config ▸ attached)
  | setMaxRead mover intervalNs =>
      exact single stepped fun r set => (laps mover).setMaxRead set
  | readLatest mover capacity polled now =>
      exact single stepped fun r entered =>
        (laps mover).enterRead (Reader.enterRead_cases entered)
  | access mover now =>
      exact single stepped fun r moved =>
        (laps mover).move (inv.readers mover) stands bounds sizes.committed
          (Reader.access_move moved)
  | copyByte mover index =>
      exact single stepped fun r copied => (laps mover).copyByte copied

/-- In a run where every begun write is committed, in range and below `2 ^ 62` frames,
every reader's finished attempts were lapped, by the invariant rule.
-/
theorem LapInv.of_run {cfg : LLConfig} (bounds : cfg.FrameBounds) {now : UInt64}
    {impls : Nat → LLSubscriber.Impl} {schedule : List Action} {s : State}
    (keeps : ∀ action ∈ schedule, action.Writes WriteAction.NoCancel)
    (inRange : ∀ action ∈ schedule, action.Writes (WriteAction.InRange cfg))
    (reached : frameMachine.run (State.create cfg now impls) schedule = some s)
    (small : s.writer.committed.length < 2 ^ 62) (reader : Nat)
    : LapInv cfg s.writer.latestLog (s.readers reader) := by
  have all := Machine.invariant_of_run
    (fun _ action => action.Writes WriteAction.NoCancel
      ∧ action.Writes (WriteAction.InRange cfg))
    (fun s => SizesInv cfg s.writer
      ∧ (s.writer.committed.length < 2 ^ 62
          → SystemInv cfg s
            ∧ ∀ reader, LapInv cfg s.writer.latestLog (s.readers reader)))
    ?_ ⟨.create cfg now, fun _ => ⟨⟨.create now, fun reader => .create (impls reader)⟩,
      fun reader => .create _⟩⟩
    ((Machine.meets_of_forall (fun _ _ kept => kept) keeps).and
      (Machine.meets_of_forall (fun _ _ allowed => allowed) inRange)) reached
  · exact (all.2 small).2 reader
  intro s action next ⟨sizes, inv⟩ ⟨kept, allowed⟩ stepped
  refine ⟨sizes.system_step bounds allowed stepped, fun fewer => ?_⟩
  obtain ⟨system, laps⟩ := inv (Nat.lt_of_le_of_lt (State.step_committed stepped) fewer)
  exact ⟨system.step bounds kept fewer stepped,
    LapInv.step laps system sizes bounds kept fewer stepped⟩

-----------------------------------------------------------------------------------------
-- A stopped publisher
-----------------------------------------------------------------------------------------

/-- The action is a reader's. -/
def Action.Silent : Action → Prop
  | .write _ => False
  | _ => True

/-- A silent action passes every condition on publisher actions. -/
theorem Action.Silent.writes {action : Action} (silent : action.Silent)
    (allowed : WriteAction → Prop)
    : action.Writes allowed := by
  cases action with
  | write action => exact silent.elim
  | _ => trivial

/-- Silent steps leave the publisher as it is. -/
theorem State.step_silent {s next : State} {action : Action} (silent : action.Silent)
    (stepped : s.step action = some next)
    : next.writer = s.writer := by
  cases action with
  | write action => exact silent.elim
  | _ =>
      obtain ⟨r, _, rfl⟩ := Option.map_eq_some_iff.mp stepped
      rfl

/-- No access of a call forgets when the call started. -/
theorem ReadMove.callLog {memory : FrameMemory} {log : List UInt64} {now : UInt64}
    {r next : Reader} (moved : ReadMove memory log now r next)
    : next.callLog = r.callLog := by
  have retried (attempt : Nat) : (r.retry attempt log).callLog = r.callLog := by
    unfold Reader.retry
    dsimp only
    split <;> rfl
  cases moved with
  | busy | lapped => exact retried _
  | loadLastField phase =>
      unfold Reader.checkSize
      dsimp only
      split
      · rfl
      split <;> rfl
  | @conclude _ _ _ _ verdict => cases verdict <;> rfl
  | _ => rfl

/-- While the publisher is stopped, a call that started then stays one that has seen the
whole history, and so does every later call.
-/
theorem State.step_callLog {s next : State} {action : Action} {reader : Nat}
    (silent : action.Silent) (stepped : s.step action = some next)
    (current : (s.readers reader).callLog = s.writer.latestLog)
    : (next.readers reader).callLog = next.writer.latestLog := by
  have single {mover : Nat} {outcome : Option Reader}
      (moved : s.withReader mover outcome = some next)
      (kept : ∀ r, outcome = some r
        → r.callLog = (s.readers mover).callLog ∨ r.callLog = s.writer.latestLog)
      : (next.readers reader).callLog = next.writer.latestLog := by
    obtain ⟨r, outcomeEq, rfl⟩ := Option.map_eq_some_iff.mp moved
    change (Function.update s.readers mover r reader).callLog = s.writer.latestLog
    by_cases same : reader = mover
    · subst same
      rw [Function.update_self]
      exact (kept r outcomeEq).elim (fun old => old.trans current) id
    · rw [Function.update_of_ne same]
      exact current
  cases action with
  | write action => exact silent.elim
  | attach mover session =>
      refine single stepped fun r attached => Or.inl ?_
      unfold Reader.attach at attached
      split at attached <;> cases attached
      rfl
  | setMaxRead mover intervalNs =>
      refine single stepped fun r set => Or.inl ?_
      unfold Reader.setMaxRead at set
      split at set <;> cases set
      rfl
  | readLatest mover capacity polled now =>
      refine single stepped fun r entered => Or.inr ?_
      cases Reader.enterRead_cases entered <;> rfl
  | access mover now =>
      exact single stepped fun r moved => Or.inl (Reader.access_move moved).callLog
  | copyByte mover index =>
      refine single stepped fun r copied => Or.inl ?_
      unfold Reader.copyByte at copied
      split at copied
      case h_2 => cases copied
      split at copied
      case isFalse => cases copied
      dsimp only at copied
      split at copied <;> cases copied <;> rfl

/-- Values of a history of `latest` never repeat. -/
theorem Logged.nodup {slots : Nat} {log : List UInt64} (logged : Logged slots log)
    (few : slots ≤ 4) (some : 1 ≤ slots)
    : log.Nodup := by
  induction log with
  | nil => exact List.nodup_nil
  | cons head older ih =>
      refine List.nodup_cons.mpr ⟨fun member => ?_, ih logged.2⟩
      have earlier := logged.2.frame_le few some member
      rw [latestFrame_toNat, logged.1] at earlier
      omega

/-- A call of `read_latest` that starts once the publisher has stopped never returns
`Contended`, in any interleaving with other readers.
-/
theorem LapInv.never_contended {cfg : LLConfig} (bounds : cfg.FrameBounds) {now : UInt64}
    {impls : Nat → LLSubscriber.Impl} {schedule : List Action} {s : State}
    (keeps : ∀ action ∈ schedule, action.Writes WriteAction.NoCancel)
    (inRange : ∀ action ∈ schedule, action.Writes (WriteAction.InRange cfg))
    (reached : frameMachine.run (State.create cfg now impls) schedule = some s)
    (small : s.writer.committed.length < 2 ^ 62) {reader : Nat}
    {earlier later : List Action} {capacity : UInt64} {polled : Bool} {time : UInt64}
    {final : State} (silent : ∀ action ∈ earlier ++ later, action.Silent)
    (onward
      : frameMachine.run s (earlier ++ .readLatest reader capacity polled time :: later)
        = some final)
    : (final.readers reader).result ≠ some .contended := by
  intro contended
  have stopped
      : ∀ action ∈ earlier ++ .readLatest reader capacity polled time :: later,
          action.Silent := by
    intro action member
    rcases List.mem_append.mp member with before | after
    · exact silent action (List.mem_append_left _ before)
    rcases List.mem_cons.mp after with rfl | after
    · trivial
    · exact silent action (List.mem_append_right _ after)
  have quiet : final.writer = s.writer :=
    Machine.relation_of_run (fun _ action => action.Silent)
      (fun first second : State => second.writer = first.writer) (fun _ => rfl)
      (fun _ _ _ one two => two.trans one) (fun _ _ _ => State.step_silent)
      (Machine.meets_of_forall (fun _ _ allowed => allowed) stopped) onward
  have whole : frameMachine.run (State.create cfg now impls)
      (schedule ++ (earlier ++ .readLatest reader capacity polled time :: later))
      = some final :=
    Machine.run_append_eq_some.mpr ⟨s, reached, onward⟩
  have all {allowed : WriteAction → Prop}
      (first : ∀ action ∈ schedule, action.Writes allowed)
      : ∀ action
          ∈ schedule ++ (earlier ++ .readLatest reader capacity polled time :: later),
          action.Writes allowed := by
    intro action member
    rcases List.mem_append.mp member with before | after
    · exact first action before
    · exact (stopped action after).writes allowed
  have laps := LapInv.of_run bounds (all keeps) (all inRange) whole (quiet ▸ small) reader
  -- The call saw the whole history when it started, and nothing was added since.
  have current : (final.readers reader).callLog = final.writer.latestLog := by
    obtain ⟨middle, _, rest⟩ := Machine.run_append_eq_some.mp onward
    obtain ⟨entered, entry, rest⟩ := Machine.run_cons_eq_some.mp rest
    refine Machine.invariant_of_run (fun _ action => action.Silent)
      (fun s => (s.readers reader).callLog = s.writer.latestLog)
      (fun _ _ _ current silent stepped => State.step_callLog silent stepped current) ?_
      (Machine.meets_of_forall (fun _ _ allowed => allowed)
        fun action member => silent action (List.mem_append_right _ member)) rest
    obtain ⟨r, moved, rfl⟩ := Option.map_eq_some_iff.mp entry
    change (Function.update middle.readers reader r reader).callLog = _
    rw [Function.update_self]
    cases Reader.enterRead_cases moved <;> rfl
  obtain ⟨published, returned, four⟩ := laps.overlap contended
  have returnedLength := laps.returned.length_le
  rw [returned, List.length_append, current] at returnedLength
  have slots := bounds.slots
  omega

/-- Contention means being lapped. With `N` slots, every attempt of `read_latest` that ends
in `continue` saw at least `N - 1` new values stored to `latest`, a call that returns
`Contended` overlapped at least `4 * (N - 1)` of them, and no call started after the
publisher stopped, wherever it stopped, returns `Contended`.
-/
theorem contended_lapped {cfg : LLConfig} (accepted : cfg.accepted = true) {now : UInt64}
    {impls : Nat → LLSubscriber.Impl} {schedule : List Action} {s : State}
    (keeps : ∀ action ∈ schedule, action.Writes WriteAction.NoCancel)
    (inRange : ∀ action ∈ schedule, action.Writes (WriteAction.InRange cfg))
    (reached : frameMachine.run (State.create cfg now impls) schedule = some s)
    (few : s.writer.committed.length < 2 ^ 62) (reader : Nat)
    : s.writer.latestLog.Nodup
      ∧ (∀ lap ∈ (s.readers reader).laps, cfg.slotCount.toNat - 1 ≤ lap)
      ∧ ((s.readers reader).result = some .contended
          → ∃ published,
              (s.readers reader).returnLog = published ++ (s.readers reader).callLog
              ∧ 4 * (cfg.slotCount.toNat - 1) ≤ published.length)
      ∧ ∀ (earlier later : List Action) (capacity : UInt64) (polled : Bool) (time : UInt64)
          (final : State),
          (∀ action ∈ earlier ++ later, action.Silent)
          → frameMachine.run s
              (earlier ++ .readLatest reader capacity polled time :: later) = some final
          → (final.readers reader).result ≠ some .contended := by
  have bounds := cfg.accepted_frameBounds accepted
  have laps := LapInv.of_run bounds keeps inRange reached few reader
  obtain ⟨_, _, _, stands⟩ := (SystemInv.of_run bounds keeps reached few).writer.stands
  have slots := bounds.slots
  refine ⟨stands.logged.nodup (by omega) (by omega), laps.lapped, laps.overlap, ?_⟩
  intro earlier later capacity polled time final silent onward
  exact LapInv.never_contended bounds keeps inRange reached few silent onward

/-- One attempt that is lapped: after the load of `latest` the publisher goes around and
marks the same slot again before the reader gets to its sequence word.
-/
def lappedAttempt : List Action :=
  [.access 0 7] ++ publishByte 1 7 ++ publishByte 2 7 ++ beginByte 7
  ++ [.access 0 7] ++ commitByte 3 7

/-- A call of `read_latest` all four attempts of which are lapped. -/
def lappedCall : List Action :=
  [.attach 0 77] ++ publishByte 9 6 ++ [.readLatest 0 1 true 7]
  ++ lappedAttempt ++ lappedAttempt ++ lappedAttempt ++ lappedAttempt

/-- The hypotheses are met by a run whose call returns `Contended`. -/
theorem contended_lapped_lappedCall
    : ∃ s,
        frameMachine.run (State.create tinyConfig 5 fun _ => {}) lappedCall = some s
        ∧ ∃ published,
            (s.readers 0).returnLog = published ++ (s.readers 0).callLog
            ∧ 4 * (3 - 1) ≤ published.length := by
  have passes
      : (frameMachine.run (State.create tinyConfig 5 fun _ => {}) lappedCall).any
          (fun s => s.writer.committed.length < 2 ^ 62
            ∧ (s.readers 0).result = some .contended)
        = true := by
    decide +kernel
  obtain ⟨s, reached, tested⟩ := Machine.reaches_of_any passes
  rw [decide_eq_true_eq] at tested
  obtain ⟨few, contended⟩ := tested
  obtain ⟨-, -, overlap, -⟩ :=
    contended_lapped (by decide) (by decide +kernel) (by decide +kernel) reached few 0
  exact ⟨s, reached, overlap contended⟩

end ShmFrame.Frames
