import ShmFrame.Frames.Subscriber
import ShmFrame.Frames.WriterProgress

/-! What a reader knows at every cut of `read_latest`, relative to the publisher's data at
that moment: where `latest` pointed, and what the loads so far say about the slot if its
sequence word is still the one seen first.
-/

namespace ShmFrame.Frames

open ShmFrame.Foundation

/-- Every suffix of a history of `latest` is one. -/
theorem Logged.suffix {slots : Nat} {earlier log : List UInt64} (logged : Logged slots log)
    (suffix : earlier <:+ log)
    : Logged slots earlier := by
  obtain ⟨newer, rfl⟩ := suffix
  induction newer with
  | nil => exact logged
  | cons _ _ ih => exact ih logged.2

/-- No value of a history names a frame beyond its length. -/
theorem Logged.frame_le {slots : Nat} {log : List UInt64} (logged : Logged slots log)
    (few : slots ≤ 4) (some : 1 ≤ slots) {packed : UInt64} (member : packed ∈ log)
    : (latestFrame packed).toNat ≤ log.length := by
  induction log with
  | nil => cases member
  | cons head older ih =>
      rcases List.mem_cons.mp member with rfl | earlier
      · have slot := Nat.mod_lt (older.length + 1) some
        rw [latestFrame_toNat, logged.1, List.length_cons]
        omega
      · exact (ih logged.2 earlier).trans (Nat.le_succ _)

/-- A reader that was called when `latest` had the history `call` is in an attempt that
loaded `packed` when it had the history `attempt`.
-/
structure Watches (cfg : LLConfig) (d : WriterData) (call attempt : List UInt64)
    (packed : UInt64)
    : Prop where
  positive : 1 ≤ attempt.length
  frame : (latestFrame packed).toNat = attempt.length
  slot : (latestSlot packed).toNat = attempt.length % cfg.slotCount.toNat
  call : call <:+ attempt
  log : attempt <:+ d.latestLog

/-- In addition the slot showed the even sequence word `before`, no older than the frame
that `latest` named, and what was loaded since satisfies `claim` if the word is unchanged.
-/
structure Observes (cfg : LLConfig) (d : WriterData) (call attempt : List UInt64)
    (packed before : UInt64) (claim : LLFrameInfo × (Nat → UInt8) → Prop)
    : Prop extends Watches cfg d call attempt packed where
  seen
    : 2 * rounds cfg.slotCount.toNat attempt.length (attempt.length % cfg.slotCount.toNat)
      ≤ before.toNat
  observed
    : (slotCell d.memory (latestSlot packed).toNat).Observed before.toNat claim

/-- The last `Ok` handed out one committed frame, no older than what `latest` had named
when the call started.
-/
def Delivered (d : WriterData) (r : Reader) : Prop :=
  ∃ frame ∈ d.committed,
    r.info = frame.info
    ∧ (∀ index < r.info.payloadBytes.toNat, r.dst index = frame.payload index)
    ∧ ∀ packed ∈ r.callLog, latestFrame packed ≤ frame.info.frameId

/-- What the phase of a reader says about its loads. -/
def PhaseInv (cfg : LLConfig) (d : WriterData) (r : Reader) : Prop :=
  match r.phase with
  | .ready => True
  | .loadLatest _ | .loadShutdown => r.callLog <:+ d.latestLog
  | .loadSeq _ packed => Watches cfg d r.callLog r.attemptLog packed
  | .loadInfo _ packed before rest info =>
      Observes cfg d r.callLog r.attemptLog packed before fun content =>
        ∀ field ∉ rest, InfoField.Agree field content.1 info
  | .copy _ packed before info copied =>
      Observes cfg d r.callLog r.attemptLog packed before fun content =>
        content.1 = info ∧ ∀ index ∈ copied, r.dst index = content.2 index
  | .recheck _ packed before info verdict =>
      Observes cfg d r.callLog r.attemptLog packed before fun content =>
        content.1 = info
        ∧ (verdict = .copied
            → ∀ index < info.payloadBytes.toNat, r.dst index = content.2 index)

/-- The reader's invariant. -/
structure ReaderInv (cfg : LLConfig) (d : WriterData) (r : Reader) : Prop where
  phase : PhaseInv cfg d r
  inCall : r.phase ≠ .ready → r.result = none ∧ r.impl.hdr.isSome
  remote
    : r.impl.hdr.isSome
      → r.impl.remote.slotCount = cfg.slotCount
        ∧ r.impl.remote.maxPayload = cfg.maxPayload
  delivered : r.result = some .ok → Delivered d r

/-- A subscriber that never attached satisfies the invariant. -/
theorem ReaderInv.create {cfg : LLConfig} {d : WriterData} (impl : LLSubscriber.Impl)
    : ReaderInv cfg d { impl := { impl with hdr := none } } where
  phase := trivial
  inCall := fun busy => absurd rfl busy
  remote := by simp
  delivered := by simp

-----------------------------------------------------------------------------------------
-- The publisher's progress keeps what a reader knows
-----------------------------------------------------------------------------------------

/-- A watched slot is one of the segment's slots. -/
theorem Watches.inside {cfg : LLConfig} {d : WriterData} {call attempt : List UInt64}
    {packed : UInt64}
    (watches : Watches cfg d call attempt packed) (bounds : cfg.FrameBounds)
    : (latestSlot packed).toNat < cfg.slotCount.toNat := by
  rw [watches.slot]
  exact Nat.mod_lt _ (by rcases bounds.slots with h | h <;> omega)

/-- The histories a reader remembers stay histories. -/
theorem Watches.progress {cfg : LLConfig} {d next : WriterData}
    {call attempt : List UInt64} {packed : UInt64}
    (watches : Watches cfg d call attempt packed)
    (progress : Progresses cfg.slotCount.toNat d next)
    : Watches cfg next call attempt packed :=
  { watches with log := watches.log.trans progress.log }

/-- Observations of a slot survive the publisher's progress. -/
theorem Observes.progress {cfg : LLConfig} {d next : WriterData}
    {call attempt : List UInt64} {packed before : UInt64}
    {claim : LLFrameInfo × (Nat → UInt8) → Prop}
    (observes : Observes cfg d call attempt packed before claim)
    (bounds : cfg.FrameBounds) (progress : Progresses cfg.slotCount.toNat d next)
    : Observes cfg next call attempt packed before claim :=
  {
    observes.toWatches.progress progress with
    seen := observes.seen
    observed := observes.observed.evolve
      (progress.cells _ (observes.toWatches.inside bounds))
  }

/-- Delivered frames stay committed. -/
theorem Delivered.progress {cfg : LLConfig} {d next : WriterData} {r : Reader}
    (delivered : Delivered d r) (progress : Progresses cfg.slotCount.toNat d next)
    : Delivered next r := by
  obtain ⟨frame, member, same⟩ := delivered
  exact ⟨frame, progress.committed.subset member, same⟩

/-- The reader's invariant survives the publisher's progress, by cases on its phase. -/
theorem ReaderInv.progress {cfg : LLConfig} {d next : WriterData} {r : Reader}
    (inv : ReaderInv cfg d r) (bounds : cfg.FrameBounds)
    (progress : Progresses cfg.slotCount.toNat d next)
    : ReaderInv cfg next r := by
  refine { inv with
    phase := ?_
    delivered := fun ok => (inv.delivered ok).progress progress }
  have phase := inv.phase
  unfold PhaseInv at phase ⊢
  split at phase
  · trivial
  · exact phase.trans progress.log
  · exact phase.trans progress.log
  · exact phase.progress progress
  · exact phase.progress bounds progress
  · exact phase.progress bounds progress
  · exact phase.progress bounds progress

-----------------------------------------------------------------------------------------
-- What the reader's own accesses add
-----------------------------------------------------------------------------------------

namespace Stands

variable {cfg : LLConfig} {d : WriterData} {stage : Stage} {numbering : Nat}
  {unstored : List InfoField} {call attempt : List UInt64} {packed before : UInt64}

/-- Loading a nonzero `latest` names its newest frame. -/
theorem watch (stands : Stands cfg d stage numbering unstored) (bounds : cfg.FrameBounds)
    (published : d.memory.latest ≠ 0) (called : call <:+ d.latestLog)
    : Watches cfg d call d.latestLog d.memory.latest := by
  have latest := stands.latest
  have logged := stands.logged
  cases history : d.latestLog with
  | nil => exact absurd (by rw [latest, history]; rfl) published
  | cons head older =>
      rw [history] at latest logged called
      have head_eq : d.memory.latest = head := latest
      have slot := Nat.mod_lt (older.length + 1)
        (show 0 < cfg.slotCount.toNat by rcases bounds.slots with h | h <;> omega)
      have value := logged.1
      have few : cfg.slotCount.toNat ≤ 4 := by rcases bounds.slots with h | h <;> omega
      exact {
        positive := by simp
        frame := by
          rw [head_eq, latestFrame_toNat, value]
          simp only [List.length_cons]
          omega
        slot := by
          rw [head_eq, latestSlot_toNat, value]
          simp only [List.length_cons]
          omega
        call := called
        log := history ▸ List.suffix_rfl
      }

/-- The frame a reader watches has been committed. -/
theorem watched_le (stands : Stands cfg d stage numbering unstored)
    (watches : Watches cfg d call attempt packed)
    : attempt.length ≤ d.committed.length := by
  have published := stands.published
  have log := watches.log.length_le
  omega

/-- An even first look at the watched slot starts an observation. -/
theorem observe (stands : Stands cfg d stage numbering unstored)
    (bounds : cfg.FrameBounds) (watches : Watches cfg d call attempt packed)
    (even : (d.memory.slots (latestSlot packed).toNat).header.seq &&& 1 = 0)
    {claim : LLFrameInfo × (Nat → UInt8) → Prop}
    (known : ∀ content, claim content)
    : Observes cfg d call attempt packed
        (d.memory.slots (latestSlot packed).toNat).header.seq claim := by
  have value := stands.sequence _ (watches.inside bounds)
  have older := @rounds_mono cfg.slotCount.toNat _ _ (latestSlot packed).toNat
    (stands.watched_le watches)
  have parity := seq_and_one_toNat (d.memory.slots (latestSlot packed).toNat).header.seq
  rw [even] at parity
  exact {
    watches with
    seen := by
      rw [← watches.slot]
      omega
    observed := .start parity.symm (known _)
  }

/-- A slot whose word is still the even one seen first holds a committed frame, no older
than the one `latest` named.
-/
theorem holds_frame (stands : Stands cfg d stage numbering unstored)
    (bounds : cfg.FrameBounds) {claim : LLFrameInfo × (Nat → UInt8) → Prop}
    (observes : Observes cfg d call attempt packed before claim)
    (same : (d.memory.slots (latestSlot packed).toNat).header.seq = before)
    : ∃ frame ∈ d.committed,
        claim (frame.info, frame.payload)
        ∧ attempt.length ≤ frame.info.frameId.toNat := by
  have inside := observes.toWatches.inside bounds
  obtain ⟨claimed, even⟩ := observes.observed.confirm (congrArg UInt64.toNat same)
  have unmarked
      : ¬ (stage = .marked ∧ (latestSlot packed).toNat = d.impl.writeSlot.toNat) := by
    rintro ⟨marked, here⟩
    have value := stands.sequence _ inside
    rw [marked, ← here, Stage.odd_here] at value
    change (d.memory.slots (latestSlot packed).toNat).header.seq.toNat % 2 = 0 at even
    omega
  obtain ⟨frame, newest, newer⟩ := @newestIn_of_id cfg.slotCount.toNat _ _
    stands.numbered observes.positive (stands.watched_le observes.toWatches)
  rw [← observes.slot] at newest
  obtain ⟨info, payload⟩ := stands.contents _ inside unmarked frame newest
  refine ⟨frame, newestIn_mem newest, ?_, newer⟩
  rw [← info, ← payload]
  exact claimed

end Stands

/-- Returning anything but `Ok` keeps the invariant. -/
theorem ReaderInv.finish {cfg : LLConfig} {d : WriterData} {r : Reader}
    (inv : ReaderInv cfg d r) {result : LLReadResult} (refused : result ≠ .ok)
    (log : List UInt64)
    : ReaderInv cfg d (r.finish result log) where
  phase := trivial
  inCall := fun busy => absurd rfl busy
  remote := inv.remote
  delivered := fun ok => absurd (Option.some.inj ok) refused

/-- Retrying starts a new attempt of the same call or gives up. -/
theorem ReaderInv.retry {cfg : LLConfig} {d : WriterData} {r : Reader}
    (inv : ReaderInv cfg d r) (busy : r.phase ≠ .ready) (attempt : Nat)
    (call : r.callLog <:+ d.latestLog)
    : ReaderInv cfg d (r.retry attempt d.latestLog) := by
  unfold Reader.retry
  dsimp only
  split
  · exact {
      inv with
      phase := call
      inCall := fun _ => inv.inCall busy
      delivered := fun ok => by simp [(inv.inCall busy).1] at ok
    }
  · exact {
      phase := trivial
      inCall := fun busy => absurd rfl busy
      remote := inv.remote
      delivered := fun ok => by simp [Reader.finish] at ok
    }

/-- The size checks keep the loaded metadata. -/
theorem ReaderInv.checkSize {cfg : LLConfig} {d : WriterData} {r : Reader}
    {packed before : UInt64} {info : LLFrameInfo}
    (inv : ReaderInv cfg d r) (busy : r.phase ≠ .ready) (attempt : Nat)
    (observes
      : Observes cfg d r.callLog r.attemptLog packed before fun content =>
          ∀ field : InfoField, field.Agree content.1 info)
    : ReaderInv cfg d (r.checkSize attempt packed before info) := by
  have loaded
      : Observes cfg d r.callLog r.attemptLog packed before fun content => content.1 = info :=
    { observes with
      observed := observes.observed.extend fun agree => LLFrameInfo.eq_of_agree agree }
  unfold Reader.checkSize
  dsimp only
  have rest (phase : ReadPhase) (known : PhaseInv cfg d { r with phase })
      : ReaderInv cfg d { r with phase } := {
    inv with
    phase := known
    inCall := fun _ => inv.inCall busy
    delivered := fun ok => by simp [(inv.inCall busy).1] at ok
  }
  split
  · exact rest _ { loaded with
      observed := loaded.observed.extend fun same => ⟨same, by simp⟩ }
  split
  · exact rest _ { loaded with
      observed := loaded.observed.extend fun same => ⟨same, by simp⟩ }
  · exact rest _ { loaded with
      observed := loaded.observed.extend fun same => ⟨same, by simp⟩ }

/-- A confirmed copy hands out a committed frame no older than the call. -/
theorem ReaderInv.conclude {cfg : LLConfig} {d : WriterData} {r : Reader}
    {stage : Stage} {numbering : Nat} {unstored : List InfoField}
    {attempt : Nat} {packed before : UInt64} {info : LLFrameInfo} {verdict : Verdict}
    (inv : ReaderInv cfg d r) (stands : Stands cfg d stage numbering unstored)
    (bounds : cfg.FrameBounds)
    (phase : r.phase = .recheck attempt packed before info verdict)
    (same : (d.memory.slots (latestSlot packed).toNat).header.seq = before)
    (now : UInt64)
    : ReaderInv cfg d (r.conclude info verdict now d.latestLog) := by
  have observes := inv.phase
  rw [PhaseInv, phase] at observes
  cases verdict with
  | badSize => exact inv.finish (by decide) _
  | tooSmall =>
      exact {
        phase := trivial
        inCall := fun busy => absurd rfl busy
        remote := inv.remote
        delivered := fun ok => by simp [Reader.conclude, Reader.finish] at ok
      }
  | copied =>
      obtain ⟨frame, member, ⟨sameInfo, copied⟩, newer⟩ :=
        stands.holds_frame bounds observes same
      refine {
        phase := trivial
        inCall := fun busy => absurd rfl busy
        remote := inv.remote
        delivered := fun _ => ⟨frame, member, sameInfo.symm, copied rfl, ?_⟩ }
      intro earlier inCall
      have few : cfg.slotCount.toNat ≤ 4 := by rcases bounds.slots with h | h <;> omega
      have some : 1 ≤ cfg.slotCount.toNat := by rcases bounds.slots with h | h <;> omega
      have old := ((stands.logged.suffix (observes.call.trans observes.log)).frame_le few
        some inCall).trans observes.call.length_le
      exact UInt64.le_iff_toNat_le.mpr (old.trans newer)

/-- Every access of a reader keeps the invariant, by cases on the move. -/
theorem ReaderInv.move {cfg : LLConfig} {d : WriterData} {r next : Reader}
    {stage : Stage} {numbering : Nat} {unstored : List InfoField} {now : UInt64}
    (inv : ReaderInv cfg d r) (stands : Stands cfg d stage numbering unstored)
    (bounds : cfg.FrameBounds) (moved : ReadMove d.memory d.latestLog now r next)
    : ReaderInv cfg d next := by
  have known := inv.phase
  have silent (busy : r.phase ≠ .ready) (phase : ReadPhase) (attemptLog : List UInt64)
      (holds : PhaseInv cfg d { r with phase, attemptLog })
      : ReaderInv cfg d { r with phase, attemptLog } := {
    inv with
    phase := holds
    inCall := fun _ => inv.inCall busy
    delivered := fun ok => by simp [(inv.inCall busy).1] at ok
  }
  cases moved with
  | nothingNew phase stale =>
      rw [PhaseInv, phase] at known
      exact silent (by simp [phase]) _ r.attemptLog known
  | badSlot phase fresh outside => exact inv.finish (by decide) _
  | @loadLatest attempt phase fresh =>
      rw [PhaseInv, phase] at known
      simp only [LLSubscriber.Impl.nothingNew, Bool.or_eq_false_iff,
        decide_eq_false_iff_not] at fresh
      exact silent (by simp [phase]) _ _ (stands.watch bounds fresh.1 known)
  | disconnected phase shut =>
      exact {
        phase := trivial
        inCall := fun busy => absurd rfl busy
        remote := inv.remote
        delivered := fun ok => by simp [Reader.finish] at ok
      }
  | noNewFrame phase => exact inv.finish (by decide) _
  | @busy attempt packed phase odd =>
      rw [PhaseInv, phase] at known
      exact inv.retry (by simp [phase]) attempt (known.call.trans known.log)
  | @loadSeq attempt packed phase even =>
      rw [PhaseInv, phase] at known
      refine silent (by simp [phase]) _ r.attemptLog
        (stands.observe bounds known even fun content field unread => ?_)
      exact absurd (by cases field <;> simp [InfoField.readOrder]) unread
  | @loadField attempt packed before field second rest info phase =>
      rw [PhaseInv, phase] at known
      refine silent (by simp [phase]) _ r.attemptLog
        { known with observed := known.observed.extend fun agree other unread => ?_ }
      by_cases same : other = field
      · subst same
        exact other.agree_copy_self _ _
      · exact (InfoField.agree_copy_other same _ _ _).mpr
          (agree other (by simp only [List.mem_cons] at unread ⊢; tauto))
  | @loadLastField attempt packed before field info phase =>
      rw [PhaseInv, phase] at known
      refine inv.checkSize (by simp [phase]) attempt
        { known with observed := known.observed.extend fun agree other => ?_ }
      by_cases same : other = field
      · subst same
        exact other.agree_copy_self _ _
      · exact (InfoField.agree_copy_other same _ _ _).mpr (agree other (by simpa using same))
  | @lapped attempt packed before info verdict phase changed =>
      rw [PhaseInv, phase] at known
      exact inv.retry (by simp [phase]) attempt (known.call.trans known.log)
  | conclude phase same => exact inv.conclude stands bounds phase same now

/-- Copying a payload byte extends the observation by that byte. -/
theorem ReaderInv.copyByte {cfg : LLConfig} {d : WriterData} {r next : Reader}
    {index : Nat} (inv : ReaderInv cfg d r)
    (stepped : r.copyByte d.memory index = some next)
    : ReaderInv cfg d next := by
  unfold Reader.copyByte at stepped
  split at stepped
  case h_2 => cases stepped
  rename_i attempt packed before info copied phase
  split at stepped
  case isFalse => cases stepped
  have known := inv.phase
  rw [PhaseInv, phase] at known
  have silent := (inv.inCall (by simp [phase])).1
  -- The bytes copied so far, and this one, are those of the current content.
  have extended
      : Observes cfg d r.callLog r.attemptLog packed before fun content =>
            content.1 = info
            ∧ ∀ other ∈ insert index copied,
                Function.update r.dst index
                  ((d.memory.slots (latestSlot packed).toNat).payload index) other
                = content.2 other := {
    known with
    observed := known.observed.extend fun ⟨sameInfo, bytes⟩ => by
      refine ⟨sameInfo, fun other member => ?_⟩
      by_cases same : other = index
      · subst same
        rw [Function.update_self]
        rfl
      · rw [Function.update_of_ne same]
        exact bytes other ((Finset.mem_insert.mp member).resolve_left same)
  }
  dsimp only at stepped
  split at stepped
  · rename_i complete
    cases stepped
    exact {
      inv with
      phase := {
        extended with
        observed := extended.observed.extend fun ⟨sameInfo, bytes⟩ =>
          ⟨sameInfo, fun _ other inRange =>
            bytes other (complete (Finset.mem_range.mpr inRange))⟩
      }
      inCall := fun _ => inv.inCall (by simp [phase])
      delivered := fun ok => by simp [silent] at ok
    }
  · cases stepped
    exact {
      inv with
      phase := extended
      inCall := fun _ => inv.inCall (by simp [phase])
      delivered := fun ok => by simp [silent] at ok
    }

/-- The rate gate changes timers and counters only. -/
theorem readGate_keeps (m : LLSubscriber.Impl) (now : UInt64)
    : (m.readGate now).1.hdr = m.hdr ∧ (m.readGate now).1.remote = m.remote
      ∧ (m.readGate now).1.lastFrame = m.lastFrame
      ∧ (m.readGate now).1.dropped = m.dropped := by
  unfold LLSubscriber.Impl.readGate
  split
  · split <;> exact ⟨rfl, rfl, rfl, rfl⟩
  · exact ⟨rfl, rfl, rfl, rfl⟩

/-- How `read_latest` can be entered: refused at once, throttled, or into its loop. -/
inductive ReadEntry (r : Reader) (capacity now : UInt64) (log : List UInt64)
    : Reader → Prop
  | disconnected (ready : r.phase = .ready)
    : ReadEntry r capacity now log
        ({ r with capacity := capacity, callLog := log, laps := [] }.finish
          .disconnected log)
  | throttled (ready : r.phase = .ready)
    : ReadEntry r capacity now log
        ({
          r with
          capacity := capacity, callLog := log, laps := []
          impl := (r.impl.readGate now).1
        }.finish .throttled log)
  | entered (ready : r.phase = .ready) (attached : r.impl.hdr.isSome)
    : ReadEntry r capacity now log
        {
          r with
          capacity := capacity, callLog := log, laps := []
          impl := (r.impl.readGate now).1
          phase := .loadLatest 0
          result := none
        }

/-- Entering `read_latest` is one of the listed ways. -/
theorem Reader.enterRead_cases {r next : Reader} {capacity now : UInt64} {polled : Bool}
    {log : List UInt64} (stepped : r.enterRead capacity polled log now = some next)
    : ReadEntry r capacity now log next := by
  unfold Reader.enterRead at stepped
  split at stepped
  case h_2 => cases stepped
  rename_i ready
  dsimp only at stepped
  split at stepped
  · split at stepped
    case isFalse => cases stepped
    rename_i attached
    split at stepped
    · cases stepped
      exact .entered ready attached
    · cases stepped
      exact .throttled ready
  · cases stepped
    exact .disconnected ready

/-- Entering `read_latest` remembers the history of `latest`. -/
theorem ReaderInv.enterRead {cfg : LLConfig} {d : WriterData} {r next : Reader}
    {capacity now : UInt64} (inv : ReaderInv cfg d r)
    (entry : ReadEntry r capacity now d.latestLog next)
    : ReaderInv cfg d next := by
  obtain ⟨hdr, remote, -, -⟩ := readGate_keeps r.impl now
  have gated
      : (r.impl.readGate now).1.hdr.isSome
        → (r.impl.readGate now).1.remote.slotCount = cfg.slotCount
          ∧ (r.impl.readGate now).1.remote.maxPayload = cfg.maxPayload := by
    rw [hdr, remote]
    exact inv.remote
  cases entry with
  | disconnected ready =>
      exact {
        phase := trivial
        inCall := fun busy => absurd rfl busy
        remote := inv.remote
        delivered := fun ok => by simp [Reader.finish] at ok
      }
  | throttled ready =>
      exact {
        phase := trivial
        inCall := fun busy => absurd rfl busy
        remote := gated
        delivered := fun ok => by simp [Reader.finish] at ok
      }
  | entered ready attached =>
      exact {
        phase := List.suffix_rfl
        inCall := fun _ => ⟨rfl, by rw [hdr]; exact attached⟩
        remote := gated
        delivered := fun ok => by simp at ok
      }

/-- Attaching adopts the publisher's configuration. -/
theorem ReaderInv.attach {cfg : LLConfig} {d : WriterData} {r next : Reader}
    {session : UInt64} (inv : ReaderInv cfg d r)
    (stepped : r.attach cfg session = some next)
    : ReaderInv cfg d next := by
  unfold Reader.attach at stepped
  split at stepped
  case h_2 => cases stepped
  rename_i ready detached
  cases stepped
  exact {
    phase := by
      rw [PhaseInv]
      simp only [ready]
    inCall := fun busy => absurd ready busy
    remote := fun _ => ⟨rfl, rfl⟩
    delivered := inv.delivered
  }

/-- A change of the read cap concerns later calls only. -/
theorem ReaderInv.setMaxRead {cfg : LLConfig} {d : WriterData} {r next : Reader}
    {intervalNs : UInt64} (inv : ReaderInv cfg d r)
    (stepped : r.setMaxRead intervalNs = some next)
    : ReaderInv cfg d next := by
  unfold Reader.setMaxRead at stepped
  split at stepped
  case h_2 => cases stepped
  rename_i ready
  cases stepped
  exact {
    phase := by
      rw [PhaseInv]
      simp only [ready]
    inCall := fun busy => absurd ready busy
    remote := inv.remote
    delivered := inv.delivered
  }

-----------------------------------------------------------------------------------------
-- The invariant of the interleaved system
-----------------------------------------------------------------------------------------

/-- Publisher and readers satisfy their invariants together. -/
structure SystemInv (cfg : LLConfig) (s : State) : Prop where
  writer : WriterInv cfg s.writer
  readers : ∀ reader, ReaderInv cfg s.writer.toWriterData (s.readers reader)

/-- At every cut the publisher's data stand at some stage of the current frame. -/
theorem WriterInv.stands {cfg : LLConfig} {w : Writer} (inv : WriterInv cfg w)
    : ∃ stage numbering unstored, Stands cfg w.toWriterData stage numbering unstored := by
  obtain ⟨d, phase⟩ := w
  cases phase with
  | ready | closed => rcases inv with inv | inv <;> exact ⟨_, _, _, inv.2⟩
  | cancelLoadSeq | cancelStoreSeq _ => exact inv.elim
  | _ => exact ⟨_, _, _, inv.2⟩

/-- Replacing one reader by one that satisfies the invariant keeps the system's. -/
theorem SystemInv.withReader {cfg : LLConfig} {s next : State} {reader : Nat}
    {outcome : Option Reader} (inv : SystemInv cfg s)
    (keeps : ∀ r, outcome = some r → ReaderInv cfg s.writer.toWriterData r)
    (stepped : s.withReader reader outcome = some next)
    : SystemInv cfg next := by
  obtain ⟨r, outcomeEq, rfl⟩ := Option.map_eq_some_iff.mp stepped
  refine ⟨inv.writer, fun other => ?_⟩
  change ReaderInv cfg _ (Function.update s.readers reader r other)
  by_cases same : other = reader
  · rw [same, Function.update_self]
    exact keeps r outcomeEq
  · rw [Function.update_of_ne same]
    exact inv.readers other

/-- Every step of the system without cancellations keeps the invariant. -/
theorem SystemInv.step {cfg : LLConfig} {s next : State} {action : Action}
    (inv : SystemInv cfg s) (bounds : cfg.FrameBounds)
    (keeps : action.Writes WriteAction.NoCancel)
    (small : next.writer.committed.length < 2 ^ 62)
    (stepped : s.step action = some next)
    : SystemInv cfg next := by
  obtain ⟨stage, numbering, unstored, stands⟩ := inv.writer.stands
  cases action with
  | write action =>
      obtain ⟨writer, moved, rfl⟩ := Option.map_eq_some_iff.mp stepped
      have progress := inv.writer.step_progresses bounds keeps small moved
      exact ⟨inv.writer.step bounds keeps small moved,
        fun reader => (inv.readers reader).progress bounds progress⟩
  | attach reader session =>
      refine inv.withReader (fun r attached => ?_) stepped
      exact (inv.readers reader).attach (stands.config ▸ attached)
  | setMaxRead reader intervalNs =>
      exact inv.withReader (fun r set => (inv.readers reader).setMaxRead set) stepped
  | readLatest reader capacity polled now =>
      exact inv.withReader (fun r entered =>
        (inv.readers reader).enterRead (Reader.enterRead_cases entered)) stepped
  | access reader now =>
      exact inv.withReader (fun r moved =>
        (inv.readers reader).move stands bounds (Reader.access_move moved)) stepped
  | copyByte reader index =>
      exact inv.withReader (fun r copied => (inv.readers reader).copyByte copied) stepped

/-- No access of the publisher shortens the history of commits. -/
theorem Writer.access_committed {w next : Writer} {now : UInt64}
    (stepped : w.access now = some next)
    : w.committed.length ≤ next.committed.length := by
  unfold Writer.access at stepped
  split at stepped <;> cases stepped <;> first
    | exact Nat.le_refl _
    | exact Nat.le_succ _

/-- No step of the publisher shortens the history of commits. -/
theorem Writer.step_committed {w next : Writer} {action : WriteAction}
    (stepped : w.step action = some next)
    : w.committed.length ≤ next.committed.length := by
  unfold Writer.step at stepped
  split at stepped
  · cases stepped
    unfold Writer.enterBegin
    dsimp only
    split <;> exact Nat.le_refl _
  · split at stepped <;> cases stepped
    exact Nat.le_refl _
  · cases stepped
    exact Nat.le_of_eq (congrArg List.length (Writer.enterCommit_committed w _ _)).symm
  · cases stepped
    split <;> exact Nat.le_refl _
  · cases stepped
    exact Nat.le_refl _
  · cases stepped
    exact Nat.le_refl _
  · exact Writer.access_committed stepped
  · cases stepped

/-- Steps never shorten the history of commits. -/
theorem State.step_committed {s next : State} {action : Action}
    (stepped : s.step action = some next)
    : s.writer.committed.length ≤ next.writer.committed.length := by
  cases action with
  | write action =>
      obtain ⟨writer, moved, rfl⟩ := Option.map_eq_some_iff.mp stepped
      exact Writer.step_committed moved
  | _ =>
      obtain ⟨r, _, rfl⟩ := Option.map_eq_some_iff.mp stepped
      exact Nat.le_refl _

/-- A run without cancellations and with fewer than `2 ^ 62` frames ends in a state that
satisfies the invariant, by the invariant rule with the bound carried along.
-/
theorem SystemInv.of_run {cfg : LLConfig} (bounds : cfg.FrameBounds) {now : UInt64}
    {impls : Nat → LLSubscriber.Impl} {schedule : List Action} {s : State}
    (keeps : ∀ action ∈ schedule, action.Writes WriteAction.NoCancel)
    (reached : frameMachine.run (State.create cfg now impls) schedule = some s)
    (small : s.writer.committed.length < 2 ^ 62)
    : SystemInv cfg s := by
  refine Machine.invariant_of_run (fun _ action => action.Writes WriteAction.NoCancel)
    (fun s => s.writer.committed.length < 2 ^ 62 → SystemInv cfg s) ?_ ?_
    (Machine.meets_of_forall (fun _ _ kept => kept) keeps) reached small
  · intro s action next inv kept stepped fewer
    exact (inv (Nat.lt_of_le_of_lt (State.step_committed stepped) fewer)).step bounds kept
      fewer stepped
  · intro _
    exact ⟨.create now, fun reader => .create (impls reader)⟩

end ShmFrame.Frames
