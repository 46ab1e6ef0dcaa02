import ShmFrame.Frames.NoTearing

/-! The order in which a session delivers frames. `commit` makes a slot readable before it
stores `latest`, so a reader that was lapped can hold a frame `latest` does not name yet.
The newness test of `read_latest` compares for equality only: it then takes the older
`latest` for a new frame. Apart from such loads the order is strict and the count exact.
-/

namespace ShmFrame.Frames

open ShmFrame.Foundation

/-- The session delivered strictly increasing frames (`delivered` is newest first), and the
delivered and the dropped frames together are all frames from the first to the last.
-/
def InOrder (r : Reader) : Prop :=
  r.delivered.Pairwise (· > ·)
  ∧ ∀ first last,
      r.delivered.getLast? = some first
      → r.delivered.head? = some last
      → r.delivered.length + (r.impl.dropped - r.droppedAtFirst).toNat
        = last.toNat - first.toNat + 1

/-- The next access of the call is the load of `latest`. -/
def ReadPhase.loadsLatest : ReadPhase → Bool
  | .loadLatest _ => true
  | _ => false

/-- When `read_latest` loads `latest`, it is unset or not older than the last frame read. -/
def CaughtUp (reader : Nat) (s : State) : Action → Prop
  | .access mover _ =>
      mover = reader
      → (s.readers reader).phase.loadsLatest
      → s.writer.memory.latest = 0
        ∨ (s.readers reader).impl.lastFrame ≤ latestFrame s.writer.memory.latest
  | _ => True

instance (reader : Nat) (s : State) : DecidablePred (CaughtUp reader s)
  | .access .. => inferInstanceAs (Decidable (_ → _ → _))
  | .write .. | .attach .. | .setMaxRead .. | .readLatest .. | .copyByte .. => isTrue trivial

/-- The value of `latest` that an attempt works with. -/
def ReadPhase.watched : ReadPhase → Option UInt64
  | .ready | .loadLatest _ | .loadShutdown => none
  | .loadSeq _ packed => some packed
  | .loadInfo _ packed _ _ _ => some packed
  | .copy _ packed _ _ _ => some packed
  | .recheck _ packed _ _ _ => some packed

/-- What a session has delivered so far, and that an attempt in progress watches a frame
beyond it.
-/
structure OrderInv (d : WriterData) (r : Reader) : Prop where
  detached : r.impl.hdr = none → r.delivered = []
  lastFrame : r.impl.hdr.isSome → r.impl.lastFrame = r.delivered.head?.getD 0
  numbered : ∀ id ∈ r.delivered, 1 ≤ id.toNat ∧ id.toNat ≤ d.committed.length
  inOrder : InOrder r
  beyond : ∀ packed, r.phase.watched = some packed → r.impl.lastFrame < latestFrame packed

/-- Committed frames are numbered from 1 on. -/
theorem Numbered.id_bounds {history : List Frame} (numbered : Numbered history)
    {frame : Frame} (member : frame ∈ history)
    : 1 ≤ frame.info.frameId.toNat ∧ frame.info.frameId.toNat ≤ history.length := by
  induction history with
  | nil => cases member
  | cons head older ih =>
      rcases List.mem_cons.mp member with rfl | old
      · rw [numbered.1, List.length_cons]
        omega
      · obtain ⟨positive, bounded⟩ := ih numbered.2 old
        exact ⟨positive, bounded.trans (Nat.le_succ _)⟩

/-- Adding to a counter adds to its increase, as long as the sum stays in range. -/
theorem increase_add {counter start extra : UInt64}
    (small : (counter - start).toNat + extra.toNat < 2 ^ 64)
    : (counter + extra - start).toNat = (counter - start).toNat + extra.toNat := by
  have moved : counter + extra - start = (counter - start) + extra := by grind
  rw [moved, UInt64.toNat_add, Nat.mod_eq_of_lt small]

/-- The first frame of a session is counted as delivered, with nothing dropped. -/
theorem InOrder.first {r : Reader} (id : UInt64) (alone : r.delivered = [id])
    (start : r.droppedAtFirst = r.impl.dropped)
    : InOrder r := by
  refine ⟨by rw [alone]; exact List.pairwise_singleton _ _, fun first last isFirst isLast => ?_⟩
  rw [alone] at isFirst isLast
  obtain rfl := Option.some.inj isFirst
  obtain rfl := Option.some.inj isLast
  rw [alone, start, UInt64.sub_self]
  simp

/-- A later frame beyond the last one keeps the order, and `deliver` counts exactly the
frames skipped in between.
-/
theorem InOrder.next {r after : Reader} {last id : UInt64} {rest : List UInt64}
    (inOrder : InOrder r) (delivered : r.delivered = last :: rest)
    (beyond : last.toNat < id.toNat)
    (appended : after.delivered = id :: last :: rest)
    (start : after.droppedAtFirst = r.droppedAtFirst)
    (dropped : after.impl.dropped = r.impl.dropped + (id - last - 1))
    : InOrder after := by
  obtain ⟨pairwise, exact_⟩ := inOrder
  rw [delivered] at pairwise exact_
  have skipped : (id - last - 1).toNat = id.toNat - last.toNat - 1 := by
    have some : last ≤ id := UInt64.le_iff_toNat_le.mpr beyond.le
    have one : (1 : UInt64) ≤ id - last := by
      rw [UInt64.le_iff_toNat_le, UInt64.toNat_sub_of_le _ _ some]
      exact Nat.sub_pos_of_lt beyond
    rw [UInt64.toNat_sub_of_le _ _ one, UInt64.toNat_sub_of_le _ _ some]
    rfl
  have newest := (List.pairwise_cons.mp pairwise).1
  refine ⟨?_, fun first newLast isFirst isLast => ?_⟩
  · rw [appended]
    refine List.pairwise_cons.mpr ⟨fun older member => ?_, pairwise⟩
    have step : last < id := UInt64.lt_iff_toNat_lt.mpr beyond
    rcases List.mem_cons.mp member with rfl | old
    · exact step
    · exact UInt64.lt_trans (newest older old) step
  · rw [appended, List.head?_cons] at isLast
    obtain rfl := Option.some.inj isLast
    rw [appended, List.getLast?_cons_cons] at isFirst
    have count := exact_ first last isFirst rfl
    have ordered : first.toNat ≤ last.toNat := by
      rcases List.mem_cons.mp (List.mem_of_getLast? isFirst) with rfl | old
      · exact Nat.le_refl _
      · exact (UInt64.lt_iff_toNat_lt.mp (newest first old)).le
    have range := id.toNat_lt
    rw [appended, start, dropped, increase_add (by rw [skipped]; omega), skipped]
    simp only [List.length_cons] at count ⊢
    omega

namespace OrderInv

variable {d : WriterData} {r : Reader}

/-- A subscriber that never attached has delivered nothing. -/
theorem create (impl : LLSubscriber.Impl)
    : OrderInv d { impl := { impl with hdr := none } } where
  detached := fun _ => rfl
  lastFrame := fun attached => by simp at attached
  numbered := by simp
  inOrder := ⟨List.Pairwise.nil, fun first last isFirst => by simp at isFirst⟩
  beyond := fun packed watched => by simp [ReadPhase.watched] at watched

/-- The publisher's progress keeps what was delivered. -/
theorem progress {slots : Nat} {next : WriterData} (inv : OrderInv d r)
    (progress : Progresses slots d next)
    : OrderInv next r :=
  { inv with
    numbered := fun id member =>
      ⟨(inv.numbered id member).1,
        (inv.numbered id member).2.trans progress.committed.length_le⟩ }

/-- Steps that deliver nothing keep the session's count. -/
theorem keep (inv : OrderInv d r) {after : Reader}
    (hdr : after.impl.hdr = r.impl.hdr) (lastFrame : after.impl.lastFrame = r.impl.lastFrame)
    (dropped : after.impl.dropped = r.impl.dropped)
    (delivered : after.delivered = r.delivered)
    (start : after.droppedAtFirst = r.droppedAtFirst)
    (beyond
      : ∀ packed, after.phase.watched = some packed → r.impl.lastFrame < latestFrame packed)
    : OrderInv d after where
  detached := by
    rw [hdr, delivered]
    exact inv.detached
  lastFrame := by
    rw [hdr, lastFrame, delivered]
    exact inv.lastFrame
  numbered := by
    rw [delivered]
    exact inv.numbered
  inOrder := by
    rw [InOrder, delivered, dropped, start]
    exact inv.inOrder
  beyond := by
    rw [lastFrame]
    exact beyond

/-- Giving up an attempt delivers nothing. -/
theorem retry (inv : OrderInv d r) (attempt : Nat) (log : List UInt64)
    : OrderInv d (r.retry attempt log) := by
  unfold Reader.retry
  dsimp only
  split
  · exact inv.keep rfl rfl rfl rfl rfl (fun _ watched => by simp [ReadPhase.watched] at watched)
  · exact inv.keep rfl rfl rfl rfl rfl
      (fun _ watched => by simp [Reader.finish, ReadPhase.watched] at watched)

/-- A confirmed copy delivers a frame beyond the last one. -/
theorem accept (inv : OrderInv d r) (attached : r.impl.hdr.isSome) {info : LLFrameInfo}
    (beyond : r.impl.lastFrame.toNat < info.frameId.toNat)
    (published : info.frameId.toNat ≤ d.committed.length) (now : UInt64)
    (log : List UInt64)
    : OrderInv d (r.accept info now log) where
  detached := fun none => by
    change r.impl.hdr = Option.none at none
    simp [none] at attached
  lastFrame := fun _ => rfl
  numbered := by
    intro id member
    rcases List.mem_cons.mp member with rfl | old
    · exact ⟨by omega, published⟩
    · exact inv.numbered id old
  inOrder := by
    have lastFrame := inv.lastFrame attached
    cases history : r.delivered with
    | nil =>
        refine InOrder.first info.frameId ?_ ?_
        · change info.frameId :: r.delivered = _
          rw [history]
        · simp only [Reader.accept, Reader.finish, history, List.isEmpty_nil, if_true]
    | cons last rest =>
        rw [history] at lastFrame
        have same : r.impl.lastFrame = last := lastFrame
        have positive := (inv.numbered last (by simp [history])).1
        refine inv.inOrder.next history (same ▸ beyond) ?_ ?_ ?_
        · change info.frameId :: r.delivered = _
          rw [history]
        · simp only [Reader.accept, Reader.finish, history, List.isEmpty_cons,
            Bool.false_eq_true, if_false]
        · have nonzero : last ≠ 0 := by
            rintro rfl
            exact absurd positive (by decide)
          have greater : info.frameId > last := UInt64.lt_iff_toNat_lt.mpr (same ▸ beyond)
          simp [Reader.accept, Reader.finish, LLSubscriber.Impl.deliver, same, nonzero,
            greater]
  beyond := fun _ watched => by simp [Reader.accept, Reader.finish, ReadPhase.watched]
    at watched

/-- Every access keeps the session's count if a load of `latest` finds it caught up. -/
theorem move {cfg : LLConfig} {next : Reader} {now : UInt64} {stage : Stage}
    {numbering : Nat} {unstored : List InfoField}
    (inv : OrderInv d r) (known : ReaderInv cfg d r)
    (stands : Stands cfg d stage numbering unstored) (bounds : cfg.FrameBounds)
    (caughtUp
      : ∀ attempt, r.phase = .loadLatest attempt
        → d.memory.latest = 0 ∨ r.impl.lastFrame ≤ latestFrame d.memory.latest)
    (moved : ReadMove d.memory d.latestLog now r next)
    : OrderInv d next := by
  have phaseInv := known.phase
  cases moved with
  | nothingNew phase | noNewFrame phase | badSlot phase =>
      exact inv.keep rfl rfl rfl rfl rfl
        (fun _ watched => by simp [Reader.finish, ReadPhase.watched] at watched)
  | disconnected phase shut =>
      exact inv.keep rfl rfl rfl rfl rfl
        (fun _ watched => by simp [Reader.finish, ReadPhase.watched] at watched)
  | @loadLatest attempt phase fresh =>
      simp only [LLSubscriber.Impl.nothingNew, Bool.or_eq_false_iff,
        decide_eq_false_iff_not] at fresh
      refine inv.keep rfl rfl rfl rfl rfl (fun packed watched => ?_)
      obtain rfl := Option.some.inj watched
      rcases caughtUp attempt phase with unset | notOlder
      · exact absurd unset fresh.1
      · exact UInt64.lt_of_le_of_ne notOlder (Ne.symm fresh.2)
  | busy phase odd => exact inv.retry _ _
  | lapped phase changed => exact inv.retry _ _
  | loadSeq phase even =>
      exact inv.keep rfl rfl rfl rfl rfl
        (fun packed watched => inv.beyond packed (by rw [phase]; exact watched))
  | loadField phase =>
      exact inv.keep rfl rfl rfl rfl rfl
        (fun packed watched => inv.beyond packed (by rw [phase]; exact watched))
  | loadLastField phase =>
      have beyond := inv.beyond _ (by rw [phase]; rfl)
      unfold Reader.checkSize
      dsimp only
      have going (later : ReadPhase) (same : later.watched = r.phase.watched)
          : OrderInv d { r with phase := later } :=
        inv.keep rfl rfl rfl rfl rfl (fun packed watched => inv.beyond packed (same ▸ watched))
      split
      · exact going _ (by rw [phase]; rfl)
      split
      · exact going _ (by rw [phase]; rfl)
      · exact going _ (by rw [phase]; rfl)
  | @conclude attempt packed before info verdict phase same =>
      rw [PhaseInv, phase] at phaseInv
      cases verdict with
      | badSize | tooSmall =>
          exact inv.keep rfl rfl rfl rfl rfl
            (fun _ watched => by
              simp [Reader.conclude, Reader.finish, ReadPhase.watched] at watched)
      | copied =>
          obtain ⟨frame, member, ⟨sameInfo, -⟩, newer⟩ :=
            stands.holds_frame bounds phaseInv same
          have beyond := UInt64.lt_iff_toNat_lt.mp (inv.beyond packed (by rw [phase]; rfl))
          rw [phaseInv.frame] at beyond
          have sameId := congrArg LLFrameInfo.frameId sameInfo
          dsimp only at sameId
          have idBounds := stands.numbered.id_bounds member
          rw [sameId] at newer idBounds
          exact inv.accept (known.inCall (by simp [phase])).2 (by omega) idBounds.2 now _

/-- Copying payload bytes delivers nothing yet. -/
theorem copyByte {next : Reader} {memory : FrameMemory} {index : Nat} (inv : OrderInv d r)
    (stepped : r.copyByte memory index = some next)
    : OrderInv d next := by
  unfold Reader.copyByte at stepped
  split at stepped
  case h_2 => cases stepped
  rename_i attempt packed before info copied phase
  split at stepped
  case isFalse => cases stepped
  dsimp only at stepped
  split at stepped
  · cases stepped
    exact inv.keep rfl rfl rfl rfl rfl
      (fun packed watched => inv.beyond packed (by rw [phase]; exact watched))
  · cases stepped
    exact inv.keep rfl rfl rfl rfl rfl
      (fun packed watched => inv.beyond packed (by rw [phase]; exact watched))

/-- Entering `read_latest` delivers nothing yet. -/
theorem enterRead {next : Reader} {capacity now : UInt64} {log : List UInt64}
    (inv : OrderInv d r) (entry : ReadEntry r capacity now log next)
    : OrderInv d next := by
  obtain ⟨hdr, -, lastFrame, dropped⟩ := readGate_keeps r.impl now
  cases entry with
  | disconnected ready =>
      exact inv.keep rfl rfl rfl rfl rfl
        (fun _ watched => by simp [Reader.finish, ReadPhase.watched] at watched)
  | throttled ready =>
      exact inv.keep hdr lastFrame dropped rfl rfl
        (fun _ watched => by simp [Reader.finish, ReadPhase.watched] at watched)
  | entered ready attached =>
      exact inv.keep hdr lastFrame dropped rfl rfl
        (fun _ watched => by simp [ReadPhase.watched] at watched)

/-- Attaching starts the session with nothing delivered. -/
theorem attach {next : Reader} {cfg : LLConfig} {session : UInt64}
    (stepped : r.attach cfg session = some next)
    : OrderInv d next := by
  unfold Reader.attach at stepped
  split at stepped
  case h_2 => cases stepped
  rename_i ready detached
  cases stepped
  exact {
    detached := fun _ => rfl
    lastFrame := fun _ => rfl
    numbered := by simp
    inOrder := ⟨List.Pairwise.nil, fun first last isFirst => by simp at isFirst⟩
    beyond := fun packed watched => by simp [ready, ReadPhase.watched] at watched
  }

/-- A change of the read cap delivers nothing. -/
theorem setMaxRead {next : Reader} {intervalNs : UInt64} (inv : OrderInv d r)
    (stepped : r.setMaxRead intervalNs = some next)
    : OrderInv d next := by
  unfold Reader.setMaxRead at stepped
  split at stepped
  case h_2 => cases stepped
  cases stepped
  exact inv.keep rfl rfl rfl rfl rfl inv.beyond

end OrderInv

-----------------------------------------------------------------------------------------
-- Whole runs
-----------------------------------------------------------------------------------------

/-- Every step that finds the reader caught up keeps its session's count. -/
theorem OrderInv.step {cfg : LLConfig} {s next : State} {action : Action} {reader : Nat}
    (order : OrderInv s.writer.toWriterData (s.readers reader)) (inv : SystemInv cfg s)
    (bounds : cfg.FrameBounds) (keeps : action.Writes WriteAction.NoCancel)
    (caughtUp : CaughtUp reader s action)
    (small : next.writer.committed.length < 2 ^ 62)
    (stepped : s.step action = some next)
    : OrderInv next.writer.toWriterData (next.readers reader) := by
  obtain ⟨stage, numbering, unstored, stands⟩ := inv.writer.stands
  -- Another reader's step leaves this reader alone.
  have single {mover : Nat} {outcome : Option Reader}
      (moved : s.withReader mover outcome = some next)
      (kept : mover = reader → ∀ r, outcome = some r → OrderInv s.writer.toWriterData r)
      : OrderInv next.writer.toWriterData (next.readers reader) := by
    obtain ⟨r, outcomeEq, rfl⟩ := Option.map_eq_some_iff.mp moved
    change OrderInv _ (Function.update s.readers mover r reader)
    by_cases same : reader = mover
    · rw [same, Function.update_self]
      exact kept same.symm r outcomeEq
    · rw [Function.update_of_ne same]
      exact order
  cases action with
  | write action =>
      obtain ⟨writer, moved, rfl⟩ := Option.map_eq_some_iff.mp stepped
      exact order.progress (inv.writer.step_progresses bounds keeps small moved)
  | attach mover session => exact single stepped fun _ r attached => .attach attached
  | setMaxRead mover intervalNs =>
      exact single stepped fun same r set => order.setMaxRead (same ▸ set)
  | readLatest mover capacity polled now =>
      exact single stepped fun same r entered =>
        order.enterRead (Reader.enterRead_cases (same ▸ entered))
  | access mover now =>
      refine single stepped fun same r moved => ?_
      subst same
      exact order.move (inv.readers mover) stands bounds
        (fun attempt phase => caughtUp rfl (by rw [phase]; rfl)) (Reader.access_move moved)
  | copyByte mover index =>
      exact single stepped fun same r copied => order.copyByte (same ▸ copied)

/-- A reader whose loads of `latest` all find it caught up with the last delivered frame
gets the frames of its session strictly in order, and delivered and dropped frames together
are all frames from the first to the last.
-/
theorem readLatest_inOrder {cfg : LLConfig} (accepted : cfg.accepted = true) {now : UInt64}
    {impls : Nat → LLSubscriber.Impl} {schedule : List Action} {s : State} (reader : Nat)
    (keeps : ∀ action ∈ schedule, action.Writes WriteAction.NoCancel)
    (caughtUp : frameMachine.Meets (CaughtUp reader) (State.create cfg now impls) schedule)
    (reached : frameMachine.run (State.create cfg now impls) schedule = some s)
    (few : s.writer.committed.length < 2 ^ 62)
    : InOrder (s.readers reader) := by
  have bounds := cfg.accepted_frameBounds accepted
  have all := Machine.invariant_of_run
    (fun s action => CaughtUp reader s action ∧ action.Writes WriteAction.NoCancel)
    (fun s => s.writer.committed.length < 2 ^ 62
      → SystemInv cfg s ∧ OrderInv s.writer.toWriterData (s.readers reader))
    ?_ (fun _ => ⟨⟨.create now, fun reader => .create (impls reader)⟩, .create (impls reader)⟩)
    (caughtUp.and (Machine.meets_of_forall (fun _ _ kept => kept) keeps)) reached
  · exact (all few).2.inOrder
  intro s action next inv ⟨current, kept⟩ stepped fewer
  obtain ⟨system, order⟩ := inv (Nat.lt_of_le_of_lt (State.step_committed stepped) fewer)
  exact ⟨system.step bounds kept fewer stepped,
    order.step system bounds kept current fewer stepped⟩

/-- Only between the two stores of `commit` can `latest` be older than a frame a session
has delivered.
-/
theorem OrderInv.behind_commit {cfg : LLConfig} {w : Writer} {r : Reader}
    (order : OrderInv w.toWriterData r) (inv : WriterInv cfg w) (bounds : cfg.FrameBounds)
    (attached : r.impl.hdr.isSome) (behind : latestFrame w.memory.latest < r.impl.lastFrame)
    : w.phase = .commitStoreLatest := by
  by_contra elsewhere
  obtain ⟨d, phase⟩ := w
  -- Outside of that cut `latest` names the newest committed frame.
  obtain ⟨stage, numbering, unstored, stands, current⟩
      : ∃ stage numbering unstored, Stands cfg d stage numbering unstored
          ∧ stage.behind = 0 := by
    cases phase with
    | ready | closed => rcases inv with inv | inv <;> exact ⟨_, _, _, inv.2, rfl⟩
    | cancelLoadSeq | cancelStoreSeq _ => exact inv.elim
    | commitStoreLatest => exact absurd rfl elsewhere
    | _ => exact ⟨_, _, _, inv.2, rfl⟩
  have published := stands.published
  rw [current, Nat.add_zero] at published
  have delivered : r.impl.lastFrame.toNat ≤ d.committed.length := by
    rw [order.lastFrame attached]
    cases history : r.delivered with
    | nil => exact Nat.zero_le _
    | cons last rest => exact (order.numbered last (by simp [history])).2
  have named : (latestFrame d.memory.latest).toNat = d.latestLog.length := by
    by_cases unset : d.memory.latest = 0
    · rw [unset]
      have latest := stands.latest
      have logged := stands.logged
      cases history : d.latestLog with
      | nil => rfl
      | cons head older =>
          rw [history] at latest logged
          have zero : head = 0 := latest.symm.trans unset
          have value := logged.1
          rw [zero, UInt64.toNat_zero] at value
          omega
    · exact (stands.watch bounds unset List.suffix_rfl).frame
  have less := UInt64.lt_iff_toNat_lt.mp behind
  change (latestFrame d.memory.latest).toNat < _ at less
  omega

/-- A subscriber attaches, one byte is published and then read. -/
def publishAndRead : List Action :=
  [.attach 0 77] ++ publishByte 9 6 ++ readByte 0 7

/-- The hypotheses are met by a run that delivers one frame. -/
theorem readLatest_inOrder_publish_read
    : ∃ s,
        frameMachine.run (State.create tinyConfig 5 fun _ => {}) publishAndRead = some s
        ∧ (s.readers 0).delivered = [1]
        ∧ InOrder (s.readers 0) := by
  have passes
      : (frameMachine.run (State.create tinyConfig 5 fun _ => {}) publishAndRead).any
          (fun s => s.writer.committed.length < 2 ^ 62 ∧ (s.readers 0).delivered = [1])
        = true := by
    decide +kernel
  obtain ⟨s, reached, tested⟩ := Machine.reaches_of_any passes
  rw [decide_eq_true_eq] at tested
  obtain ⟨few, delivered⟩ := tested
  exact ⟨s, reached, delivered,
    readLatest_inOrder (by decide) 0 (by decide +kernel) (by decide +kernel) reached few⟩

/-- A reader that loaded `latest` is lapped until frame 4 is stable in the slot of frame 1
and `latest` is still 3. The call returns frame 4; the next one finds 3 different from 4.
-/
def overtakenRead : List Action :=
  [.attach 0 77] ++ publishByte 1 6
  ++ [.readLatest 0 1 true 7, .access 0 7]
  ++ publishByte 2 7 ++ publishByte 3 7 ++ beginByte 7
  ++ .write (.commit 7 7) :: List.replicate 4 (.write (.access 7))
  ++ List.replicate 7 (.access 0 7) ++ [.copyByte 0 0, .access 0 7]
  ++ readByte 0 8

/-- After frame 4 the session delivers frame 3. -/
theorem readLatest_out_of_order
    : ∃ s,
        frameMachine.run (State.create tinyConfig 5 fun _ => {}) overtakenRead = some s
        ∧ (s.readers 0).delivered = [3, 4]
        ∧ ¬ InOrder (s.readers 0) := by
  have passes
      : (frameMachine.run (State.create tinyConfig 5 fun _ => {}) overtakenRead).any
          (fun s => (s.readers 0).delivered = [3, 4])
        = true := by
    decide +kernel
  obtain ⟨s, reached, tested⟩ := Machine.reaches_of_any passes
  rw [decide_eq_true_eq] at tested
  refine ⟨s, reached, tested, fun inOrder => ?_⟩
  have newest := inOrder.1
  rw [tested] at newest
  exact absurd newest (by decide)

end ShmFrame.Frames
