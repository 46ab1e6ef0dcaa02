import ShmFrame.Accesses.Uninterrupted

/-! Both overloads of `read_latest` on bytes follow those on words. -/

namespace ShmFrame.Accesses

open ShmFrame.Foundation ShmFrame.Foundation.Program
open LLSubscriber
open Calls (World Segment Subscriber Circumstances Call Seat Seated Buffer)

/-- What `read_latest` hands back, with the bytes it has copied in the caller's buffer. -/
def ReadReturn.into (ret : ReadReturn) (dst : Buffer) : Calls.ReadReturn where
  result := ret.result
  info := ret.info
  dst := { dst with bytes := fun index => ret.dst.getD index (dst.bytes index) }

/-- The bytes that a `read_latest` on words has copied. -/
def copiedBytes (ret : Calls.ReadReturn) : List UInt8 :=
  if ret.result = .ok then (List.range ret.info.payloadBytes.toNat).map ret.dst.bytes else []

/-- The same is handed back on bytes and on words. -/
structure Hands (dst : Buffer) (outcome : ReadReturn) (ret : Calls.ReadReturn) : Prop where
  into : ret = outcome.into dst
  copied : outcome.dst = copiedBytes ret

/-- The bytes that were copied come first in the buffer. -/
theorem getD_copied (source default : Nat → UInt8) (count index : Nat)
    : ((List.range count).map source).getD index (default index)
      = if index < count then source index else default index := by
  by_cases below : index < count
  · simp [below]
  · simp [below]

section Reading

variable {a : Alone} {s : Subscriber} {g : Nat}

/-- A load from a slot header that exists finds the word. -/
theorem loadSlot_alone (depicts : Depicts a s.world s.clock) {c : LLConfig}
    (config : (s.world.segments g).header.config = c) (sound : (s.world.segments g).Sound)
    {index : UInt32} (below : index < c.slotCount) (word : SlotWord)
    : (loadSlot g (computeLayout c) index word).Ensures alone Anything a fun value later =>
        value = slotWord ((s.world.segments g).slots index.toNat).header word ∧ later = a := by
  subst config
  refine (load_alone g _ _).mono (fun _ => id) fun value later found => ?_
  have there := (depicts.segment g).areas sound (.slotHeader index) below word
  rw [there] at found
  exact found

/-- Bytes are copied one after the other, by induction on their number. -/
theorem copyOut_alone (g : Nat) (area : Area) (first : UInt64) (count : Nat)
    : (copyOut g area first count).Ensures alone Anything a fun copied later =>
        copied = (List.range count).map (fun index => a.bytes g (first.toNat + index))
        ∧ later = a := by
  induction count with
  | zero => exact ⟨rfl, rfl⟩
  | succ count ih =>
      refine Ensures.bind ih fun front _ copied => ?_
      obtain ⟨rfl, rfl⟩ := copied
      refine ⟨trivial, fun byte later answered => ?_⟩
      obtain ⟨rfl, rfl⟩ := answered
      exact ⟨by rw [List.range_succ, List.map_append]; rfl, rfl⟩

/-- The metadata of a slot. -/
theorem loadInfo_alone (depicts : Depicts a s.world s.clock) {c : LLConfig}
    (config : (s.world.segments g).header.config = c) (sound : (s.world.segments g).Sound)
    {index : UInt32} (below : index < c.slotCount)
    : (loadInfo g (computeLayout c) index).Ensures alone Anything a fun info later =>
        info = ((s.world.segments g).slots index.toNat).header.info ∧ later = a := by
  unfold loadInfo
  iterate 6
    refine Ensures.bind (loadSlot_alone depicts config sound below _) fun _ _ loaded => ?_
    obtain ⟨rfl, rfl⟩ := loaded
  exact ⟨by simp [slotWord], rfl⟩

/-- How an attempt of `read_latest` on words goes on with a slot that is not being written. -/
def readSettled (dst : Buffer) (info : LLFrameInfo) (m : Impl) (slot : Slot)
    : Call Calls.ReadReturn := do
  let fi := slot.header.info
  let bytes := fi.payloadBytes.toUInt64
  if bytes = 0 || bytes > m.remote.maxPayload then return { result := .contended, info, dst }
  if bytes > dst.size then return { result := .bufferTooSmall, info := fi, dst }
  let copied (index : Nat) : UInt8 :=
    if index < bytes.toNat then slot.payload index else dst.bytes index
  Call.setImpl (m.deliver fi (← Call.nowNs))
  return { result := .ok, info := fi, dst := { dst with bytes := copied } }

/-- An attempt on a slot when nobody interferes: the second load of the sequence word agrees
with the first one.
-/
theorem readSlot_follows (depicts : Depicts a s.world s.clock)
    (seat : Seat (s.world.segments g) g s.impl) {index : UInt32}
    (below : index < s.impl.remote.slotCount) (dst : Buffer) (info : LLFrameInfo)
    : let slot := (s.world.segments g).slots index.toNat
      (readSlot s.impl g dst.size info index slot.header.seq).Follows alone a
        (fun _ : Unit => readSettled dst info s.impl slot) s fun outcome later ret next =>
          ∃ value,
            outcome = some value ∧ Agrees value.1 later next ∧ Hands dst value.2 ret := by
  dsimp only
  have there : index < (s.world.segments g).header.config.slotCount := by
    rwa [seat.remote] at below
  unfold readSlot
  rw [seat.layout]
  have unchanged := loadSlot_alone depicts rfl seat.sound there .seq
  refine Follows.left (loadInfo_alone depicts rfl seat.sound there) fun _ _ loaded => ?_
  obtain ⟨rfl, rfl⟩ := loaded
  refine Follows.ite Iff.rfl (fun _ _ => ?_) fun sized _ => ?_
  · refine Follows.left unchanged fun _ _ loaded => ?_
    obtain ⟨rfl, rfl⟩ := loaded
    refine Follows.iteLeft (fun differs => absurd rfl differs) fun _ => ?_
    exact .pure () ⟨_, rfl, ⟨rfl, depicts⟩, rfl, rfl⟩
  refine Follows.ite Iff.rfl (fun _ _ => ?_) fun _ _ => ?_
  · refine Follows.left unchanged fun _ _ loaded => ?_
    obtain ⟨rfl, rfl⟩ := loaded
    refine Follows.iteLeft (fun differs => absurd rfl differs) fun _ => ?_
    exact .pure () ⟨_, rfl, ⟨rfl, depicts⟩, rfl, rfl⟩
  refine Follows.left (copyOut_alone g _ _ _) fun copied _ happened => ?_
  obtain ⟨rfl, rfl⟩ := happened
  refine Follows.left unchanged fun _ _ loaded => ?_
  obtain ⟨rfl, rfl⟩ := loaded
  refine Follows.iteLeft (fun differs => absurd rfl differs) fun _ => ?_
  refine Follows.bind (nowNs_follows depicts) fun now later read => ?_
  obtain ⟨rfl, ticked⟩ := read
  refine .pure () ⟨_, rfl, ⟨rfl, ticked⟩, ?_⟩
  have small
      : ((s.world.segments g).slots index.toNat).header.info.payloadBytes.toUInt64.toNat
        ≤ (s.world.segments g).header.config.maxPayload.toNat := by
    simp only [Bool.or_eq_true, decide_eq_true_eq, not_or] at sized
    have largest := sized.2
    rw [seat.remote] at largest
    exact UInt64.le_iff_toNat_le.mp (UInt64.not_lt.mp largest)
  have payload := (depicts.segment g).areas seat.sound (.slotPayload index) there
  rw [List.map_congr_left fun offset member =>
    payload offset ((List.mem_range.mp member).trans_le small)]
  constructor
  · simp only [ReadReturn.into, getD_copied]
    rfl
  · refine Eq.trans ?_ (if_pos rfl).symm
    refine List.map_congr_left fun offset member => ?_
    exact (if_pos (List.mem_range.mp member)).symm

/-- The attempts on a slot, by induction on the number that is left. -/
theorem readAttempts_follows (depicts : Depicts a s.world s.clock)
    (seat : Seat (s.world.segments g) g s.impl) (dst : Buffer) (info : LLFrameInfo)
    (attempts : Nat)
    : (readAttempts s.impl g dst.size info attempts).Follows alone a
        (fun _ : Unit => Calls.readAttempts g dst info attempts) s fun outcome later ret next =>
          Agrees outcome.1 later next ∧ Hands dst outcome.2 ret := by
  induction attempts with
  | zero => exact .pure () ⟨⟨rfl, depicts⟩, rfl, rfl⟩
  | succ attempts ih =>
      refine Follows.left (loadHeader_alone depicts g .latest) fun _ _ loaded => ?_
      obtain ⟨rfl, rfl⟩ := loaded
      refine Follows.right (Follows.right ?_)
      refine Follows.ite Iff.rfl (fun _ _ => ?_) fun _ _ => ?_
      · refine Follows.left (loadHeader_alone depicts g .shutdown) fun _ _ loaded => ?_
        obtain ⟨rfl, rfl⟩ := loaded
        rw [headerWord, UInt32.toUInt32_toUInt64]
        refine Follows.ite Iff.rfl (fun _ _ => ?_) fun _ _ => ?_
        · exact .pure () ⟨⟨rfl, depicts⟩, rfl, rfl⟩
        · exact .pure () ⟨⟨rfl, depicts⟩, rfl, rfl⟩
      refine Follows.ite Iff.rfl (fun _ _ => ?_) fun inside _ => ?_
      · exact .pure () ⟨⟨rfl, depicts⟩, rfl, rfl⟩
      have below
          : latestSlot (s.world.segments g).header.latest < s.impl.remote.slotCount :=
        UInt32.not_le.mp inside
      have there := below
      rw [seat.remote] at there
      rw [seat.layout]
      refine Follows.left (loadSlot_alone depicts rfl seat.sound there .seq) fun _ _ loaded => ?_
      obtain ⟨rfl, rfl⟩ := loaded
      refine Follows.right (Follows.ite Iff.rfl (fun _ _ => ih) fun _ _ => ?_)
      refine Follows.finish (readSlot_follows depicts seat below dst info) ?_
      rintro _ later ret next ⟨value, rfl, agrees⟩
      exact ⟨value, rfl, agrees⟩

/-- The rate gate of the raw overload. -/
theorem rateGate_follows (depicts : Depicts a s.world s.clock)
    : (rateGate s.impl).Follows alone a (fun _ : Unit => Calls.rateGate) s
        fun gated later passes next => Agrees gated.1 later next ∧ gated.2 = passes := by
  refine Follows.right (Follows.ite Iff.rfl (fun _ _ => ?_) fun _ _ => ?_)
  · exact .pure () ⟨⟨rfl, depicts⟩, rfl⟩
  refine Follows.bind (nowNs_follows depicts) fun now later read => ?_
  obtain ⟨rfl, ticked⟩ := read
  exact .pure () ⟨⟨rfl, ticked⟩, rfl⟩

/-- The cheap gate of the vector overload. -/
theorem cheapGate_follows (depicts : Depicts a s.world s.clock)
    : (cheapGate s.impl).Follows alone a (fun _ : Unit => Calls.cheapGate) s
        fun gated later passes next => Agrees gated.1 later next ∧ gated.2 = passes := by
  refine Follows.right (Follows.ite Iff.rfl (fun _ _ => ?_) fun _ _ => ?_)
  · exact .pure () ⟨⟨rfl, depicts⟩, rfl⟩
  refine Follows.bind (nowNs_follows depicts) fun now later read => ?_
  obtain ⟨rfl, ticked⟩ := read
  refine Follows.ite Iff.rfl (fun _ _ => ?_) fun _ _ => ?_
  · exact .pure () ⟨⟨rfl, ticked⟩, rfl⟩
  · exact .pure () ⟨⟨rfl, ticked⟩, rfl⟩

/-- `read_latest(dst, capacity, info)`. -/
theorem readLatest_follows (depicts : Depicts a s.world s.clock)
    (seated : Seated s.world s.impl) (dst : Buffer) (info : LLFrameInfo)
    : (readLatest s.impl dst.size info).Follows alone a
        (fun system => Calls.readLatest system dst info) s fun outcome later ret next =>
          Agrees outcome.1 later next ∧ Hands dst outcome.2 ret := by
  refine Follows.bindFirst (poll_follows depicts seated) fun polled later system agrees => ?_
  have kept := (Calls.seats_poll system s).seated seated
  generalize (Calls.poll system).run s = outcome at agrees kept ⊢
  obtain ⟨alive, polledTo⟩ := outcome
  obtain ⟨m, alive'⟩ := polled
  dsimp only at agrees kept ⊢
  obtain ⟨⟨rfl, known⟩, rfl⟩ := agrees
  refine Follows.ite Iff.rfl (fun _ _ => .pure () ⟨⟨rfl, known⟩, rfl, rfl⟩) fun _ _ => ?_
  refine Follows.bind (rateGate_follows known) fun gated later agrees => ?_
  have kept := (Calls.rateGate_gated polledTo).seats.seated kept
  generalize Calls.rateGate.run polledTo = outcome at agrees kept ⊢
  obtain ⟨passes, gatedTo⟩ := outcome
  obtain ⟨m, passes'⟩ := gated
  dsimp only at agrees kept ⊢
  obtain ⟨⟨rfl, known⟩, rfl⟩ := agrees
  refine Follows.ite Iff.rfl (fun _ _ => .pure () ⟨⟨rfl, known⟩, rfl, rfl⟩) fun _ _ => ?_
  refine Follows.right ?_
  rw [Call.run_impl]
  dsimp only
  cases attached : gatedTo.impl.hdr with
  | none => exact .pure () ⟨⟨rfl, known⟩, rfl, rfl⟩
  | some g => exact readAttempts_follows known (kept g attached) dst info 4

/-- What the vector overload on words does after its first `poll`. -/
def readPolled (dst : Buffer) (info : LLFrameInfo) (system : Circumstances) (alive : Bool)
    : Call Calls.ReadReturn := do
  if !alive then return { result := .disconnected, info, dst }
  if !(← Calls.cheapGate) then return { result := .throttled, info, dst }
  let m ← Call.impl
  Calls.readLatest system (dst.resize m.remote.maxPayload) info

/-- `read_latest(dst, info)`, which may grow the buffer first. -/
theorem readLatestVector_follows (depicts : Depicts a s.world s.clock)
    (seated : Seated s.world s.impl) (dst : Buffer) (info : LLFrameInfo)
    : (readLatestVector s.impl dst.size info).Follows alone a
        (fun systems : Circumstances × Circumstances =>
          Calls.readLatestVector systems.1 systems.2 dst info)
        s fun outcome later ret next =>
          Agrees outcome.1 later next
          ∧ ∃ grown,
              (grown = dst ∨ ∃ need, grown = dst.resize need) ∧ Hands grown outcome.2 ret := by
  have parts (first second : Circumstances)
      : Calls.readLatestVector first second dst info
        = Calls.poll first >>= readPolled dst info second :=
    rfl
  refine Follows.bindChoices Prod.mk parts (poll_follows depicts seated)
    fun polled later system agrees => ?_
  have kept := (Calls.seats_poll system s).seated seated
  generalize (Calls.poll system).run s = outcome at agrees kept ⊢
  obtain ⟨alive, polledTo⟩ := outcome
  obtain ⟨m, alive'⟩ := polled
  dsimp only at agrees kept ⊢
  obtain ⟨⟨rfl, known⟩, rfl⟩ := agrees
  refine Follows.ite Iff.rfl (fun _ _ => ?_) fun _ _ => ?_
  · exact .pure {} ⟨⟨rfl, known⟩, _, .inl rfl, rfl, rfl⟩
  refine Follows.bind (cheapGate_follows known) fun gated later agrees => ?_
  have kept := (Calls.cheapGate_gated polledTo).seats.seated kept
  generalize Calls.cheapGate.run polledTo = outcome at agrees kept ⊢
  obtain ⟨passes, gatedTo⟩ := outcome
  obtain ⟨m, passes'⟩ := gated
  dsimp only at agrees kept ⊢
  obtain ⟨⟨rfl, known⟩, rfl⟩ := agrees
  refine Follows.ite Iff.rfl (fun _ _ => ?_) fun _ _ => ?_
  · exact .pure {} ⟨⟨rfl, known⟩, _, .inl rfl, rfl, rfl⟩
  refine Follows.right ?_
  rw [Call.run_impl]
  dsimp only
  have size
      : (if dst.size < gatedTo.impl.remote.maxPayload then gatedTo.impl.remote.maxPayload
          else dst.size)
        = (dst.resize gatedTo.impl.remote.maxPayload).size := by
    unfold Buffer.resize
    split <;> rfl
  rw [size]
  refine (readLatest_follows known kept _ info).mono fun outcome later ret next agrees => ?_
  exact ⟨agrees.1, _, .inr ⟨_, rfl⟩, agrees.2⟩

end Reading

end ShmFrame.Accesses
