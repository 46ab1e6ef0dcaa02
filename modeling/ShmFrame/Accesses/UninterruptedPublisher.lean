import ShmFrame.Accesses.PublisherCalls
import ShmFrame.Accesses.UninterruptedCommands
import ShmFrame.Calls.Conversation
import ShmFrame.Calls.PublishRate

/-! The publisher's calls on bytes follow those on words. -/

namespace ShmFrame.Accesses

open ShmFrame.Foundation ShmFrame.Foundation.Program
open LLPublisher
open Commands (PushCall LLShmCommand)
open Calls (World Segment Publisher TimedPublisher RowCopy)

/-- What a publisher knows of its segment. -/
structure Hosting (p : Publisher) : Prop where
  sound : p.segment.Sound
  config : p.segment.header.config = echoed p.impl.cfg
  pending : ∀ index, p.impl.pending = some index → index = p.impl.writeSlot
  selected : p.impl.writeSlot < p.impl.cfg.slotCount
  bounds : p.impl.cfg.FrameBounds

/-- The private state is the one on words, and the bytes say the words. -/
structure Mirrors (g : Nat) (world : World) (m : Impl) (later : Alone) (s : TimedPublisher)
    : Prop where
  impl : m = s.publisher.impl
  depicts : Depicts later (world.setSegment g s.publisher.segment) s.clock

-----------------------------------------------------------------------------------------
-- Slots
-----------------------------------------------------------------------------------------

section Slots

variable {a : Alone} {world : World} {clock : Nat → UInt64} {g : Nat} {segment : Segment}
  {c : LLConfig} {index : UInt32}

/-- Only the last slot counts. -/
theorem withSlot_twice (segment : Segment) (index : Nat) (first second : Slot)
    : withSlot (withSlot segment index first) index second = withSlot segment index second := by
  unfold withSlot
  congr 1
  funext other
  by_cases same : other = index
  · simp [same]
  · simp [same]

theorem withSlot_self (segment : Segment) (index : Nat)
    : withSlot segment index (segment.slots index) = segment := by
  obtain ⟨size, header, slots, down, up⟩ := segment
  unfold withSlot
  congr 1
  funext other
  split
  · rename_i same
    rw [same]
  · rfl

/-- A word of a slot header is loaded. -/
theorem loadSlot_depicts (depicts : Depicts a (world.setSegment g segment) clock)
    (sound : segment.Sound) (config : segment.header.config = echoed c)
    (below : index < c.slotCount) (word : SlotWord)
    : (loadSlot g (computeLayout c) index word).Ensures alone Anything a fun value later =>
        value = slotWord (segment.slots index.toNat).header word ∧ later = a := by
  refine load_depicts depicts fun encodes => ?_
  have there : (Area.slotHeader index).Exists segment.header.config := by rwa [config]
  have found := encodes.areas sound (.slotHeader index) there word
  rw [config] at found
  exact found

/-- A word of a slot header is stored. -/
theorem storeSlot_depicts {slot : Slot}
    (depicts : Depicts a (world.setSegment g (withSlot segment index.toNat slot)) clock)
    (sound : segment.Sound) (config : segment.header.config = echoed c)
    (below : index < c.slotCount) {word : SlotWord} {value : UInt64}
    (fits : FitsIn word.place value) (header : LLSlotHeader)
    (set
      : ∀ other, slotWord header other = if other = word then value else slotWord slot.header other)
    : (storeSlot g (computeLayout c) index word value).Ensures alone Anything a fun _ later =>
        Depicts later
          (world.setSegment g (withSlot segment index.toNat { slot with header })) clock := by
  refine store_depicts depicts (fun encodes => ?_) rfl
  have there : index < (withSlot segment index.toNat slot).header.config.slotCount := by
    change index < segment.header.config.slotCount
    rwa [config]
  have here : (withSlot segment index.toNat slot).slots index.toNat = slot := if_pos rfl
  have stored := encodes.storeSlot ⟨sound.valid, sound.fits⟩ there fits header (by rwa [here])
  rw [here, withSlot_twice] at stored
  change Encodes (storeAt (a.bytes g)
    (at_ (slotAt (computeLayout segment.header.config) index) word.place) value) _ at stored
  rw [config] at stored
  exact stored

/-- A word of the header is stored. -/
theorem storeHeader_depicts (depicts : Depicts a (world.setSegment g segment) clock)
    (sound : segment.Sound) {word : HeaderWord} {value : UInt64} (fits : FitsIn word.place value)
    (h : LLHeader) (config : h.config = segment.header.config)
    (set
      : ∀ other,
          headerWord h other = if other = word then value else headerWord segment.header other)
    : (storeHeader g word value).Ensures alone Anything a fun _ later =>
        Depicts later (world.setSegment g { segment with header := h }) clock :=
  store_depicts depicts (fun encodes => encodes.storeHeader sound fits h config set) rfl

/-- The sequence word is made odd or even. -/
theorem stepSeq_depicts {slot : Slot}
    (depicts : Depicts a (world.setSegment g (withSlot segment index.toNat slot)) clock)
    (sound : segment.Sound) (config : segment.header.config = echoed c)
    (below : index < c.slotCount)
    : (stepSeq g (computeLayout c) index).Ensures alone Anything a fun _ later =>
        let header := { slot.header with seq := slot.header.seq + 1 }
        Depicts later (world.setSegment g (withSlot segment index.toNat { slot with header }))
          clock := by
  have here : (withSlot segment index.toNat slot).slots index.toNat = slot := if_pos rfl
  refine Ensures.bind (loadSlot_depicts depicts ⟨sound.valid, sound.fits⟩ config below .seq)
    fun _ _ loaded => ?_
  obtain ⟨rfl, rfl⟩ := loaded
  rw [here]
  exact storeSlot_depicts depicts sound config below (.eight rfl _) _ fun other => by
    cases other <;> rfl

end Slots

-----------------------------------------------------------------------------------------
-- Frames
-----------------------------------------------------------------------------------------

section Frames

variable {a : Alone} {world : World} {g : Nat} {m : Impl} {s : TimedPublisher}

/-- Without a limit the reading of the clock does not matter. -/
theorem admitWrite_unlimited {m : Impl} (unlimited : m.minIntervalNs = 0)
    (width height : UInt32) (left right : UInt64)
    : m.admitWrite width height left = m.admitWrite width height right := by
  simp [Impl.admitWrite, unlimited]

/-- The clock is read for the gate as on words. -/
theorem gateClock_alone (depicts : Depicts a world s.clock) (m : Impl) (width height : UInt32)
    : (gateClock m).Ensures alone Anything a fun now later =>
        m.admitWrite width height now = m.admitWrite width height (s.clock 0)
        ∧ Depicts later world (s.skip (if m.minIntervalNs ≠ 0 then 1 else 0)).clock := by
  unfold gateClock
  refine Ensures.ite (fun unlimited => ⟨admitWrite_unlimited unlimited .., ?_⟩) fun limited => ?_
  · rw [if_neg (not_not.mpr unlimited)]
    exact depicts
  · rw [if_pos limited]
    refine nowNs_alone.mono (fun _ => id) fun now later answered => ?_
    obtain ⟨rfl, rfl⟩ := answered
    exact ⟨by rw [congrFun depicts.clock 0], depicts.tick⟩

/-- Where the gate is not reached nothing happens. -/
theorem admitWrite_early {m : Impl} {width height : UInt32}
    (early : (m.pending.isSome || width = 0 || height = 0) = true) (now : UInt64)
    : m.admitWrite width height now = (m, false) := by
  unfold Impl.admitWrite
  simp only [Bool.or_eq_true, decide_eq_true_eq] at early ⊢
  rcases early with (pending | columns) | rows
  · rw [if_pos pending]
  · simp [columns]
  · simp [rows]

/-- The geometry is stored into the slot that was selected, whose sequence word becomes odd. -/
theorem markSlot_depicts {segment : Segment} {clock : Nat → UInt64} {c : LLConfig}
    {index : UInt32} {slot : Slot}
    (depicts : Depicts a (world.setSegment g (withSlot segment index.toNat slot)) clock)
    (sound : segment.Sound) (config : segment.header.config = echoed c)
    (below : index < c.slotCount) (info : LLFrameInfo) (m : Impl)
    : (do
        let l := computeLayout c
        stepSeq g l index
        storeSlot g l index .width info.width.toUInt64
        storeSlot g l index .height info.height.toUInt64
        storeSlot g l index .stride info.stride.toUInt64
        storeSlot g l index .payloadBytes info.payloadBytes.toUInt64
        return ({ m with pending := some index }, some (slotPayload l index))
        : Access (Impl × Option UInt64)).Ensures alone Anything a fun outcome later =>
          let header := {
            seq := slot.header.seq + 1
            info := { info with
              frameId := slot.header.info.frameId
              timestampNs := slot.header.info.timestampNs }
          }
          outcome
            = ({ m with pending := some index }, some (slotPayload (computeLayout c) index))
          ∧ Depicts later (world.setSegment g (withSlot segment index.toNat { slot with header }))
              clock := by
  refine Ensures.bind (stepSeq_depicts depicts sound config below) fun _ _ marked => ?_
  dsimp only at marked
  refine Ensures.bind (storeSlot_depicts marked sound config below (.four rfl info.width)
    {
      seq := slot.header.seq + 1
      info := { slot.header.info with width := info.width }
    } fun other => by cases other <;> rfl) fun _ _ stored => ?_
  refine Ensures.bind (storeSlot_depicts stored sound config below (.four rfl info.height)
    {
      seq := slot.header.seq + 1
      info := { slot.header.info with width := info.width, height := info.height }
    } fun other => by cases other <;> rfl) fun _ _ stored => ?_
  refine Ensures.bind (storeSlot_depicts stored sound config below (.four rfl info.stride)
    {
      seq := slot.header.seq + 1
      info := {
        slot.header.info with
        width := info.width
        height := info.height
        stride := info.stride
      }
    } fun other => by cases other <;> rfl) fun _ _ stored => ?_
  refine Ensures.bind (storeSlot_depicts stored sound config below (.four rfl info.payloadBytes)
    {
      seq := slot.header.seq + 1
      info := { info with
        frameId := slot.header.info.frameId
        timestampNs := slot.header.info.timestampNs }
    } fun other => by cases other <;> rfl) fun _ _ stored => ?_
  exact ⟨rfl, stored⟩

/-- The rotation stays below the number of slots. -/
theorem Hosting.upcoming {p : Publisher} (hosting : Hosting p)
    : p.upcoming < p.impl.cfg.slotCount := by
  have some_ := hosting.bounds.slots
  rw [UInt32.lt_iff_toNat_lt, Publisher.upcoming, UInt32.toNat_mod]
  exact Nat.mod_lt _ (by omega)

/-- `begin_write`. -/
theorem beginWrite_mirrors (mirrors : Mirrors g world m a s) (hosting : Hosting s.publisher)
    (width height : UInt32)
    : (beginWrite g m width height).Ensures alone Anything a fun outcome later =>
        let begun := s.beginWrite width height
        Mirrors g world outcome.1 later begun.1
        ∧ outcome.2
          = if begun.2 then
              some (slotPayload (computeLayout m.cfg) begun.1.publisher.impl.writeSlot)
            else none := by
  obtain ⟨rfl, depicts⟩ := mirrors
  obtain ⟨p, clock, commits⟩ := s
  unfold beginWrite TimedPublisher.beginWrite Publisher.beginWrite
  dsimp only at hosting depicts ⊢
  refine Ensures.ite (fun early => ?_) fun reached => ?_
  · rw [admitWrite_early early]
    have unread
        : (p.impl.pending.isNone && width ≠ 0 && height ≠ 0 && p.impl.minIntervalNs ≠ 0)
          = false := by
      simp only [Bool.or_eq_true, decide_eq_true_eq] at early
      rcases early with (pending | columns) | rows
      · simp [Option.isNone_eq_false_iff.mpr pending]
      · simp [columns]
      · simp [rows]
    rw [unread]
    exact ⟨⟨rfl, depicts⟩, rfl⟩
  have read
      : (p.impl.pending.isNone && width ≠ 0 && height ≠ 0 && p.impl.minIntervalNs ≠ 0)
        = decide (p.impl.minIntervalNs ≠ 0) := by
    simp only [Bool.or_eq_true, decide_eq_true_eq, not_or, Option.not_isSome_iff_eq_none]
      at reached
    simp [reached]
  simp only [read, decide_eq_true_eq]
  refine Ensures.bind (gateClock_alone (s := ⟨p, clock, commits⟩) depicts p.impl width height)
    fun now later gated => ?_
  obtain ⟨same, depicts⟩ := gated
  rw [same]
  rcases p.impl.admitWrite_cases width height (clock 0) with refused | counted | ⟨-, admitted⟩
  · rw [refused]
    exact ⟨⟨rfl, depicts⟩, rfl⟩
  · rw [counted]
    exact ⟨⟨rfl, depicts⟩, rfl⟩
  · rw [admitted]
    have below : p.upcoming < p.impl.cfg.slotCount := hosting.upcoming
    rw [← withSlot_self p.segment p.upcoming.toNat] at depicts
    refine (markSlot_depicts depicts hosting.sound hosting.config below
      (geometry p.impl.cfg width height) { p.impl with writeSlot := p.upcoming }).mono
      (fun _ => id) fun outcome later marked => ?_
    rw [marked.1]
    exact ⟨⟨rfl, marked.2⟩, rfl⟩

/-- The time stamp is read from the clock if none is given. -/
theorem stampOf_alone (depicts : Depicts a world s.clock) (timestamp : UInt64)
    : (stampOf timestamp).Ensures alone Anything a fun stamp later =>
        stamp = (if timestamp ≠ 0 then timestamp else s.clock 0)
        ∧ Depicts later world (s.skip (if timestamp = 0 then 1 else 0)).clock := by
  unfold stampOf
  refine Ensures.ite (fun missing => ?_) fun given => ?_
  · rw [if_pos missing, if_neg (not_not.mpr missing)]
    refine nowNs_alone.mono (fun _ => id) fun now later answered => ?_
    obtain ⟨rfl, rfl⟩ := answered
    exact ⟨congrFun depicts.clock 0, depicts.tick⟩
  · rw [if_neg given, if_pos given]
    exact ⟨rfl, depicts⟩

/-- A slot that is being written is one there is. -/
theorem Hosting.below {p : Publisher} (hosting : Hosting p) {index : UInt32}
    (pending : p.impl.pending = some index)
    : index < p.impl.cfg.slotCount := by
  rw [hosting.pending index pending]
  exact hosting.selected

/-- `cancel_write`. -/
theorem cancelWrite_mirrors (mirrors : Mirrors g world m a s) (hosting : Hosting s.publisher)
    : (cancelWrite g m).Ensures alone Anything a fun n later =>
        Mirrors g world n later { s with publisher := s.publisher.cancelWrite } := by
  obtain ⟨rfl, depicts⟩ := mirrors
  unfold cancelWrite Publisher.cancelWrite
  cases pending : s.publisher.impl.pending with
  | none => exact ⟨rfl, depicts⟩
  | some index =>
      rw [← withSlot_self s.publisher.segment index.toNat] at depicts
      refine Ensures.bind
        (stepSeq_depicts depicts hosting.sound hosting.config (hosting.below pending))
        fun _ later settled => ?_
      exact ⟨rfl, settled⟩

/-- What `commit` makes of a segment. -/
def committed (segment : Segment) (index : UInt32) (timestampNs frameId latest beat : UInt64)
    : Segment :=
  let slot := segment.slots index.toNat
  let info := { slot.header.info with frameId, timestampNs }
  let next :=
    withSlot segment index.toNat { slot with header := { seq := slot.header.seq + 1, info } }
  { next with header := { segment.header with latest, lastHeartbeatNs := beat } }

theorem commit_segment (p : Publisher) {index : UInt32} (pending : p.impl.pending = some index)
    (timestamp now published : UInt64)
    : (p.commit timestamp now published).segment
      = committed p.segment index (if timestamp ≠ 0 then timestamp else now)
          (p.impl.frameId + 1) (packLatest (p.impl.frameId + 1) p.impl.writeSlot) published := by
  simp only [Publisher.commit, pending, Publisher.stepSeq, Publisher.setSlot_same]
  unfold committed
  dsimp only
  rw [← withSlot_twice p.segment index.toNat]
  rfl

/-- `commit`. -/
theorem commit_mirrors (mirrors : Mirrors g world m a s) (hosting : Hosting s.publisher)
    (timestamp : UInt64)
    : (commit g m timestamp).Ensures alone Anything a fun n later =>
        Mirrors g world n later (s.commit timestamp) := by
  obtain ⟨rfl, depicts⟩ := mirrors
  obtain ⟨p, clock, commits⟩ := s
  dsimp only at hosting depicts ⊢
  unfold commit
  cases pending : p.impl.pending with
  | none =>
      have same : TimedPublisher.commit ⟨p, clock, commits⟩ timestamp = ⟨p, clock, commits⟩ :=
        if_pos (by simp [pending])
      rw [same]
      exact ⟨rfl, depicts⟩
  | some index =>
      have below := hosting.below pending
      have made : TimedPublisher.commit ⟨p, clock, commits⟩ timestamp = _ :=
        if_neg (by simp [pending])
      rw [made]
      have segment := commit_segment p pending timestamp (clock 0)
      rw [← withSlot_self p.segment index.toNat] at depicts
      refine Ensures.bind (storeSlot_depicts depicts hosting.sound hosting.config below
        (.eight rfl _) {
          (p.segment.slots index.toNat).header with
          info := {
            (p.segment.slots index.toNat).header.info with
            frameId := p.impl.frameId + 1
          }
        } fun other => by cases other <;> rfl) fun _ _ stored => ?_
      refine Ensures.bind (stampOf_alone (s := ⟨p, clock, commits⟩) stored timestamp)
        fun stamp _ stamped => ?_
      obtain ⟨rfl, stamped⟩ := stamped
      dsimp only
      generalize (if timestamp ≠ 0 then timestamp else clock 0) = stamp at stamped segment ⊢
      refine Ensures.bind (storeSlot_depicts stamped hosting.sound hosting.config below
        (.eight rfl stamp) {
          (p.segment.slots index.toNat).header with
          info := {
            (p.segment.slots index.toNat).header.info with
            frameId := p.impl.frameId + 1
            timestampNs := stamp
          }
        } fun other => by cases other <;> rfl) fun _ _ stored => ?_
      refine Ensures.bind (stepSeq_depicts stored hosting.sound hosting.config below)
        fun _ _ settled => ?_
      dsimp only at settled
      have sound (slot : Slot) : (withSlot p.segment index.toNat slot).Sound :=
        ⟨hosting.sound.valid, hosting.sound.fits⟩
      let latest := packLatest (p.impl.frameId + 1) p.impl.writeSlot
      refine Ensures.bind (storeHeader_depicts settled (sound _) (.eight rfl latest)
        { p.segment.header with latest } rfl fun other => by cases other <;> rfl)
        fun _ before announced => ?_
      refine Ensures.bind nowNs_alone fun now later answered => ?_
      obtain ⟨rfl, rfl⟩ := answered
      rw [congrFun announced.clock 0]
      refine Ensures.bind
        (storeHeader_depicts announced.tick ⟨hosting.sound.valid, hosting.sound.fits⟩
          (.eight rfl _) {
            p.segment.header with
            latest
            lastHeartbeatNs :=
              (TimedPublisher.skip ⟨p, clock, commits⟩ (if timestamp = 0 then 1 else 0)).clock 0
          } rfl fun other => by cases other <;> rfl)
        fun _ _ stored => ⟨?_, ?_⟩
      · simp only [Publisher.commit, pending]
      · rw [segment]
        exact stored

/-- What does not change of a publisher and its segment is the same, and known. -/
structure Hosts (p next : Publisher) : Prop where
  size : next.segment.size = p.segment.size
  config : next.segment.header.config = p.segment.header.config
  cfg : next.impl.cfg = p.impl.cfg
  hosting : Hosting next

theorem Hosts.trans {first second third : Publisher} (one : Hosts first second)
    (two : Hosts second third)
    : Hosts first third :=
  ⟨two.size.trans one.size, two.config.trans one.config, two.cfg.trans one.cfg, two.hosting⟩

/-- It goes on to be known. -/
theorem Hosting.kept {p next : Publisher} (hosting : Hosting p)
    (size : next.segment.size = p.segment.size)
    (config : next.segment.header.config = p.segment.header.config)
    (cfg : next.impl.cfg = p.impl.cfg)
    (pending : ∀ index, next.impl.pending = some index → index = next.impl.writeSlot)
    (selected : next.impl.writeSlot < p.impl.cfg.slotCount)
    : Hosts p next where
  size := size
  config := config
  cfg := cfg
  hosting := {
    sound := ⟨by rw [config]; exact hosting.sound.valid, by
      rw [config, size]
      exact hosting.sound.fits⟩
    config := by rw [config, cfg, hosting.config]
    pending := pending
    selected := by rwa [cfg]
    bounds := by
      rw [cfg]
      exact hosting.bounds
  }

theorem Hosting.same {p : Publisher} (hosting : Hosting p) : Hosts p p := ⟨rfl, rfl, rfl, hosting⟩

theorem Hosting.beginWrite {p : Publisher} (hosting : Hosting p) (width height : UInt32)
    (now : UInt64)
    : Hosts p (p.beginWrite width height now).1 := by
  cases returns : p.beginWrite width height now with
  | mk begun pointer =>
      cases pointer with
      | false =>
          rcases Publisher.beginWrite_refused returns with rfl | rfl
          · exact hosting.same
          · exact hosting.kept rfl rfl rfl hosting.pending hosting.selected
      | true =>
          obtain ⟨-, impl, alters, -⟩ := Publisher.beginWrite_pointer returns
          refine hosting.kept ?_ ?_ ?_ ?_ ?_
          · rw [alters.rest]
          · rw [alters.rest]
          · rw [impl]
          · rw [impl]
            rintro index ⟨⟩
            rfl
          · rw [impl]
            exact hosting.upcoming

theorem Hosting.commit {p : Publisher} (hosting : Hosting p) (timestamp now published : UInt64)
    : Hosts p (p.commit timestamp now published) := by
  cases pending : p.impl.pending with
  | none =>
      have same : p.commit timestamp now published = p := by
        simp only [Publisher.commit, pending]
      rw [same]
      exact hosting.same
  | some index =>
      have segment := commit_segment p pending timestamp now published
      have impl
          : (p.commit timestamp now published).impl
            = {
                p.impl with
                frameId := p.impl.frameId + 1
                pending := none
                lastPublishNs := published
              } := by
        simp only [Publisher.commit, pending]
      refine hosting.kept ?_ ?_ ?_ ?_ ?_
      · rw [segment]
        rfl
      · rw [segment]
        rfl
      · rw [impl]
      · rw [impl]
        rintro _ ⟨⟩
      · rw [impl]
        exact hosting.selected

theorem Hosting.cancelWrite {p : Publisher} (hosting : Hosting p) : Hosts p p.cancelWrite := by
  unfold Publisher.cancelWrite
  split
  · exact hosting.same
  · exact hosting.kept rfl rfl rfl nofun hosting.selected

theorem Hosting.copyRow {p : Publisher} (hosting : Hosting p) (src : Nat → UInt8)
    (copy : RowCopy)
    : Hosts p (Publisher.copyRow src p copy) :=
  hosting.kept rfl rfl rfl hosting.pending hosting.selected

/-- The copies are made one after the other, by induction on them. -/
theorem copyRows_alone {p : Publisher} {clock : Nat → UInt64}
    (depicts : Depicts a (world.setSegment g p.segment) clock) (hosting : Hosting p)
    (src : Nat → UInt8) (copies : List RowCopy)
    (inside
      : ∀ copy ∈ copies, copy.offset.toNat + copy.length.toNat ≤ p.impl.cfg.maxPayload.toNat)
    : let payload := slotPayload (computeLayout p.impl.cfg) p.impl.writeSlot
      (copyRows g p.impl.writeSlot payload src copies).Ensures alone Anything a fun _ later =>
        let copied := copies.foldl (Publisher.copyRow src) p
        Depicts later (world.setSegment g copied.segment) clock := by
  induction copies generalizing p a with
  | nil => exact depicts
  | cons copy rest ih =>
      let holding (payload : Nat → UInt8) : Segment :=
        withSlot p.segment p.impl.writeSlot.toNat { p.slot with payload }
      have start : holding p.slot.payload = p.segment := withSlot_self _ _
      rw [← start] at depicts
      have below : p.impl.writeSlot < p.segment.header.config.slotCount := by
        rw [hosting.config]
        exact hosting.selected
      refine Ensures.bind
        (copyIn_depicts holding depicts copy.offset.toNat (fun _ _ => rfl) ?_
          (fun byte => src (copy.source.toNat + byte)) copy.length.toNat
          (inside copy List.mem_cons_self))
        fun _ later copied => ?_
      · intro bytes old offset byte inside encodes
        have here
            : (holding old).slots p.impl.writeSlot.toNat = { p.slot with payload := old } :=
          if_pos rfl
        have room : offset < p.segment.header.config.maxPayload.toNat := by
          rw [hosting.config]
          exact inside
        have stored :=
          encodes.storePayload ⟨hosting.sound.valid, hosting.sound.fits⟩ below room byte
        rw [here, withSlot_twice] at stored
        change Encodes (storeAt bytes
          ⟨(slotPayload (computeLayout p.segment.header.config) p.impl.writeSlot).toNat + offset, 1⟩
          byte.toUInt64) _ at stored
        rw [hosting.config] at stored
        exact stored
      · exact ih copied (hosting.copyRow src copy).hosting fun later member =>
          inside later (List.mem_cons_of_mem _ member)

/-- The caller stores a byte through the pointer it was handed. -/
theorem storeByte_encodes {p : Publisher} {bytes : Bytes} (encodes : Encodes bytes p.segment)
    (hosting : Hosting p) {slot : UInt32} (pending : p.impl.pending = some slot) {offset : Nat}
    (inside : offset < p.impl.cfg.maxPayload.toNat) (byte : UInt8)
    : let payload := slotPayload (computeLayout p.impl.cfg) slot
      ∃ next,
        p.storeByte offset byte = some next
        ∧ next.impl = p.impl
        ∧ Encodes (storeAt bytes ⟨payload.toNat + offset, 1⟩ byte.toUInt64) next.segment := by
  let old := p.segment.slots slot.toNat
  refine ⟨p.setSlot slot.toNat {
    old with
    payload := fun other => if other = offset then byte else old.payload other
  }, ?_, rfl, ?_⟩
  · unfold Publisher.storeByte
    simp only [pending, inside, if_true]
    rfl
  · have config := hosting.config
    have below : slot < p.segment.header.config.slotCount := by
      rw [config]
      exact hosting.below pending
    have room : offset < p.segment.header.config.maxPayload.toNat := by
      rw [config]
      exact inside
    have stored := encodes.storePayload hosting.sound below room byte
    rw [config] at stored
    exact stored

theorem Hosting.copyRows {p : Publisher} (hosting : Hosting p) (src : Nat → UInt8)
    (copies : List RowCopy)
    : Hosts p (copies.foldl (Publisher.copyRow src) p) := by
  induction copies generalizing p with
  | nil => exact hosting.same
  | cons copy rest ih =>
      have first := hosting.copyRow src copy
      exact first.trans (ih first.hosting)

/-- The copies of an exact frame stay in the slot that was begun. -/
theorem Hosting.copies_inside {p begun : Publisher} (hosting : Hosting p) {width height : UInt32}
    {now : UInt64} (returns : p.beginWrite width height now = (begun, true))
    (unwrapped : Unwrapped p.impl.cfg width height) (srcStride : UInt32)
    : ∀ copy ∈ Calls.rowCopies p.impl.cfg width height srcStride,
        copy.offset.toNat + copy.length.toNat ≤ begun.impl.cfg.maxPayload.toNat := by
  obtain ⟨-, -, rows, -, fits⟩ := Publisher.beginWrite_returns.mp (congrArg Prod.snd returns)
  obtain ⟨-, impl, -⟩ := Publisher.beginWrite_pointer returns
  have fits := unwrapped fits
  have small := hosting.bounds.small
  rw [impl]
  intro copy member
  exact (Calls.rowCopies_inside (fits.trans_lt (small.trans (by omega))) rows srcStride copy
    member).trans fits

/-- `publish`. -/
theorem publish_mirrors (mirrors : Mirrors g world m a s) (hosting : Hosting s.publisher)
    (src : Option (Nat → UInt8)) {width height : UInt32} (srcStride : UInt32)
    (unwrapped : Unwrapped s.publisher.impl.cfg width height)
    : (publish g m src width height srcStride).Ensures alone Anything a fun outcome later =>
        let published := s.publish src width height srcStride
        Mirrors g world outcome.1 later published.1 ∧ outcome.2 = published.2 := by
  unfold publish TimedPublisher.publish
  cases src with
  | none => exact ⟨mirrors, rfl⟩
  | some src =>
      dsimp only
      refine Ensures.bind (beginWrite_mirrors mirrors hosting width height)
        fun begun later agrees => ?_
      have marked : Hosting (s.beginWrite width height).1.publisher :=
        (hosting.beginWrite width height (s.clock 0)).hosting
      have returns
          : s.publisher.beginWrite width height (s.clock 0)
            = ((s.beginWrite width height).1.publisher, (s.beginWrite width height).2) :=
        rfl
      generalize s.beginWrite width height = outcome at agrees marked returns ⊢
      obtain ⟨after, pointer⟩ := outcome
      obtain ⟨m', payload⟩ := begun
      dsimp only at agrees marked returns ⊢
      obtain ⟨agrees, rfl⟩ := agrees
      cases pointer with
      | false => exact ⟨agrees, rfl⟩
      | true =>
          obtain ⟨rfl, depicts⟩ := agrees
          obtain ⟨-, impl, -⟩ := Publisher.beginWrite_pointer returns
          have config : after.publisher.impl.cfg = s.publisher.impl.cfg := by rw [impl]
          simp only [if_true, mirrors.impl]
          have copied := copyRows_alone depicts marked src _
            (hosting.copies_inside returns unwrapped srcStride)
          rw [config] at copied
          refine Ensures.bind copied fun _ later copied => ?_
          let copies := Calls.rowCopies s.publisher.impl.cfg width height srcStride
          let publisher := copies.foldl (Publisher.copyRow src) after.publisher
          have same : after.publisher.impl = publisher.impl :=
            (Publisher.copyRows_impl src copies after.publisher).symm
          have agrees : Mirrors g world after.publisher.impl later { after with publisher } :=
            ⟨same, copied⟩
          refine Ensures.bind (commit_mirrors agrees (marked.copyRows src copies).hosting 0)
            fun n later done => ⟨done, rfl⟩

end Frames

-----------------------------------------------------------------------------------------
-- Heartbeats and commands
-----------------------------------------------------------------------------------------

section Commands

variable {a : Alone} {world : World} {g : Nat} {m : Impl} {p : Publisher} {clock : Nat → UInt64}

/-- The publisher's handles are those of its segment. -/
theorem downHandle_suits (hosting : Hosting p)
    : Suits (downHandle 0 p.impl) 0 p.segment := by
  refine ⟨hosting.sound, rfl, ?_, rfl, ?_, ?_⟩
  all_goals
    rw [hosting.config]
    rfl

theorem upHandle_suits (hosting : Hosting p)
    : Suits (upHandle 0 p.impl) 0 p.segment := by
  refine ⟨hosting.sound, rfl, ?_, rfl, ?_, ?_⟩
  all_goals
    rw [hosting.config]
    rfl

/-- `heartbeat`. -/
theorem heartbeat_alone (depicts : Depicts a (world.setSegment g p.segment) clock)
    (hosting : Hosting p)
    : (heartbeat g).Ensures alone Anything a fun _ later =>
        Depicts later (world.setSegment g (p.heartbeat (clock 0)).segment)
          fun index => clock (index + 1) := by
  refine Ensures.bind nowNs_alone fun now _ answered => ?_
  obtain ⟨rfl, rfl⟩ := answered
  rw [congrFun depicts.clock 0]
  exact storeHeader_depicts depicts.tick hosting.sound (.eight rfl _) _ rfl fun other => by
    cases other <;> rfl

/-- What the destructor does to the segment. -/
theorem publisherClose_alone (depicts : Depicts a (world.setSegment g p.segment) clock)
    (hosting : Hosting p)
    : (publisherClose g).Ensures alone Anything a fun _ later =>
        Depicts later (world.setSegment g p.shutdown.segment) clock :=
  storeHeader_depicts depicts hosting.sound (.four rfl 1) _ rfl fun other => by
    cases other <;> rfl

/-- `LLPublisher::send`. -/
theorem publisherSend_alone (depicts : Depicts a (world.setSegment 0 p.segment) clock)
    (hosting : Hosting p) (request : PushCall)
    : (publisherSend 0 p.impl request).Ensures alone Anything a fun outcome later =>
        let sent := p.send request (clock 0)
        outcome = (sent.1.impl, sent.2)
        ∧ Depicts later (world.setSegment 0 sent.1.segment) fun index => clock (index + 1) := by
  unfold publisherSend Publisher.send
  dsimp only
  refine Ensures.bind nowNs_alone fun now _ answered => ?_
  obtain ⟨rfl, rfl⟩ := answered
  rw [congrFun depicts.clock 0]
  let call := { request with id := p.impl.nextCmd, timestampNs := clock 0 }
  refine Ensures.bind (push_alone depicts.tick (downHandle_suits hosting) call)
    fun accepted later pushed => ?_
  obtain ⟨rfl, stored⟩ := pushed
  change Depicts later (world.setSegment 0 { p.segment with
    down := (Commands.push p.impl.cfg.downstreamRing p.segment.down call).1 }) _ at stored
  change ((if !(Commands.push p.impl.cfg.downstreamRing p.segment.down call).2 then _ else _)
    : Access (Impl × Option UInt64)).Ensures _ _ _ _
  cases taken : (Commands.push p.impl.cfg.downstreamRing p.segment.down call).2 with
  | false =>
      rw [Calls.push_refused taken] at stored
      exact ⟨rfl, stored⟩
  | true => exact ⟨rfl, stored⟩

/-- `LLPublisher::receive`. -/
theorem publisherReceive_alone (depicts : Depicts a (world.setSegment 0 p.segment) clock)
    (hosting : Hosting p)
    : (publisherReceive 0 p.impl).Ensures alone Anything a fun outcome later =>
        let received := p.receive
        outcome = (received.1.impl, received.2)
        ∧ Depicts later (world.setSegment 0 received.1.segment) clock := by
  unfold publisherReceive Publisher.receive
  dsimp only
  refine Ensures.bind (pop_alone depicts (upHandle_suits hosting)) fun command later popped => ?_
  obtain ⟨same, stored⟩ := popped
  have taken : (Commands.pop p.impl.cfg.upstreamRing p.segment.up).2 = command := same.symm
  change Depicts later (world.setSegment 0 { p.segment with
    up := (Commands.pop p.impl.cfg.upstreamRing p.segment.up).1 }) _ at stored
  rw [taken]
  cases command with
  | none =>
      rw [Calls.pop_nothing taken] at stored
      exact ⟨rfl, stored⟩
  | some command => exact ⟨rfl, stored⟩

end Commands

end ShmFrame.Accesses
