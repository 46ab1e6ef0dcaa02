import ShmFrame.Calls.Connect
import ShmFrame.Segment.Layout

/-! Attaching undoes creating: a subscriber that finds a segment in the middle of `create`
leaves it alone, and afterwards gets what the publisher has.
-/

namespace ShmFrame.Calls

open ShmFrame.Foundation

-----------------------------------------------------------------------------------------
-- The stores of create
-----------------------------------------------------------------------------------------

/-- A store into the header of a segment. -/
def headerStore (store : LLHeader → LLHeader) (segment : Segment) : Segment :=
  { segment with header := store segment.header }

/-- `new LLSlotHeader()`. -/
def clearSlot (index : Nat) (segment : Segment) : Segment :=
  {
    segment with
    slots := fun other =>
      if other = index then { segment.slots index with header := {} } else segment.slots other
  }

/-- `new LLRingHeader()`, in both rings. -/
def clearRings : List (Segment → Segment) :=
  [
    fun segment => { segment with down := { segment.down with head := 0, tail := 0 } },
    fun segment => { segment with up := { segment.up with head := 0, tail := 0 } }
  ]

/-- The value-initialisation of the control structures; the payloads are left alone. -/
def valueInitialise (cfg : LLConfig) : List (Segment → Segment) :=
  headerStore (fun _ => {}) :: (List.range cfg.slotCount.toNat).map clearSlot ++ clearRings

/-- What `create` stores into the header, one field after the other. -/
def headerStores (cfg : LLConfig) (session now : UInt64) : List (LLHeader → LLHeader) :=
  let l := computeLayout cfg
  [
    fun h => { h with version := kVersion },
    fun h => { h with sessionId := session },
    fun h => { h with totalSize := l.totalSize },
    fun h => { h with maxWidth := cfg.maxWidth },
    fun h => { h with maxHeight := cfg.maxHeight },
    fun h => { h with bytesPerPixel := cfg.bytesPerPixel },
    fun h => { h with slotCount := cfg.slotCount },
    fun h => { h with commandSlots := cfg.commandSlots },
    fun h => { h with maxCommandBytes := cfg.maxCommandBytes },
    fun h => { h with slotsOffset := l.slotsOffset },
    fun h => { h with slotStride := l.slotStride },
    fun h => { h with downstreamOffset := l.downstreamOffset },
    fun h => { h with upstreamOffset := l.upstreamOffset },
    fun h => { h with ringStride := l.ringStride },
    fun h => { h with cmdStride := l.cmdStride },
    fun h => { h with lastHeartbeatNs := now }
  ]

/-- Everything before the magic. -/
def preparation (cfg : LLConfig) (session now : UInt64) : List (Segment → Segment) :=
  valueInitialise cfg ++ (headerStores cfg session now).map headerStore

/-- All initialising stores in source order, the magic last. -/
def createStores (cfg : LLConfig) (session now : UInt64) : List (Segment → Segment) :=
  preparation cfg session now ++ [headerStore fun h => { h with magic := kMagic }]

/-- A zero-filled segment after some of the stores. -/
def initialised (cfg : LLConfig) (session now size : UInt64) (count : Nat) : Segment :=
  ((createStores cfg session now).take count).foldl (fun segment store => store segment) { size }

/-- The ring the publisher sends on. -/
def publisherTx (cfg : LLConfig) (g : Nat) : LLRing := { cfg.downstreamRing with base := some g }

/-- The ring the publisher receives on. -/
def publisherRx (cfg : LLConfig) (g : Nat) : LLRing := { cfg.upstreamRing with base := some g }

-----------------------------------------------------------------------------------------
-- Before the magic
-----------------------------------------------------------------------------------------

/-- The magic is missing. -/
def Segment.Unannounced (size : UInt64) (segment : Segment) : Prop :=
  segment.size = size ∧ segment.header.magic = 0

/-- Nothing of the preparation stores the magic. -/
theorem preparation_unannounced {cfg : LLConfig} {session now size : UInt64}
    {store : Segment → Segment} (member : store ∈ preparation cfg session now)
    {segment : Segment} (missing : segment.Unannounced size)
    : (store segment).Unannounced size := by
  rcases List.mem_append.mp member with clears | stores
  · simp only [valueInitialise, clearRings, List.cons_append, List.mem_cons, List.mem_append,
      List.mem_map, List.mem_nil_iff, or_false] at clears
    rcases clears with rfl | ⟨index, -, rfl⟩ | rfl | rfl
    · exact ⟨missing.1, rfl⟩
    · exact missing
    · exact missing
    · exact missing
  · obtain ⟨field, listed, rfl⟩ := List.mem_map.mp stores
    simp only [headerStores, List.mem_cons, List.mem_nil_iff, or_false] at listed
    rcases listed with rfl | rfl | rfl | rfl | rfl | rfl | rfl | rfl | rfl | rfl | rfl | rfl
      | rfl | rfl | rfl | rfl <;> exact missing

/-- Before the last store there is no magic, by induction on the stores. -/
theorem initialised_unannounced {cfg : LLConfig} {session now size : UInt64} {count : Nat}
    (early : count < (createStores cfg session now).length)
    : (initialised cfg session now size count).Unannounced size := by
  have performed (stores : List (Segment → Segment))
      (all : ∀ store ∈ stores, store ∈ preparation cfg session now) (segment : Segment)
      (missing : segment.Unannounced size)
      : (stores.foldl (fun segment store => store segment) segment).Unannounced size := by
    induction stores generalizing segment with
    | nil => exact missing
    | cons store rest ih =>
        have first := preparation_unannounced (all store (by simp)) missing
        exact ih (fun later member => all later (by simp [member])) _ first
  have within : count ≤ (preparation cfg session now).length := by
    rw [createStores, List.length_append, List.length_singleton] at early
    exact Nat.le_of_lt_succ early
  have taken
      : (createStores cfg session now).take count = (preparation cfg session now).take count :=
    List.take_append_of_le_length within
  rw [initialised, taken]
  exact performed _ (fun _ member => List.mem_of_mem_take member) _ ⟨rfl, rfl⟩

/-- A segment without magic is no candidate. -/
theorem candidate_unannounced {s : Subscriber} {system : Circumstances} {g : Nat}
    {size : UInt64} (bound : s.world.bound = some g)
    (missing : (s.world.segments g).Unannounced size)
    : s.candidate system = none := by
  have wrong : (s.world.segments g).header.magic ≠ kMagic := by
    rw [missing.2]
    decide
  simp [Subscriber.candidate, bound, validateHeader, wrong]

-----------------------------------------------------------------------------------------
-- From the magic on
-----------------------------------------------------------------------------------------

/-- The header is that of a publisher with this session, whatever the words hold that the
endpoints keep changing.
-/
def Announces (h : LLHeader) (cfg : LLConfig) (session : UInt64) : Prop :=
  h = {
    LLHeader.initialise cfg session h.lastHeartbeatNs with
    magic := kMagic
    latest := h.latest
    shutdown := h.shutdown
    commandOwnerGen := h.commandOwnerGen
    commandOwnerHeartbeatNs := h.commandOwnerHeartbeatNs
  }

/-- What a subscriber that has attached to a publisher's segment has got. -/
structure Attached (cfg : LLConfig) (session : UInt64) (g : Nat) (m : LLSubscriber.Impl) : Prop
    where
  hdr : m.hdr = some g
  geometry : m.remote = { cfg with name := m.name, staleProducerMs := 2000 }
  layout : m.layout = computeLayout cfg
  session : m.session = session
  tx : m.tx = publisherRx cfg g
  rx : m.rx = publisherTx cfg g

/-- The stores of the slots and rings leave the header alone, by induction on the stores. -/
theorem foldl_keepsHeader {stores : List (Segment → Segment)} {segment : Segment}
    (keeps : ∀ store ∈ stores, ∀ segment, (store segment).header = segment.header)
    : (stores.foldl (fun segment store => store segment) segment).header = segment.header := by
  induction stores generalizing segment with
  | nil => rfl
  | cons store rest ih =>
      rw [List.foldl_cons, ih fun later member => keeps later (by simp [member])]
      exact keeps store (by simp) segment

/-- The stores into the header work on the header, by induction on the stores. -/
theorem foldl_headerStores (stores : List (LLHeader → LLHeader)) (segment : Segment)
    : ((stores.map headerStore).foldl (fun segment store => store segment) segment).header
      = stores.foldl (fun h store => store h) segment.header := by
  induction stores generalizing segment with
  | nil => rfl
  | cons store rest ih => exact ih (headerStore store segment)

/-- After the last store the publisher is announced. -/
theorem initialised_announces (cfg : LLConfig) (session now size : UInt64)
    : Announces
        (initialised cfg session now size (createStores cfg session now).length).header
        cfg session := by
  have cleared
      : ((valueInitialise cfg).foldl (fun segment store => store segment)
            ({ size } : Segment)).header
        = {} := by
    rw [valueInitialise, List.cons_append, List.foldl_cons]
    refine foldl_keepsHeader fun store member segment => ?_
    simp only [clearRings, List.mem_append, List.mem_map, List.mem_cons, List.mem_nil_iff,
      or_false] at member
    rcases member with ⟨index, -, rfl⟩ | rfl | rfl <;> rfl
  have header
      : (initialised cfg session now size (createStores cfg session now).length).header
        = { LLHeader.initialise cfg session now with magic := kMagic } := by
    rw [initialised, List.take_length, createStores, preparation, List.foldl_append,
      List.foldl_append]
    rw [List.foldl_cons, List.foldl_nil, headerStore, foldl_headerStores, cleared]
    rfl
  rw [Announces, header]
  rfl

/-- An announced segment is adopted by a subscriber that holds no session. -/
theorem tryConnect_attaches {cfg : LLConfig} (accepted : cfg.accepted = true)
    {session : UInt64} {s : Subscriber} {system : Circumstances} {g : Nat}
    (bound : s.world.bound = some g) (maps : system.maps = true)
    (fits : (computeLayout cfg).totalSize ≤ (s.world.segments g).size)
    (announces : Announces (s.world.segments g).header cfg session)
    (detached : s.impl.hdr = none)
    : ((tryConnect system).run s).1 = true
      ∧ Attached cfg session g ((tryConnect system).run s).2.impl
      ∧ ((tryConnect system).run s).2.impl.sessions = s.impl.sessions + 1 := by
  have describes : (s.world.segments g).header.Describes cfg := ⟨session, announces⟩
  have validated := describes.validates_in accepted fits
  have sized : (s.world.segments g).size ≠ 0 := by
    intro empty
    rw [empty] at validated
    simp [validateHeader, sizeofLLHeader] at validated
  have found : s.candidate system = some (g, computeLayout cfg) := by
    simp [Subscriber.candidate, bound, maps, sized, validated]
  have fresh : ¬ s.Reads g := by simp [Subscriber.Reads, detached]
  have outcome := tryConnect_cases system s
  generalize (tryConnect system).run s = result at outcome
  cases outcome with
  | refused missing => simp [found] at missing
  | kept again reads =>
      obtain ⟨rfl, rfl⟩ := Prod.mk.inj (Option.some.inj (found.symm.trans again))
      exact absurd reads fresh
  | @adopted _ _ next again _ onward impl =>
      obtain ⟨rfl, rfl⟩ := Prod.mk.inj (Option.some.inj (found.symm.trans again))
      have config
          : (s.world.segments g).header.config
            = { cfg with name := "x".toUTF8.toList, staleProducerMs := 2000 } := by
        rw [announces]
        rfl
      have started : (s.world.segments g).header.sessionId = session := by
        rw [announces]
        rfl
      have remote : next.impl.remote = { cfg with name := s.impl.name, staleProducerMs := 2000 } :=
        (congrArg (·.remote) impl).trans (by rw [adopted, config]; rfl)
      have name : next.impl.name = s.impl.name := congrArg (·.name) impl
      exact ⟨rfl, {
        hdr := congrArg (·.hdr) impl
        geometry := by rw [remote, name]
        layout := congrArg (·.layout) impl
        session := (congrArg (·.session) impl).trans started
        tx := (congrArg (·.tx) impl).trans (by rw [adopted, config]; rfl)
        rx := (congrArg (·.rx) impl).trans (by rw [adopted, config]; rfl)
      }, congrArg (·.sessions) impl⟩

/-- The bytes a ring handle covers. -/
def ringSpan (l : LLLayout) (ring : LLRing) : Span where
  first := ring.offset.toNat
  size := l.ringStride.toNat

/-- For every accepted configuration and every zero-filled mapping it fits in: at every point
before the magic store, an attempt to connect fails and changes nothing; from the magic on,
and whatever happens to the words that keep changing, it attaches a subscriber that holds no
session, with the rings crossed; the two directions are different bytes of the segment. And
whatever validation accepts stores the offsets of a valid configuration that fit.
-/
theorem attach_undoes_create {cfg : LLConfig} (accepted : cfg.accepted = true)
    {size : UInt64} (fits : (computeLayout cfg).totalSize ≤ size) (session now : UInt64)
    : (∀ count < (createStores cfg session now).length,
          ∀ (system : Circumstances) (s : Subscriber) (g : Nat),
            s.world.bound = some g
            → s.world.segments g = initialised cfg session now size count
            → (tryConnect system).run s = (false, s))
      ∧ Announces
          (initialised cfg session now size (createStores cfg session now).length).header
          cfg session
      ∧ (∀ (system : Circumstances) (s : Subscriber) (g : Nat),
          s.world.bound = some g
          → system.maps = true
          → (s.world.segments g).size = size
          → Announces (s.world.segments g).header cfg session
          → s.impl.hdr = none
          → ((tryConnect system).run s).1 = true
            ∧ Attached cfg session g ((tryConnect system).run s).2.impl
            ∧ ((tryConnect system).run s).2.impl.sessions = s.impl.sessions + 1)
      ∧ (∀ g,
          (ringSpan (computeLayout cfg) (publisherTx cfg g)).Apart
            (ringSpan (computeLayout cfg) (publisherRx cfg g)))
      ∧ ∀ (mapped : UInt64) (h : LLHeader) (cl : LLLayout),
          validateHeader mapped h = some cl
          → configValid h.config = true
            ∧ cl = computeLayout h.config
            ∧ h.Stores (computeLayout h.config)
            ∧ (computeLayout h.config).totalSize ≤ mapped := by
  refine ⟨fun count early system s g bound found => ?_, initialised_announces _ _ _ _,
    fun system s g bound maps sized announces detached => ?_, fun g => ?_,
    fun mapped h cl validated => (validateHeader_sound validated).2⟩
  · have missing : (initialised cfg session now size count).Unannounced size :=
      initialised_unannounced early
    rw [← found] at missing
    exact tryConnect_refused (candidate_unannounced bound missing)
  · exact tryConnect_attaches accepted bound maps (by rwa [sized]) announces detached
  · have apart : ((Block.ring .downstream).span cfg).Apart ((Block.ring .upstream).span cfg) :=
      Block.span_apart (LLConfig.accepted_bounded accepted) True.intro True.intro (by decide)
    exact apart

/-- A subscriber attaches to a segment of the default configuration. -/
theorem attach_undoes_create_default
    : ∃ s : Subscriber,
        s.impl.hdr = none
        ∧ ((tryConnect {}).run s).1 = true
        ∧ Attached {} 7 0 ((tryConnect {}).run s).2.impl := by
  have accepted : ({} : LLConfig).accepted = true := by decide +kernel
  have fits : (computeLayout {}).totalSize ≤ (4294967296 : UInt64) := by decide +kernel
  have result := attach_undoes_create accepted fits 7 5
  let segment := initialised {} 7 5 4294967296 (createStores {} 7 5).length
  have attaches := result.2.2.1 {}
    { world := { segments := fun _ => segment, bound := some 0 }, clock := fun _ => 9 } 0
    rfl rfl (by decide +kernel) result.2.1 rfl
  exact ⟨_, rfl, attaches.1, attaches.2.1⟩

end ShmFrame.Calls
