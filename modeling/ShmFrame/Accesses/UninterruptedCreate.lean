import ShmFrame.Accesses.UninterruptedPublisher

/-! What `create` makes of the bytes of a fresh segment. -/

namespace ShmFrame.Accesses

open ShmFrame.Foundation ShmFrame.Foundation.Program
open LLPublisher
open Calls (Publisher)

-----------------------------------------------------------------------------------------
-- Clearing what is clear
-----------------------------------------------------------------------------------------

/-- The bytes of a segment that nobody has stored to. -/
def Fresh (bytes : Bytes) : Prop := ∀ offset, bytes offset = 0

/-- Storing zeros there changes nothing. -/
theorem storeAt_fresh {bytes : Bytes} (fresh : Fresh bytes) (span : Span)
    : storeAt bytes span 0 = bytes := by
  funext offset
  unfold storeAt
  split
  · rw [fresh offset, UInt64.zero_shiftRight]
    rfl
  · rfl

/-- Putting an entry in its place again. -/
theorem assign_unchanged {Value : Type} (family : Nat → Value) (index : Nat)
    : assign family index (family index) = family := by
  funext other
  unfold assign
  split
  · rename_i same
    rw [same]
  · rfl

section Clearing

variable {a : Alone} {g : Nat}

theorem store_fresh (fresh : Fresh (a.bytes g)) (area : Area) (span : Span)
    : (access (.store g area span 0)).Ensures alone Anything a fun _ later => later = a := by
  refine (store_alone g area span 0).mono (fun _ => id) fun _ later stored => ?_
  rw [stored, storeAt_fresh fresh, assign_unchanged]

theorem storeHeaders_fresh (fresh : Fresh (a.bytes g)) (stores : List (HeaderWord × UInt64))
    (zero : ∀ pair ∈ stores, pair.2 = 0)
    : (storeHeaders g stores).Ensures alone Anything a fun _ later => later = a := by
  induction stores with
  | nil => rfl
  | cons pair rest ih =>
      have first := zero pair List.mem_cons_self
      unfold storeHeaders
      rw [first]
      refine Ensures.bind (store_fresh fresh _ _) fun _ later same => ?_
      subst same
      exact ih fun later member => zero later (List.mem_cons_of_mem _ member)

theorem clearSlot_fresh (fresh : Fresh (a.bytes g)) (l : LLLayout) (index : UInt32)
    : (clearSlot g l index).Ensures alone Anything a fun _ later => later = a := by
  unfold clearSlot
  iterate 6
    refine Ensures.bind (store_fresh fresh _ _) fun _ later same => ?_
    subst same
  exact store_fresh fresh _ _

/-- By induction on the number of slots. -/
theorem clearSlots_fresh (fresh : Fresh (a.bytes g)) (l : LLLayout) (count : Nat)
    : (clearSlots g l count).Ensures alone Anything a fun _ later => later = a := by
  induction count with
  | zero => rfl
  | succ count ih =>
      refine Ensures.bind ih fun _ later same => ?_
      subst same
      exact clearSlot_fresh fresh l _

theorem clearRing_fresh (fresh : Fresh (a.bytes g)) (direction : Direction) (offset : UInt64)
    : (clearRing g direction offset).Ensures alone Anything a fun _ later => later = a := by
  refine Ensures.bind (store_fresh fresh _ _) fun _ later same => ?_
  subst same
  exact store_fresh fresh _ _

end Clearing

-----------------------------------------------------------------------------------------
-- The header
-----------------------------------------------------------------------------------------

/-- Of a segment that is fresh otherwise some words of the header have been stored. -/
structure Blank (bytes : Bytes) (words : HeaderWord → UInt64) : Prop where
  words : ∀ word, wordAt bytes word.place = words word
  rest : ∀ offset, (Area.header.span {}).last ≤ offset → bytes offset = 0

/-- Words of fresh bytes. -/
theorem wordAt_zero {bytes : Bytes} {span : Span}
    (zero : ∀ offset, span.Holds offset → bytes offset = 0)
    : wordAt bytes span = 0 := by
  have nothing (offsets : List Nat) : littleEndian (offsets.map fun _ => 0) = 0 := by
    induction offsets with
    | nil => rfl
    | cons offset rest ih => rw [List.map_cons, littleEndian, ih]; rfl
  have same : wordAt bytes span = wordAt (fun _ => 0) span := wordAt_congr zero
  rw [same, wordAt, nothing]
  rfl

/-- Nothing has been stored to fresh bytes. -/
theorem Fresh.blank {bytes : Bytes} (fresh : Fresh bytes) : Blank bytes fun _ => 0 where
  words := fun _ => wordAt_zero fun offset _ => fresh offset
  rest := fun offset _ => fresh offset

/-- A word of the header is stored. -/
theorem Blank.store {bytes : Bytes} {words : HeaderWord → UInt64} (blank : Blank bytes words)
    {word : HeaderWord} {value : UInt64} (fits : FitsIn word.place value)
    : Blank (storeAt bytes word.place value) (assign words word value) where
  words := fun other => by
    by_cases same : other = word
    · rw [same, assign_same]
      exact wordAt_stored bytes fits.small fits.fits
    · rw [assign_apart _ _ same, ← blank.words other]
      exact wordAt_stored_apart bytes (HeaderWord.place_apart (Ne.symm same)) value
  rest := fun offset beyond => by
    rw [← blank.rest offset beyond]
    refine storeAt_outside fun holds => ?_
    have inside := word.place_inside
    simp only [Span.Holds, Span.last, Area.span] at holds beyond inside
    omega

section Header

variable {a : Alone} {g : Nat} {words : HeaderWord → UInt64}

/-- The words after some stores. -/
def storedWords (words : HeaderWord → UInt64) (stores : List (HeaderWord × UInt64))
    : HeaderWord → UInt64 :=
  stores.foldl (fun words pair => assign words pair.1 pair.2) words

/-- Only the bytes of one segment have changed. -/
structure OnlyBytes (g : Nat) (before after : Alone) : Prop where
  bytes : ∀ other, other ≠ g → after.bytes other = before.bytes other
  size : after.size = before.size
  bound : after.bound = before.bound
  clock : after.clock = before.clock

theorem OnlyBytes.refl (g : Nat) (a : Alone) : OnlyBytes g a a := ⟨fun _ _ => rfl, rfl, rfl, rfl⟩

theorem OnlyBytes.trans {first second third : Alone} (one : OnlyBytes g first second)
    (two : OnlyBytes g second third)
    : OnlyBytes g first third where
  bytes := fun other apart => (two.bytes other apart).trans (one.bytes other apart)
  size := two.size.trans one.size
  bound := two.bound.trans one.bound
  clock := two.clock.trans one.clock

/-- A word of the header is stored. -/
theorem storeHeader_blank (blank : Blank (a.bytes g) words) {word : HeaderWord}
    {value : UInt64} (fits : FitsIn word.place value)
    : (storeHeader g word value).Ensures alone Anything a fun _ later =>
        Blank (later.bytes g) (assign words word value) ∧ OnlyBytes g a later := by
  refine (store_alone g _ _ _).mono (fun _ => id) fun _ later stored => ?_
  subst stored
  refine ⟨?_, fun other apart => assign_apart _ _ apart, rfl, rfl, rfl⟩
  dsimp only
  rw [assign_same]
  exact blank.store fits

/-- Some words of the header are stored, by induction on them. -/
theorem storeHeaders_blank (blank : Blank (a.bytes g) words)
    (stores : List (HeaderWord × UInt64)) (fits : ∀ pair ∈ stores, FitsIn pair.1.place pair.2)
    : (storeHeaders g stores).Ensures alone Anything a fun _ later =>
        Blank (later.bytes g) (storedWords words stores) ∧ OnlyBytes g a later := by
  induction stores generalizing a words with
  | nil => exact ⟨blank, .refl g a⟩
  | cons pair rest ih =>
      refine Ensures.bind (storeHeader_blank blank (fits pair List.mem_cons_self))
        fun _ middle first => ?_
      refine (ih first.1 fun later member => fits later (List.mem_cons_of_mem _ member)).mono
        (fun _ => id) fun _ later second => ?_
      exact ⟨second.1, first.2.trans second.2⟩

/-- The segment of a publisher that has just been created, where its header stands and
everything else is fresh.
-/
theorem Blank.encodes {bytes : Bytes} {cfg : LLConfig} {session now : UInt64}
    (blank : Blank bytes words)
    (header
      : ∀ word, words word = headerWord (Publisher.create cfg session now).segment.header word)
    : Encodes bytes (Publisher.create cfg session now).segment where
  header := fun word => (blank.words word).trans (header word)
  areas := fun sound area there => by
    have bounded := configValid_bounded sound.valid
    have zero (distinct : area ≠ .header) (offset : Nat)
        (holds : (area.span (Publisher.create cfg session now).segment.header.config).Holds offset)
        : bytes offset = 0 := by
      refine blank.rest offset ?_
      have apart := Area.span_apart bounded there (show Area.header.Exists _ from trivial) distinct
      have first
          : (Area.header.span (Publisher.create cfg session now).segment.header.config).first = 0 :=
        rfl
      simp only [Span.Apart, Span.Holds] at apart holds
      change (Area.header.span (Publisher.create cfg session now).segment.header.config).last ≤ _
      omega
    cases area with
    | header => exact fun word => (blank.words word).trans (header word)
    | slotHeader index =>
        intro word
        have nothing := wordAt_zero fun offset holds =>
          zero (by simp) offset ((at_inside rfl word.place_inside).holds holds)
        rw [nothing]
        cases word <;> rfl
    | slotPayload index =>
        intro offset below
        exact zero (by simp) _ ⟨Nat.le_add_right _ _, Nat.add_lt_add_left below _⟩
    | ringHeader direction =>
        intro word
        have nothing := wordAt_zero fun offset holds =>
          zero (by simp) offset ((at_inside rfl word.place_inside).holds holds)
        rw [nothing]
        cases direction <;> cases word <;> rfl
    | cell direction index =>
        have behind := cmdPayload_toNat bounded direction there
        have header : sizeofLLCmdHeader.toNat = 32 := rfl
        constructor
        · intro word
          have nothing := wordAt_zero fun offset holds => zero (by simp) offset <|
            Span.Inside.holds
              (at_inside rfl (word.place_inside.trans (Nat.le_add_right _ _))) holds
          rw [nothing]
          cases direction <;> cases word <;> rfl
        · intro offset below
          refine (zero (by simp) _ ?_).trans ?_
          · simp only [Span.Holds, Span.last, Area.span]
            omega
          · cases direction <;> rfl

/-- The header that `create` has described. -/
theorem describedHeader_words (cfg : LLConfig) (session now : UInt64) (word : HeaderWord)
    : assign
        (assign (storedWords (fun _ => 0) (describedHeader cfg session)) .lastHeartbeatNs now)
        .magic kMagic.toUInt64 word
      = headerWord (Publisher.create cfg session now).segment.header word := by
  cases word <;> rfl

/-- `create` stores the words of a segment that says nothing but its description. -/
theorem initialise_alone (fresh : Fresh (a.bytes g)) (cfg : LLConfig) (session : UInt64)
    : (initialise g cfg session).Ensures alone Anything a fun m later =>
        m = { cfg }
        ∧ Encodes (later.bytes g) (Publisher.create cfg session (a.clock 0)).segment
        ∧ OnlyBytes g a.tick later := by
  unfold initialise
  refine Ensures.bind (storeHeaders_fresh fresh _ (by decide)) fun _ _ same => ?_
  rw [same]
  refine Ensures.bind (clearSlots_fresh fresh _ _) fun _ _ same => ?_
  rw [same]
  refine Ensures.bind (clearRing_fresh fresh _ _) fun _ _ same => ?_
  rw [same]
  refine Ensures.bind (clearRing_fresh fresh _ _) fun _ _ same => ?_
  rw [same]
  refine Ensures.bind (storeHeaders_blank fresh.blank (describedHeader cfg session) ?_)
    fun _ middle described => ?_
  · simp only [describedHeader, List.forall_mem_cons, List.not_mem_nil, false_implies,
      implies_true, and_true]
    refine ⟨.four rfl _, .eight rfl _, .eight rfl _, ?_⟩
    refine ⟨.four rfl _, .four rfl _, .four rfl _, .four rfl _, .four rfl _, .four rfl _, ?_⟩
    exact ⟨.eight rfl _, .eight rfl _, .eight rfl _, .eight rfl _, .eight rfl _, .eight rfl _⟩
  refine Ensures.bind nowNs_alone fun now _ answered => ?_
  obtain ⟨rfl, rfl⟩ := answered
  refine Ensures.bind (storeHeader_blank (a := middle.tick) described.1 (.eight rfl _))
    fun _ beating stored => ?_
  refine Ensures.bind (storeHeader_blank stored.1 (.four rfl _)) fun _ later marked => ?_
  refine ⟨rfl, marked.1.encodes fun word => ?_, ?_⟩
  · rw [described.2.clock]
    exact describedHeader_words cfg session (a.clock 0) word
  · refine OnlyBytes.trans ?_ (stored.2.trans marked.2)
    exact ⟨described.2.bytes, described.2.size, described.2.bound, by
      dsimp only [Alone.tick]
      rw [described.2.clock]⟩

end Header

end ShmFrame.Accesses
