import ShmFrame.Accesses.Words
import ShmFrame.Foundation.Simulation

/-! An endpoint whose call nobody interrupts: which answers its accesses get, and what the
bytes and the words of the segments have to do with each other meanwhile.
-/

namespace ShmFrame.Accesses

open ShmFrame.Foundation ShmFrame.Foundation.Program
open Calls (World Segment)

-----------------------------------------------------------------------------------------
-- Answers
-----------------------------------------------------------------------------------------

/-- The bytes and sizes of all segments, what the name is bound to, and the readings of the
clock to come.
-/
structure Alone where
  bytes : Nat → Bytes
  size : Nat → UInt64
  bound : Option Nat
  clock : Nat → UInt64

/-- The answers there may be. A segment that the name leads to cannot always be mapped. -/
def Alone.Answers (a : Alone) : (effect : Effect) → effect.Answer → Prop
  | .load g _ span, answer => answer = wordAt (a.bytes g) span
  | .exchange g _ span _ _, answer => answer = wordAt (a.bytes g) span
  | .copyOut g _ offset _, answer => answer = a.bytes g offset
  | .ask .nowNs, answer => answer = a.clock 0
  | .ask .opens, answer => ∀ g, answer = some g → a.bound = some g ∧ a.size g ≠ 0
  | .ask (.sizeOf g), answer => answer = a.size g
  | .ask .spurious, _ | .ask .clockFirst, _ | .ask .patience, _ => True
  | .store .., _ => True
  | .stall, never => nomatch never

/-- The clock after a reading. -/
def Alone.tick (a : Alone) : Alone := { a with clock := fun index => a.clock (index + 1) }

/-- What becomes of the bytes, and of the clock. -/
def Alone.after (a : Alone) : Effect → Alone
  | .ask .nowNs => a.tick
  | effect => { a with bytes := effect.apply a.bytes }

/-- The environment of a call that nobody interrupts. -/
def alone : Environment Effect Effect.Answer Alone :=
  fun a effect answer later => a.Answers effect answer ∧ later = a.after effect

/-- Every effect is allowed. -/
abbrev Anything (_ : Effect) : Prop := True

-----------------------------------------------------------------------------------------
-- Words and bytes
-----------------------------------------------------------------------------------------

/-- The bytes say the words of all segments, and the rest is the same. -/
structure Depicts (a : Alone) (world : World) (clock : Nat → UInt64) : Prop where
  clock : a.clock = clock
  bound : a.bound = world.bound
  size : ∀ g, a.size g = (world.segments g).size
  segment : ∀ g, Encodes (a.bytes g) (world.segments g)

section Steps

variable {a : Alone} {world : World} {clock : Nat → UInt64}

/-- The clock is read. -/
theorem Depicts.tick (depicts : Depicts a world clock)
    : Depicts a.tick world fun index => clock (index + 1) :=
  { depicts with clock := by rw [Alone.tick, depicts.clock] }

/-- A segment is changed, as its bytes are. -/
theorem Depicts.setSegment (depicts : Depicts a world clock) {g : Nat} {bytes : Bytes}
    {segment : Segment} (encodes : Encodes bytes segment)
    (size : segment.size = (world.segments g).size)
    : Depicts { a with bytes := assign a.bytes g bytes } (world.setSegment g segment) clock where
  clock := depicts.clock
  bound := depicts.bound
  size := fun other => by
    by_cases same : other = g
    · subst same
      rw [World.setSegment_same, size]
      exact depicts.size other
    · simp only [World.setSegment, if_neg same]
      exact depicts.size other
  segment := fun other => by
    by_cases same : other = g
    · subst same
      rw [World.setSegment_same]
      simpa only [assign_same] using encodes
    · simp only [World.setSegment, if_neg same, assign_apart _ _ same]
      exact depicts.segment other

/-- A reading of the clock. -/
theorem nowNs_alone
    : nowNs.Ensures alone Anything a fun now later => now = a.clock 0 ∧ later = a.tick :=
  ⟨trivial, fun _ _ answered => answered⟩

/-- A load finds the word and changes nothing. -/
theorem load_alone (g : Nat) (area : Area) (span : Span)
    : (access (.load g area span)).Ensures alone Anything a fun word later =>
        word = wordAt (a.bytes g) span ∧ later = a :=
  ⟨trivial, fun _ _ answered => answered⟩

theorem loadHeader_alone (depicts : Depicts a world clock) (g : Nat) (word : HeaderWord)
    : (loadHeader g word).Ensures alone Anything a fun value later =>
        value = headerWord (world.segments g).header word ∧ later = a := by
  refine (load_alone g _ _).mono (fun _ => id) fun value later found => ?_
  rw [(depicts.segment g).header word] at found
  exact found

/-- A store changes the bytes of its span. -/
theorem store_alone (g : Nat) (area : Area) (span : Span) (value : UInt64)
    : (access (.store g area span value)).Ensures alone Anything a fun _ later =>
        later = { a with bytes := assign a.bytes g (storeAt (a.bytes g) span value) } :=
  ⟨trivial, fun _ _ answered => answered.2⟩

/-- An exchange stores if it finds what it expects. -/
theorem exchange_alone (g : Nat) (area : Area) (span : Span) (expected desired : UInt64)
    : (access (.exchange g area span expected desired)).Ensures alone Anything a
        fun (found : UInt64) later =>
          found = wordAt (a.bytes g) span
          ∧ later
            = if found = expected then
                { a with bytes := assign a.bytes g (storeAt (a.bytes g) span desired) }
              else a := by
  refine ⟨trivial, fun found later answered => ?_⟩
  obtain ⟨rfl, rfl⟩ := answered
  refine ⟨rfl, ?_⟩
  dsimp only [Alone.after, Effect.apply]
  split <;> rfl

/-- The questions whose answers are nowhere in the world. -/
theorem ask_alone (question : Question) (silent : question ≠ .nowNs)
    : (access (.ask question)).Ensures alone Anything a fun answer later =>
        a.Answers (.ask question) answer ∧ later = a := by
  refine ⟨trivial, fun answer later answered => ⟨answered.1, ?_⟩⟩
  rw [answered.2]
  cases question with
  | nowNs => exact absurd rfl silent
  | opens | sizeOf | spurious | clockFirst | patience => rfl

end Steps

end ShmFrame.Accesses
