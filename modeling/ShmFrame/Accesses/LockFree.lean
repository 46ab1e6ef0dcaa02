import ShmFrame.Accesses.FramePath
import ShmFrame.Accesses.Repacking
import ShmFrame.Foundation.Bounded

/-! No peer can keep a subscriber's call from returning: the only loop that is not bounded, the
one that claims the command channel, goes on no longer than exchanges fail.
-/

namespace ShmFrame.Accesses

open ShmFrame.Foundation ShmFrame.Foundation.Program
open LLSubscriber

-----------------------------------------------------------------------------------------
-- Exchanges that fail
-----------------------------------------------------------------------------------------

/-- An environment of which nothing is known but how many exchanges will still fail, either
spuriously or because somebody else has stored another word; the loop that claims the channel
has the time it takes.
-/
def failing : Environment Effect Effect.Answer Nat := fun left effect answer later =>
  match effect, answer with
  | .ask .spurious, failed => failed = true ∧ left = later + 1 ∨ failed = false ∧ later = left
  | .exchange _ _ _ expected _, found =>
      found = expected ∧ later = left ∨ found ≠ expected ∧ left = later + 1
  | .ask .patience, rounds => left < rounds ∧ later = left
  | .ask .nowNs, _ | .ask .opens, _ | .ask (.sizeOf _), _ | .ask .clockFirst, _ | .load .., _
  | .store .., _ | .copyOut .., _ | .stall, _ =>
      later = left

/-- The effects that have nothing to do with this. -/
def Simple : Effect → Prop
  | .load .. | .store .. | .copyOut .. | .ask .nowNs | .ask .opens | .ask (.sizeOf _)
  | .ask .clockFirst =>
      True
  | .exchange .. | .ask .spurious | .ask .patience | .stall => False

/-- However many exchanges will still fail, a call makes so many accesses at most, and for every
claim of the channel eight more with each failure.
-/
structure Spends {Value : Type} (program : Access Value) (bound claims : Nat) : Prop where
  within
    : ∀ left : Nat,
      program.Within failing Answered left (bound + 8 * claims * (left + 1)) fun _ later =>
        later ≤ left

section Rules

variable {Value Result : Type} {program : Access Value} {second : Value → Access Result}
  {bound more claims : Nat}

theorem Spends.done {value : Value} : Spends (pure value) bound claims :=
  ⟨fun _ => le_rfl⟩

/-- A call that makes no claim. -/
theorem Spends.plain (spends : Spends program bound 0) (left : Nat)
    : program.Within failing Answered left bound fun _ later => later ≤ left :=
  (spends.within left).widen (by omega)

/-- One after the other: the second part starts with no more failures to come. -/
theorem Spends.both (bound more claims others : Nat) (first : Spends program bound claims)
    (rest : ∀ value, Spends (second value) more others)
    : Spends (program >>= second) (bound + more) (claims + others) := by
  refine ⟨fun left => ?_⟩
  refine (Within.bind _ (more + 8 * others * (left + 1)) (first.within left)
    fun value later fewer => ?_).widen (by ring_nf; rfl)
  have less : 8 * others * (later + 1) ≤ 8 * others * (left + 1) :=
    Nat.mul_le_mul_left _ (by omega)
  exact ((rest value).within later).mono (fun _ => id) (by omega) fun _ _ below =>
    below.trans fewer

/-- The first part makes no claim. -/
theorem Spends.bind (bound more : Nat) (first : Spends program bound 0)
    (rest : ∀ value, Spends (second value) more claims)
    : Spends (program >>= second) (bound + more) claims :=
  Nat.zero_add claims ▸ Spends.both bound more 0 claims first rest

theorem Spends.ite {condition : Prop} [Decidable condition] {yes no : Access Value}
    (ifTrue : condition → Spends yes bound claims) (ifFalse : ¬ condition → Spends no bound claims)
    : Spends (if condition then yes else no) bound claims :=
  ⟨fun left =>
    Within.ite (fun holds => (ifTrue holds).within left) fun fails => (ifFalse fails).within left⟩

theorem Spends.widen {others : Nat} (spends : Spends program bound claims) (fewer : bound ≤ more)
    (less : claims ≤ others)
    : Spends program more others := by
  refine ⟨fun left => ?_⟩
  have scaled : 8 * claims * (left + 1) ≤ 8 * others * (left + 1) :=
    Nat.mul_le_mul_right _ (Nat.mul_le_mul_left 8 less)
  exact (spends.within left).widen (by omega)

/-- A single effect that has nothing to do with exchanges. -/
theorem Spends.single {effect : Effect} (simple : Simple effect)
    : Spends (access effect) 1 0 := by
  refine ⟨fun left => ⟨?_, by omega, ?_⟩⟩
  · rintro rfl
    exact simple
  · intro answer later answered
    refine Nat.le_of_eq ?_
    cases effect with
    | load | store | copyOut => exact answered
    | ask question =>
        cases question with
        | nowNs | opens | sizeOf | clockFirst => exact answered
        | spurious | patience => exact simple.elim
    | exchange | stall => exact simple.elim

end Rules

-----------------------------------------------------------------------------------------
-- The claim
-----------------------------------------------------------------------------------------

section Calls

variable {g : Nat} {m : Impl}

theorem nowNs_spends : Spends nowNs 1 0 := .single (by trivial)

theorem loadHeader_spends (g : Nat) (word : HeaderWord) : Spends (loadHeader g word) 1 0 :=
  .single (by trivial)

theorem storeHeader_spends (g : Nat) (word : HeaderWord) (value : UInt64)
    : Spends (storeHeader g word value) 1 0 :=
  .single (by trivial)

theorem loadSlot_spends (g : Nat) (l : LLLayout) (index : UInt32) (word : SlotWord)
    : Spends (loadSlot g l index word) 1 0 :=
  .single (by trivial)

/-- The age of a heartbeat. -/
theorem ageOf_spends (g : Nat) (word : HeaderWord) : Spends (ageOf g word) 3 0 := by
  have asks : Spends clockFirst 1 0 := .single (by trivial)
  refine Spends.bind 1 2 asks fun first => ?_
  refine Spends.ite (fun _ => ?_) fun _ => ?_
  · exact Spends.bind 1 1 nowNs_spends fun _ =>
      Spends.bind 1 0 (loadHeader_spends g word) fun _ => .done
  · exact Spends.bind 1 1 (loadHeader_spends g word) fun _ =>
      Spends.bind 1 0 nowNs_spends fun _ => .done

/-- An existing claim is judged. -/
theorem genuinelyHeld_spends (g : Nat) (existing : UInt64)
    : Spends (genuinelyHeld g existing) 3 0 := by
  refine Spends.ite (fun _ => .done) fun _ => ?_
  exact Spends.bind 3 0 (ageOf_spends ..) fun _ => .done

/-- An attempt to exchange the claim: what has not succeeded is one failure less to come. -/
theorem exchangeWeak_within (existing claim : UInt64) (left : Nat)
    : (exchangeWeak g existing claim).Within failing Answered left 2 fun outcome later =>
        later ≤ left ∧ (outcome.2 = false → later < left) := by
  refine ⟨nofun, Nat.two_pos, fun failed later answered => ?_⟩
  rcases answered with ⟨rfl, fewer⟩ | ⟨rfl, same⟩
  · have reload
        : (loadHeader g .commandOwnerGen >>= fun found => pure (found, false)).Within failing
            Answered later 1 fun outcome after =>
              after ≤ left ∧ (outcome.2 = false → after < left) :=
      Within.bind 1 0 ((loadHeader_spends g _).plain later) fun _ _ below =>
        ⟨by omega, fun _ => by omega⟩
    exact reload
  · rw [same]
    refine ⟨nofun, Nat.one_pos, fun found after exchanged => ?_⟩
    rcases exchanged with ⟨found, same⟩ | ⟨-, fewer⟩
    · refine ⟨same.le, fun never => ?_⟩
      simp [found] at never
    · exact ⟨by omega, fun _ => by omega⟩

/-- The claim loop, by induction on the rounds it has time for: every round that does not end
it is one failure less to come.
-/
theorem claimLoop_within (existing : UInt64) (rounds : Nat) {left : Nat} (time : left < rounds)
    : (claimLoop g m existing rounds).Within failing Answered left (8 * (left + 1))
        fun _ later => later ≤ left := by
  induction rounds generalizing left existing with
  | zero => exact absurd time (Nat.not_lt_zero left)
  | succ rounds ih =>
      refine (Within.bind 3 (8 * left + 5) ((genuinelyHeld_spends g existing).plain left)
        fun held judged fewer => ?_).widen (by omega)
      refine Within.ite (fun _ => fewer) fun _ => ?_
      refine (Within.bind 1 (8 * left + 4) (nowNs_spends.plain judged)
        fun now read less => ?_).widen (by omega)
      refine (Within.bind 2 (8 * left + 2) (exchangeWeak_within existing _ read)
        fun outcome later failure => ?_).widen (by omega)
      refine Within.ite (fun _ => ?_) fun failed => ?_
      · refine (Within.bind 1 1 (nowNs_spends.plain later)
          fun _ noted noting => ?_).widen (by omega)
        exact Within.bind 1 0 ((storeHeader_spends g _ _).plain noted) fun _ _ storing => by
          exact storing.trans (noting.trans (failure.1.trans (less.trans fewer)))
      · have spent := failure.2 (by simpa using failed)
        exact (ih outcome.1 (by omega)).mono (fun _ => id) (by omega) fun _ _ below => by omega

/-- Who goes through the loop has as much time for it as it needs. -/
theorem claim_spends (g : Nat) (m : Impl) (existing : UInt64) (finish : Impl → Impl)
    : Spends (do return finish (← claimLoop g m existing (← patience))) 1 1 := by
  refine ⟨fun left => ⟨nofun, by omega, fun rounds later time => ?_⟩⟩
  rw [time.2]
  exact (Within.bind _ 0 (claimLoop_within existing rounds time.1) fun _ _ => id).widen
    (by omega)

-----------------------------------------------------------------------------------------
-- Attaching and polling
-----------------------------------------------------------------------------------------

theorem loadConfig_spends (g : Nat) : Spends (loadConfig g) 6 0 :=
  Spends.bind 1 5 (loadHeader_spends ..) fun _ =>
  Spends.bind 1 4 (loadHeader_spends ..) fun _ =>
  Spends.bind 1 3 (loadHeader_spends ..) fun _ =>
  Spends.bind 1 2 (loadHeader_spends ..) fun _ =>
  Spends.bind 1 1 (loadHeader_spends ..) fun _ =>
  Spends.bind 1 0 (loadHeader_spends ..) fun _ => .done

/-- The comparisons, by induction on them. -/
theorem agrees_spends (g : Nat) (words : List (HeaderWord × UInt64))
    : Spends (agrees g words) words.length 0 := by
  induction words with
  | nil => exact .done
  | cons pair rest ih =>
      refine (Spends.bind 1 rest.length (loadHeader_spends g pair.1)
        fun _ => ?_).widen (Nat.add_comm 1 _).le le_rfl
      exact Spends.ite (fun _ => .done) fun _ => ih

theorem validateHeader_spends (g : Nat) : Spends (validateHeader g) 16 0 := by
  refine Spends.bind 1 15 (.single (by trivial)) fun size => ?_
  refine Spends.ite (fun _ => .done) fun _ => ?_
  refine Spends.bind 1 14 (loadHeader_spends ..) fun magic => ?_
  refine Spends.ite (fun _ => .done) fun _ => ?_
  refine Spends.bind 1 13 (loadHeader_spends ..) fun version => ?_
  refine Spends.ite (fun _ => .done) fun _ => ?_
  refine Spends.bind 6 7 (loadConfig_spends g) fun c => ?_
  refine Spends.ite (fun _ => .done) fun _ => ?_
  refine Spends.bind 7 0 (agrees_spends g (comparisons (computeLayout c))) fun agree => ?_
  refine Spends.ite (fun _ => .done) fun _ => ?_
  exact Spends.ite (fun _ => .done) fun _ => .done

theorem sameSession_spends (m : Impl) (g : Nat) : Spends (sameSession m g) 1 0 := by
  refine Spends.ite (fun _ => .done) fun _ => ?_
  exact Spends.bind 1 0 (loadHeader_spends ..) fun _ => .done

theorem adopt_spends (m : Impl) (g : Nat) (cl : LLLayout) : Spends (adopt m g cl) 9 1 := by
  refine Spends.bind 6 3 (loadConfig_spends g) fun c => ?_
  refine Spends.bind 1 2 (loadHeader_spends ..) fun session => ?_
  refine Spends.bind 1 1 (loadHeader_spends ..) fun existing => ?_
  exact claim_spends g _ existing _

theorem tryConnect_spends (m : Impl) : Spends (tryConnect m) 27 1 := by
  refine Spends.bind 1 26 (.single (by trivial)) fun found => ?_
  cases found with
  | none => exact .done
  | some g =>
      refine Spends.bind 16 10 (validateHeader_spends g) fun valid => ?_
      cases valid with
      | none => exact .done
      | some cl =>
          refine Spends.bind 1 9 (sameSession_spends m g) fun same => ?_
          exact Spends.ite (fun _ => .done) fun _ => adopt_spends m g cl

theorem openSubscriber_spends (name : Name) : Spends (openSubscriber name) 28 1 :=
  Spends.bind 1 27 nowNs_spends fun _ => tryConnect_spends _

theorem stillOwnsCommands_spends (m : Impl) (g : Nat)
    : Spends (stillOwnsCommands m g) 3 0 := by
  refine Spends.ite (fun _ => .done) fun _ => ?_
  refine Spends.bind 1 2 (loadHeader_spends ..) fun _ => ?_
  refine Spends.ite (fun _ => .done) fun _ => ?_
  refine Spends.bind 1 1 nowNs_spends fun _ => ?_
  exact Spends.bind 1 0 (storeHeader_spends ..) fun _ => .done

theorem refreshClaim_spends (m : Impl) : Spends (refreshClaim m) 3 0 := by
  unfold refreshClaim
  split
  · exact stillOwnsCommands_spends m _
  · exact .done

theorem producerResponsive_spends (m : Impl) : Spends (producerResponsive m) 3 0 := by
  unfold producerResponsive
  split
  · exact Spends.bind 3 0 (ageOf_spends ..) fun _ => .done
  · exact .done

theorem poll_spends (m : Impl) : Spends (poll m) 37 1 := by
  refine Spends.bind 1 36 nowNs_spends fun now => ?_
  refine Spends.bind 3 33 (refreshClaim_spends m) fun m => ?_
  refine Spends.ite (fun _ => .done) fun _ => ?_
  refine Spends.bind 3 30 (producerResponsive_spends m) fun responsive => ?_
  refine Spends.ite (fun _ => .done) fun _ => ?_
  refine Spends.ite (fun _ => .done) fun _ => ?_
  refine Spends.both 27 3 1 0 (tryConnect_spends _) fun connected => ?_
  exact Spends.bind 3 0 (producerResponsive_spends _) fun _ => .done

-----------------------------------------------------------------------------------------
-- Frames
-----------------------------------------------------------------------------------------

theorem loadInfo_spends (g : Nat) (l : LLLayout) (slot : UInt32)
    : Spends (loadInfo g l slot) 6 0 :=
  Spends.bind 1 5 (loadSlot_spends ..) fun _ =>
  Spends.bind 1 4 (loadSlot_spends ..) fun _ =>
  Spends.bind 1 3 (loadSlot_spends ..) fun _ =>
  Spends.bind 1 2 (loadSlot_spends ..) fun _ =>
  Spends.bind 1 1 (loadSlot_spends ..) fun _ =>
  Spends.bind 1 0 (loadSlot_spends ..) fun _ => .done

/-- Bytes are copied one after the other, by induction on their number. -/
theorem copyOut_spends (g : Nat) (area : Area) (first : UInt64) (count : Nat)
    : Spends (copyOut g area first count) count 0 := by
  induction count with
  | zero => exact .done
  | succ count ih =>
      exact Spends.bind count 1 ih fun _ => Spends.bind 1 0 (.single (by trivial)) fun _ => .done

theorem copyIn_spends (g : Nat) (area : Area) (first : Nat) (source : Nat → UInt8) (count : Nat)
    : Spends (copyIn g area first source count) count 0 := by
  induction count with
  | zero => exact .done
  | succ count ih => exact Spends.bind count 1 ih fun _ => .single (by trivial)

/-- An attempt on a slot, where no frame that fits has more bytes than there is room. -/
theorem readSlot_spends (m : Impl) (g : Nat) {capacity : UInt64} {room : Nat}
    (fits : ∀ bytes : UInt32, bytes.toUInt64 ≤ capacity → bytes.toNat ≤ room) (info : LLFrameInfo)
    (slot : UInt32) (before : UInt64)
    : Spends (readSlot m g capacity info slot before) (8 + room) 0 := by
  refine (Spends.bind 6 (2 + room) (loadInfo_spends ..) fun fi => ?_).widen (by omega) le_rfl
  have again (outcome : Impl × ReadReturn)
      : Spends
          (do
            if (← loadSlot g m.layout slot .seq) ≠ before then return none
            return some outcome)
          (2 + room) 0 := by
    refine (Spends.bind 1 0 (loadSlot_spends ..) fun _ => ?_).widen (by omega) le_rfl
    exact Spends.ite (fun _ => .done) fun _ => .done
  refine Spends.ite (fun _ => again _) fun _ => ?_
  refine Spends.ite (fun _ => again _) fun small => ?_
  have enough := fits fi.payloadBytes (UInt64.not_lt.mp small)
  refine (Spends.bind fi.payloadBytes.toNat 2 (copyOut_spends ..) fun dst => ?_).widen
    (by omega) le_rfl
  refine Spends.bind 1 1 (loadSlot_spends ..) fun _ => ?_
  refine Spends.ite (fun _ => .done) fun _ => ?_
  exact Spends.bind 1 0 nowNs_spends fun _ => .done

/-- All attempts, by induction on them. -/
theorem readAttempts_spends (m : Impl) (g : Nat) {capacity : UInt64} {room : Nat}
    (fits : ∀ bytes : UInt32, bytes.toUInt64 ≤ capacity → bytes.toNat ≤ room) (info : LLFrameInfo)
    (attempts : Nat)
    : Spends (readAttempts m g capacity info attempts) (attempts * (10 + room)) 0 := by
  induction attempts with
  | zero => exact .done
  | succ attempts ih =>
      refine (Spends.bind 1 (attempts * (10 + room) + (9 + room)) (loadHeader_spends ..)
        fun packed => ?_).widen (by rw [Nat.succ_mul]; omega) le_rfl
      refine Spends.ite (fun _ => ?_) fun _ => ?_
      · refine (Spends.bind 1 0 (loadHeader_spends ..) fun _ => ?_).widen (by omega) le_rfl
        exact Spends.ite (fun _ => .done) fun _ => .done
      refine Spends.ite (fun _ => .done) fun _ => ?_
      refine (Spends.bind 1 (attempts * (10 + room) + (8 + room)) (loadSlot_spends ..)
        fun before => ?_).widen (by omega) le_rfl
      refine Spends.ite (fun _ => ih.widen (by omega) le_rfl) fun _ => ?_
      refine (Spends.bind (8 + room) (attempts * (10 + room)) (readSlot_spends m g fits ..)
        fun outcome => ?_).widen (by omega) le_rfl
      cases outcome with
      | none => exact ih
      | some outcome => exact .done

theorem readLatest_spends (m : Impl) {capacity : UInt64} {room : Nat}
    (fits : ∀ bytes : UInt32, bytes.toUInt64 ≤ capacity → bytes.toNat ≤ room) (info : LLFrameInfo)
    : Spends (readLatest m capacity info) (78 + 4 * room) 1 := by
  refine (Spends.both 37 (41 + 4 * room) 1 0 (poll_spends m) fun polled => ?_).widen
    (by omega) le_rfl
  refine Spends.ite (fun _ => .done) fun _ => ?_
  have gate : Spends (rateGate polled.1) 1 0 :=
    Spends.ite (fun _ => .done) fun _ => Spends.bind 1 0 nowNs_spends fun _ => .done
  refine (Spends.bind 1 (4 * (10 + room)) gate fun gated => ?_).widen (by omega) le_rfl
  refine Spends.ite (fun _ => .done) fun _ => ?_
  split
  · exact readAttempts_spends gated.1 _ fits info 4
  · exact .done

theorem readLatestVector_spends (m : Impl) (size : UInt64) (info : LLFrameInfo)
    : Spends (readLatestVector m size info) (116 + 4 * (2 ^ 32 - 1)) 2 := by
  refine (Spends.both 37 (79 + 4 * (2 ^ 32 - 1)) 1 1 (poll_spends m) fun polled => ?_).widen
    (by omega) le_rfl
  refine Spends.ite (fun _ => .done) fun _ => ?_
  have gate : Spends (cheapGate polled.1) 1 0 := by
    refine Spends.ite (fun _ => .done) fun _ => ?_
    refine Spends.bind 1 0 nowNs_spends fun _ => ?_
    exact Spends.ite (fun _ => .done) fun _ => .done
  refine (Spends.bind 1 (78 + 4 * (2 ^ 32 - 1)) gate fun gated => ?_).widen (by omega) le_rfl
  refine Spends.ite (fun _ => .done) fun _ => ?_
  exact readLatest_spends gated.1 (fun bytes _ => by have := bytes.toNat_lt; omega) info

-----------------------------------------------------------------------------------------
-- Commands
-----------------------------------------------------------------------------------------

theorem push_spends (h : RingHandle) (call : Commands.PushCall)
    : Spends (h.push call) (8 + call.size.toNat) 0 := by
  unfold RingHandle.push
  split
  · rename_i g _
    have store (head : UInt64) (word : CmdWord) (value : UInt64)
        : Spends (h.storeCmd g head word value) 1 0 :=
      .single (by trivial)
    have advance (head : UInt64)
        : Spends (do h.store g .head (head + 1); return true) 1 0 :=
      Spends.bind 1 0 (.single (by trivial)) fun _ => .done
    refine Spends.ite (fun _ => .done) fun _ => ?_
    refine (Spends.bind 1 (7 + call.size.toNat) (.single (by trivial)) fun head => ?_).widen
      (by omega) le_rfl
    refine (Spends.bind 1 (6 + call.size.toNat) (.single (by trivial)) fun tail => ?_).widen
      (by omega) le_rfl
    refine Spends.ite (fun _ => .done) fun _ => ?_
    refine (Spends.bind 1 (5 + call.size.toNat) (store head ..) fun _ => ?_).widen
      (by omega) le_rfl
    refine (Spends.bind 1 (4 + call.size.toNat) (store head ..) fun _ => ?_).widen
      (by omega) le_rfl
    refine (Spends.bind 1 (3 + call.size.toNat) (store head ..) fun _ => ?_).widen
      (by omega) le_rfl
    refine (Spends.bind 1 (2 + call.size.toNat) (store head ..) fun _ => ?_).widen
      (by omega) le_rfl
    refine (Spends.bind 1 (1 + call.size.toNat) (store head ..) fun _ => ?_).widen
      (by omega) le_rfl
    split
    · refine (Spends.bind call.size.toNat 1 (copyIn_spends ..) fun _ => advance head).widen
        (by omega) le_rfl
    · exact (advance head).widen (by omega) le_rfl
  · exact .done

theorem pop_spends (h : RingHandle) : Spends h.pop (9 + (2 ^ 32 - 1)) 0 := by
  unfold RingHandle.pop
  split
  · rename_i g _
    have counter (word : RingWord) : Spends (h.load g word) 1 0 := .single (by trivial)
    have load (tail : UInt64) (word : CmdWord) : Spends (h.loadCmd g tail word) 1 0 :=
      .single (by trivial)
    have clamped (tail : UInt64) : Spends (h.clampedSize g tail) 2 0 := by
      refine Spends.bind 1 1 (load tail .size) fun _ => ?_
      refine Spends.ite (fun _ => .done) fun _ => ?_
      exact Spends.bind 1 0 (load tail .size) fun _ => .done
    refine Spends.bind 1 (8 + (2 ^ 32 - 1)) (counter .tail) fun (tail : UInt64) => ?_
    refine Spends.bind 1 (7 + (2 ^ 32 - 1)) (counter .head) fun (head : UInt64) => ?_
    refine Spends.ite (fun _ => .done) fun _ => ?_
    refine Spends.bind 1 (6 + (2 ^ 32 - 1)) (load tail .id) fun _ => ?_
    refine Spends.bind 1 (5 + (2 ^ 32 - 1)) (load tail .replyTo) fun _ => ?_
    refine Spends.bind 1 (4 + (2 ^ 32 - 1)) (load tail .timestampNs) fun _ => ?_
    refine Spends.bind 1 (3 + (2 ^ 32 - 1)) (load tail .type) fun _ => ?_
    refine Spends.bind 2 (1 + (2 ^ 32 - 1)) (clamped tail) fun n => ?_
    have small := n.toNat_lt
    refine (Spends.bind n.toNat 1 (copyOut_spends ..) fun _ => ?_).widen (by omega) le_rfl
    exact Spends.bind 1 0 (.single (by trivial)) fun _ => .done
  · exact .done

theorem send_spends (m : Impl) (call : Commands.PushCall)
    : Spends (send m call) (12 + call.size.toNat) 0 := by
  unfold send
  split
  · rename_i g _
    refine (Spends.bind 3 (9 + call.size.toNat) (stillOwnsCommands_spends m g)
      fun m => ?_).widen (by omega) le_rfl
    refine Spends.ite (fun _ => .done) fun _ => ?_
    refine (Spends.bind 1 (8 + call.size.toNat) nowNs_spends fun _ => ?_).widen
      (by omega) le_rfl
    refine Spends.bind (8 + call.size.toNat) 0 (push_spends ..) fun _ => ?_
    exact Spends.ite (fun _ => .done) fun _ => .done
  · exact .done

theorem receive_spends (m : Impl) : Spends (receive m) (13 + (2 ^ 32 - 1)) 0 := by
  unfold receive
  split
  · rename_i g _
    refine Spends.bind 3 (10 + (2 ^ 32 - 1)) (stillOwnsCommands_spends m g) fun m => ?_
    refine Spends.ite (fun _ => .done) fun _ => ?_
    refine Spends.bind (9 + (2 ^ 32 - 1)) 1 (pop_spends _) fun popped => ?_
    cases popped with
    | none => exact .done
    | some command => exact Spends.bind 1 0 nowNs_spends fun _ => .done
  · exact .done

/-- The destructor exchanges once, and does not look at what it found. -/
theorem close_spends (m : Impl) : Spends (close m) 1 0 := by
  unfold close
  split
  · refine Spends.ite (fun _ => ⟨fun left => ⟨nofun, by omega, ?_⟩⟩) fun _ => .done
    intro found later exchanged
    rcases exchanged with ⟨-, same⟩ | ⟨-, fewer⟩
    · exact same.le
    · exact Nat.le_of_lt (by omega)
  · exact .done

/-- How many accesses a call makes at most, apart from what the claims of the channel take. -/
def SubscriberCall.bound : SubscriberCall → Nat
  | .open_ _ => 28
  | .poll => 37
  | .readLatest capacity _ => 78 + 4 * min capacity.toNat (2 ^ 32 - 1)
  | .readLatestVector .. => 116 + 4 * (2 ^ 32 - 1)
  | .send call => 12 + call.size.toNat
  | .receive => 13 + (2 ^ 32 - 1)
  | .close => 1
  | .configure .. => 0

/-- Every call of a subscriber, whatever its private state is, is over after a number of
accesses that only depends on how many exchanges fail.
-/
theorem subscriber_lockFree (m : Impl) (call : SubscriberCall) (failures : Nat)
    : (call.program m).Within failing Answered failures (call.bound + 16 * (failures + 1))
        fun _ _ => True := by
  have spends : Spends (call.program m) call.bound 2 := by
    cases call with
    | open_ name => exact (openSubscriber_spends name).widen le_rfl (by omega)
    | poll =>
        exact (Spends.both 37 0 1 0 (poll_spends m) fun _ => .done).widen le_rfl (by omega)
    | readLatest capacity info =>
        have fits (bytes : UInt32) (small : bytes.toUInt64 ≤ capacity)
            : bytes.toNat ≤ min capacity.toNat (2 ^ 32 - 1) := by
          have := bytes.toNat_lt
          have := UInt64.le_iff_toNat_le.mp small
          rw [UInt32.toNat_toUInt64] at this
          omega
        exact (Spends.both _ 0 1 0 (readLatest_spends m fits info) fun _ => .done).widen le_rfl
          (by omega)
    | readLatestVector size info =>
        exact Spends.both _ 0 2 0 (readLatestVector_spends m size info) fun _ => .done
    | send call =>
        exact (Spends.bind _ 0 (send_spends m call) fun _ => .done).widen le_rfl (Nat.zero_le 2)
    | receive =>
        exact (Spends.bind _ 0 (receive_spends m) fun _ => .done).widen le_rfl (Nat.zero_le 2)
    | close => exact (Spends.bind 1 0 (close_spends m) fun _ => .done).widen le_rfl (Nat.zero_le 2)
    | configure staleNs retryNs minReadNs => exact .done
  exact (spends.within failures).mono (fun _ => id) (by omega) fun _ _ _ => trivial

end Calls

end ShmFrame.Accesses
