import ShmFrame.Accesses.Independence
import ShmFrame.Accesses.PublisherCalls
import ShmFrame.Foundation.Bounded

/-! The publisher never waits: whatever others do, a call of it is over after a number of its
own accesses that only depends on the configuration.
-/

namespace ShmFrame.Accesses

open ShmFrame.Foundation ShmFrame.Foundation.Program
open LLPublisher

-----------------------------------------------------------------------------------------
-- Effects that do not fail
-----------------------------------------------------------------------------------------

/-- A load, a store or a reading of the clock, none of which is ever tried again. -/
def Plain : Effect → Prop
  | .load .. | .store .. | .copyOut .. | .ask .nowNs => True
  | .exchange .. | .ask _ | .stall => False

/-- One plain effect. -/
theorem plain_within {effect : Effect} (plain : Plain effect)
    : (access effect).Within anything Plain () 1 fun _ _ => True :=
  ⟨plain, Nat.one_pos, fun _ _ _ => trivial⟩

theorem nowNs_within : nowNs.Within anything Plain () 1 fun _ _ => True := plain_within trivial

theorem loadSlot_within (g : Nat) (l : LLLayout) (index : UInt32) (word : SlotWord)
    : (loadSlot g l index word).Within anything Plain () 1 fun _ _ => True :=
  plain_within trivial

theorem storeSlot_within (g : Nat) (l : LLLayout) (index : UInt32) (word : SlotWord)
    (value : UInt64)
    : (storeSlot g l index word value).Within anything Plain () 1 fun _ _ => True :=
  plain_within trivial

theorem storeHeader_within (g : Nat) (word : HeaderWord) (value : UInt64)
    : (storeHeader g word value).Within anything Plain () 1 fun _ _ => True :=
  plain_within trivial

theorem stepSeq_within (g : Nat) (l : LLLayout) (index : UInt32)
    : (stepSeq g l index).Within anything Plain () 2 fun _ _ => True :=
  Within.bind 1 _ (loadSlot_within ..) fun _ _ _ => storeSlot_within ..

-----------------------------------------------------------------------------------------
-- The calls
-----------------------------------------------------------------------------------------

section Calls

variable {g : Nat} {m : Impl}

/-- What a `begin_write` returns, and a slot is only handed out for a frame that seems to fit. -/
structure Began (m : Impl) (width height : UInt32) (begun : Impl × Option UInt64) : Prop where
  cfg : begun.1.cfg = m.cfg
  fits
    : begun.2.isSome = true
      → height ≠ 0 ∧ (frameBytes m.cfg width height).toNat ≤ m.cfg.maxPayload.toNat

/-- `begin_write`. -/
theorem beginWrite_within (g : Nat) (m : Impl) (width height : UInt32)
    : (beginWrite g m width height).Within anything Plain () 7 fun begun _ =>
        Began m width height begun := by
  refine Within.ite (fun _ => ⟨rfl, nofun⟩) fun _ => ?_
  have clock : (gateClock m).Within anything Plain () 1 fun _ _ => True :=
    Within.ite (fun _ => trivial) fun _ => nowNs_within
  refine Within.bind 1 6 clock fun now _ _ => ?_
  rcases m.admitWrite_cases width height now with same | same | ⟨⟨-, -, rows, fits⟩, same⟩
  · rw [same]
    exact ⟨rfl, nofun⟩
  · rw [same]
    exact ⟨rfl, nofun⟩
  rw [same]
  refine Within.bind 2 4 (stepSeq_within ..) fun _ _ _ => ?_
  refine Within.bind 1 3 (storeSlot_within ..) fun _ _ _ => ?_
  refine Within.bind 1 2 (storeSlot_within ..) fun _ _ _ => ?_
  refine Within.bind 1 1 (storeSlot_within ..) fun _ _ _ => ?_
  refine Within.bind 1 0 (storeSlot_within ..) fun _ _ _ => ?_
  exact ⟨rfl, fun _ => ⟨rows, fits⟩⟩

/-- `cancel_write`. -/
theorem cancelWrite_within (g : Nat) (m : Impl)
    : (cancelWrite g m).Within anything Plain () 2 fun _ _ => True := by
  unfold cancelWrite
  split
  · exact Within.bind 2 0 (stepSeq_within ..) fun _ _ _ => trivial
  · trivial

/-- `commit`. -/
theorem commit_within (g : Nat) (m : Impl) (timestampNs : UInt64)
    : (commit g m timestampNs).Within anything Plain () 8 fun _ _ => True := by
  unfold commit
  split
  · refine Within.bind 1 7 (storeSlot_within ..) fun _ _ _ => ?_
    have stamp : (stampOf timestampNs).Within anything Plain () 1 fun _ _ => True :=
      Within.ite (fun _ => nowNs_within) fun _ => trivial
    refine Within.bind 1 6 stamp fun _ _ _ => ?_
    refine Within.bind 1 5 (storeSlot_within ..) fun _ _ _ => ?_
    refine Within.bind 2 3 (stepSeq_within ..) fun _ _ _ => ?_
    refine Within.bind 1 2 (storeHeader_within ..) fun _ _ _ => ?_
    refine Within.bind 1 1 nowNs_within fun _ _ _ => ?_
    exact Within.bind 1 0 (storeHeader_within ..) fun _ _ _ => trivial
  · trivial

/-- Bytes are copied one after the other, by induction on their number. -/
theorem copyIn_within (g : Nat) (area : Area) (first : Nat) (source : Nat → UInt8) (count : Nat)
    : (copyIn g area first source count).Within anything Plain () count fun _ _ => True := by
  induction count with
  | zero => trivial
  | succ count ih => exact Within.bind count 1 ih fun _ _ _ => plain_within trivial

/-- The copies of `publish`, by induction on them. -/
theorem copyRows_within (g : Nat) (index : UInt32) (payload : UInt64) (src : Nat → UInt8)
    (copies : List Calls.RowCopy)
    : (copyRows g index payload src copies).Within anything Plain ()
        (copies.map (·.length.toNat)).sum fun _ _ => True := by
  induction copies with
  | nil => trivial
  | cons copy rest ih =>
      exact Within.bind copy.length.toNat _ (copyIn_within ..) fun _ _ _ => ih

/-- Together the copies of a frame in range are as long as the frame. -/
theorem rowCopies_length {c : LLConfig} {width height : UInt32}
    (small : c.exactBytes width height < 2 ^ 32) (rows : height ≠ 0) (srcStride : UInt32)
    : ((Calls.rowCopies c width height srcStride).map (·.length.toNat)).sum
      ≤ c.exactBytes width height := by
  have stride := Calls.dstStride_exact small rows
  have whole : c.exactBytes width height = height.toNat * (Calls.dstStride c width).toNat := by
    rw [stride, LLConfig.exactBytes]
    ring
  unfold Calls.rowCopies
  dsimp only
  generalize (if srcStride = 0 then Calls.dstStride c width else srcStride) = src
  split
  · simp only [List.map_cons, List.map_nil, List.sum_cons, List.sum_nil, Nat.add_zero,
      UInt64.toNat_mul, UInt32.toNat_toUInt64]
    rw [whole, Nat.mul_comm]
    exact Nat.mod_le _ _
  · rw [List.map_map, whole]
    simp [Function.comp_def]

/-- `publish`, unless a product wraps. -/
theorem publish_within (g : Nat) {m : Impl} (bounds : m.cfg.FrameBounds)
    (src : Option (Nat → UInt8)) {width height : UInt32} (srcStride : UInt32)
    (unwrapped : Unwrapped m.cfg width height)
    : (publish g m src width height srcStride).Within anything Plain ()
        (m.cfg.maxPayload.toNat + 15) fun _ _ => True := by
  cases src with
  | none => trivial
  | some src =>
      refine (Within.bind 7 (m.cfg.maxPayload.toNat + 8) (beginWrite_within g m width height)
        fun begun _ began => ?_).widen (by omega)
      cases handed : begun.2 with
      | none => trivial
      | some payload =>
          dsimp only
          obtain ⟨rows, fits⟩ := began.fits (by rw [handed]; rfl)
          rw [Calls.frameBytes_toNat] at fits
          have fits := unwrapped fits
          have small := bounds.small
          have length := rowCopies_length (fits.trans_lt (by omega)) rows srcStride
          refine (Within.bind _ 8 (copyRows_within ..) fun _ _ _ => ?_).widen (by omega)
          exact Within.bind 8 0 (commit_within ..) fun _ _ _ => trivial

/-- How many accesses a call on the frame path takes at most. -/
def patienceOf (c : LLConfig) : Nat := c.maxPayload.toNat + 15

/-- Every call on the frame path, by cases on it. -/
theorem PublisherCall.program_within {cfg : LLConfig} (accepted : cfg.accepted = true)
    (ready : Ready cfg m) (call : PublisherCall) (unwrapped : call.Unwrapped cfg)
    : (call.program m).Within anything Plain () (patienceOf cfg) fun outcome _ =>
        Ready cfg outcome.1 := by
  have bounds := cfg.accepted_frameBounds accepted
  have bounded := configValid_bounded (LLConfig.accepted_valid accepted)
  obtain rfl := ready.config
  have within : (call.program m).Within anything Plain () (patienceOf m.cfg) fun _ _ => True := by
    unfold patienceOf
    cases call with
    | beginWrite width height =>
        exact (beginWrite_within 0 m width height).returning.widen (by omega)
    | cancelWrite =>
        exact (cancelWrite_within 0 m).returning.widen (by omega)
    | commit timestampNs =>
        exact (commit_within 0 m timestampNs).returning.widen (by omega)
    | publish src width height srcStride =>
        exact (publish_within 0 bounds src srcStride unwrapped).returning
    | setMaxPublish intervalNs => trivial
  exact (within.and (call.program_frameWork bounded ready)).mono (fun _ => id) le_rfl
    fun _ _ => And.right

end Calls

-----------------------------------------------------------------------------------------
-- The machine
-----------------------------------------------------------------------------------------

/-- No size that is published fits only because a product has wrapped. -/
def SharedAction.Unwrapped (c : LLConfig) : SharedAction → Prop
  | .publisher (.call call) => call.Unwrapped c
  | _ => True

/-- An access of the publisher's. -/
def SharedAction.ofPublisherAccess : SharedAction → Bool
  | .publisher (.access _) => true
  | _ => false

/-- How many accesses of its own the publisher needs at most until it returns. -/
structure Spare (cfg : LLConfig) (left : Nat) (s : Shared) : Prop where
  ready : Ready cfg s.publisher.impl
  all : s.publisher.running = none → left = patienceOf cfg
  few : left ≤ patienceOf cfg
  running
    : ∀ program,
        s.publisher.running = some program
        → program.Within anything Plain () left fun outcome _ => Ready cfg outcome.1

section Machine

variable {cfg : LLConfig} {size : Nat → UInt64} {s next : Shared} {left : Nat}

/-- What others do does not matter. -/
theorem Spare.others (spare : Spare cfg left s) (same : next.publisher = s.publisher)
    : Spare cfg left next := by
  refine ⟨?_, ?_, spare.few, ?_⟩ <;> rw [same]
  · exact spare.ready
  · exact spare.all
  · exact spare.running

/-- A subscriber leaves the publisher alone, by cases on its move. -/
theorem subscriberStep_publisher {who : Nat} {move : SubscriberMove}
    (stepped : s.subscriberStep size who move = some next)
    : next.publisher = s.publisher := by
  unfold Shared.subscriberStep at stepped
  cases move with
  | call call =>
      dsimp only at stepped
      split at stepped
      · cases stepped
      · obtain rfl := Option.some.inj stepped
        rfl
  | access reply =>
      dsimp only at stepped
      split at stepped
      · cases stepped
      · obtain ⟨later, -, rfl⟩ := Option.map_eq_some_iff.mp stepped
        rfl
  | finish =>
      dsimp only at stepped
      split at stepped
      · obtain rfl := Option.some.inj stepped
        rfl
      · cases stepped
  | crash =>
      obtain rfl := Option.some.inj stepped
      rfl

/-- A move of the publisher that is not the end of a call. -/
theorem Spare.move (spare : Spare cfg left s) (accepted : cfg.accepted = true)
    {move : PublisherMove} (unwrapped : (SharedAction.publisher move).Unwrapped cfg)
    (stepped : s.publisherStep size move = some next)
    : ∃ fewer,
        Spare cfg fewer next
        ∧ (move ≠ .finish
          → fewer + (if (SharedAction.publisher move).ofPublisherAccess then 1 else 0) = left) := by
  unfold Shared.publisherStep at stepped
  cases move with
  | call call =>
      dsimp only at stepped
      split at stepped
      · cases stepped
      rename_i idle
      obtain rfl := Option.some.inj stepped
      obtain rfl := spare.all idle
      refine ⟨_, ⟨spare.ready, nofun, le_rfl, ?_⟩, fun _ => rfl⟩
      rintro program ⟨⟩
      exact call.program_within accepted spare.ready unwrapped
  | access nowNs =>
      dsimp only at stepped
      split at stepped
      · cases stepped
      rename_i program running
      obtain ⟨⟨later, bytes⟩, advanced, rfl⟩ := Option.map_eq_some_iff.mp stepped
      obtain ⟨effect, rest, answer, rfl, -, rfl, -⟩ := advance_cases advanced
      obtain ⟨-, positive, within⟩ := spare.running _ running
      refine ⟨left - 1, ⟨spare.ready, nofun, by have := spare.few; omega, ?_⟩, fun _ => ?_⟩
      · rintro program ⟨⟩
        exact within answer () trivial
      · exact Nat.sub_add_cancel positive
  | finish =>
      dsimp only at stepped
      split at stepped
      · rename_i impl value running
        obtain rfl := Option.some.inj stepped
        exact ⟨_, ⟨spare.running _ running, fun _ => rfl, le_rfl, nofun⟩, fun never =>
          absurd rfl never⟩
      · cases stepped
  | storeByte index byte =>
      dsimp only at stepped
      split at stepped
      · split at stepped
        · obtain rfl := Option.some.inj stepped
          exact ⟨left, spare.others rfl, fun _ => rfl⟩
        · cases stepped
      · cases stepped

/-- An access of the publisher's is one less, and everything else leaves as many, unless the
call is over; by cases on who acts.
-/
theorem Spare.step (spare : Spare cfg left s) (accepted : cfg.accepted = true)
    {action : SharedAction} (unwrapped : action.Unwrapped cfg)
    (stepped : (sharedMachine size).step s action = some next)
    : ∃ fewer,
        Spare cfg fewer next
        ∧ (action ≠ .publisher .finish
          → fewer + (if action.ofPublisherAccess then 1 else 0) = left) := by
  cases action with
  | subscriber who move =>
      exact ⟨left, spare.others (subscriberStep_publisher stepped), fun _ => rfl⟩
  | elsewhere g offset byte =>
      refine ⟨left, spare.others ?_, fun _ => rfl⟩
      simp only [sharedMachine, Shared.step] at stepped
      split at stepped
      · cases stepped
      · obtain rfl := Option.some.inj stepped
        rfl
  | publisher move =>
      obtain ⟨fewer, after, fewer_⟩ := spare.move accepted unwrapped stepped
      exact ⟨fewer, after, fun unfinished => fewer_ fun same => unfinished (same ▸ rfl)⟩

/-- In every reachable state the publisher has enough left, by induction on the run. -/
theorem Spare.run (accepted : cfg.accepted = true) {schedule : List SharedAction}
    (spare : Spare cfg left s) (unwrapped : ∀ action ∈ schedule, action.Unwrapped cfg)
    (reached : (sharedMachine size).run s schedule = some next)
    : ∃ fewer,
        Spare cfg fewer next
        ∧ ((∀ action ∈ schedule, action ≠ .publisher .finish)
          → fewer + schedule.countP SharedAction.ofPublisherAccess = left) := by
  induction schedule generalizing s left with
  | nil =>
      obtain rfl := Option.some.inj reached
      exact ⟨left, spare, fun _ => rfl⟩
  | cons action rest ih =>
      obtain ⟨middle, stepped, onward⟩ := Machine.run_cons_eq_some.mp reached
      obtain ⟨some_, spare, one⟩ := spare.step accepted (unwrapped _ List.mem_cons_self) stepped
      obtain ⟨fewer, spare, others⟩ :=
        ih spare (fun other member => unwrapped other (List.mem_cons_of_mem _ member)) onward
      refine ⟨fewer, spare, fun unfinished => ?_⟩
      have first := one (unfinished _ List.mem_cons_self)
      have later := others fun other member => unfinished other (List.mem_cons_of_mem _ member)
      rw [List.countP_cons, ← Nat.add_assoc, later, first]

/-- A publisher that has just been created is ready. -/
theorem Spare.create (accepted : cfg.accepted = true) (bytes : Nat → Bytes)
    : Spare cfg (patienceOf cfg) (.create cfg bytes) := by
  refine ⟨⟨rfl, ?_, nofun⟩, fun _ => rfl, le_rfl, nofun⟩
  have slots := (cfg.accepted_frameBounds accepted).slots
  rw [UInt32.lt_iff_toNat_lt]
  change 0 < _
  omega

/-- Whoever runs a call can go on or is done. -/
theorem Spare.goes (spare : Spare cfg left s)
    {program : Access (LLPublisher.Impl × PublisherReturn)}
    (running : s.publisher.running = some program)
    : (∀ nowNs, ((sharedMachine size).step s (.publisher (.access nowNs))).isSome = true)
      ∨ ((sharedMachine size).step s (.publisher .finish)).isSome = true := by
  have within := spare.running program running
  cases program with
  | done outcome =>
      refine .inr ?_
      simp [sharedMachine, Shared.step, Shared.publisherStep, running]
  | perform effect rest =>
      refine .inl fun nowNs => ?_
      have plain := within.1
      have answered : (effect.answer size s.bytes { nowNs }).isSome = true := by
        cases effect with
        | load | store | copyOut => rfl
        | exchange | stall => exact plain.elim
        | ask question => cases question <;> rfl
      simp [sharedMachine, Shared.step, Shared.publisherStep, running, advance, answered]

end Machine

end ShmFrame.Accesses
