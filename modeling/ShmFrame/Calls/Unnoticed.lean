import ShmFrame.Calls.Subscriber
import ShmFrame.Foundation.Blind

/-! A subscriber visits no slot of a segment but the one `latest` names: it does not notice
that others are replaced.
-/

namespace ShmFrame.Calls

open ShmFrame.Commands ShmFrame.Foundation

-----------------------------------------------------------------------------------------
-- What a subscriber does not notice
-----------------------------------------------------------------------------------------

/-- The slots of one segment are replaced. -/
def Subscriber.withSlots (s : Subscriber) (g : Nat) (slots : Nat → Slot) : Subscriber :=
  { s with world := s.world.setSegment g { s.world.segments g with slots } }

/-- The segment's `latest` and slots are the given ones. -/
def Shows (g : Nat) (latest : UInt64) (slots : Nat → Slot) (s : Subscriber) : Prop :=
  (s.world.segments g).header.latest = latest ∧ (s.world.segments g).slots = slots

section Unnoticed

variable {g : Nat} {latest : UInt64} {slots other : Nat → Slot} {Value : Type}

/-- A call does not notice that the slots of the segment are replaced. -/
def Unnoticed (g : Nat) (latest : UInt64) (slots other : Nat → Slot) (call : Call Value)
    : Prop :=
  Blind (fun s => s.withSlots g other) (Shows g latest slots) call

/-- Segments differ from before in the slots of one of them at most. -/
theorem Subscriber.withSlots_segment (s : Subscriber) (target : Nat)
    : (s.withSlots g other).world.segments target
      = if target = g then { s.world.segments target with slots := other }
        else s.world.segments target := by
  by_cases same : target = g
  · subst same
    rfl
  · simp [Subscriber.withSlots, World.setSegment, same]

/-- The clock runs the same. -/
theorem unnoticed_nowNs : Unnoticed g latest slots other Call.nowNs where
  commutes := fun _ _ => rfl
  keeps := fun _ shows_ => shows_

/-- The private state is the subscriber's own. -/
theorem unnoticed_impl : Unnoticed g latest slots other Call.impl :=
  .load fun _ _ => rfl

/-- Storing private state touches no segment. -/
theorem unnoticed_setImpl (m : LLSubscriber.Impl)
    : Unnoticed g latest slots other (Call.setImpl m) :=
  .store (fun _ => rfl) fun _ shows_ => shows_

/-- The name is bound to the same segment. -/
theorem unnoticed_bound : Unnoticed g latest slots other Call.bound :=
  .load fun _ _ => rfl

/-- Sizes are the same. -/
theorem unnoticed_sizeOf (target : Nat)
    : Unnoticed g latest slots other (Call.sizeOf target) := by
  refine .load fun s _ => ?_
  rw [s.withSlots_segment]
  split <;> rfl

/-- Headers are the same. -/
theorem unnoticed_header (target : Nat)
    : Unnoticed g latest slots other (Call.header target) := by
  refine .load fun s _ => ?_
  rw [s.withSlots_segment]
  split <;> rfl

/-- Storing the owner words commutes with replacing slots, segment by segment. -/
theorem unnoticed_setHeader (target : Nat) (gen beat : LLHeader → UInt64)
    : Unnoticed g latest slots other (Call.setHeader target gen beat) := by
  refine .store (fun s => ?_) fun s shows_ => ?_
  · simp only [Subscriber.withSlots, World.setSegment, Subscriber.mk.injEq, World.mk.injEq,
      true_and, and_true]
    funext index
    by_cases here : index = g
    · by_cases there : index = target
      · subst here
        subst there
        simp
      · subst here
        simp [there]
    · by_cases there : index = target
      · subst there
        simp [here]
      · simp [here, there]
  · simp only [Shows, World.setSegment] at shows_ ⊢
    split
    · rename_i same
      subst same
      exact shows_
    · exact shows_

/-- The slot that `latest` names is the same before and after. -/
theorem unnoticed_slot (target : Nat) {index : Nat}
    (untouched : target = g → other index = slots index)
    : Unnoticed g latest slots other (Call.slot target index) := by
  refine .load fun s shows_ => ?_
  rw [s.withSlots_segment]
  split
  · rename_i same
    subst same
    rw [shows_.2]
    exact untouched rfl
  · rfl

/-- The ownership check looks at the header only. -/
theorem unnoticed_stillOwnsCommands (target : Nat)
    : Unnoticed g latest slots other (stillOwnsCommands target) := by
  refine .bind unnoticed_impl fun m => .ite (fun _ => .pure _) fun _ => ?_
  refine .bind (unnoticed_header target) fun h => .ite (fun _ => ?_) fun _ => ?_
  · exact .bind (unnoticed_setImpl _) fun _ => .pure _
  · refine .bind unnoticed_nowNs fun now => ?_
    exact .bind (unnoticed_setHeader target _ _) fun _ => .pure _

/-- So does the judgement of an existing claim. -/
theorem unnoticed_genuinelyHeld (target : Nat)
    : Unnoticed g latest slots other (genuinelyHeld target) := by
  refine .bind (unnoticed_header target) fun h => .ite (fun _ => .pure _) fun _ => ?_
  exact .bind unnoticed_nowNs fun now => .pure _

/-- The claim loop works on the owner words, by induction on the spurious failures. -/
theorem unnoticed_claimLoop (target spurious : Nat)
    : Unnoticed g latest slots other (claimLoop target spurious) := by
  induction spurious with
  | zero =>
      refine .bind (unnoticed_genuinelyHeld target) fun held => .ite (fun _ => .pure _) fun _ => ?_
      refine .bind unnoticed_nowNs fun now => ?_
      refine .bind (unnoticed_setHeader target _ _) fun _ => ?_
      refine .bind unnoticed_impl fun m => ?_
      refine .bind (unnoticed_setImpl _) fun _ => ?_
      exact .bind unnoticed_nowNs fun now => unnoticed_setHeader target _ _
  | succ spurious ih =>
      refine .bind (unnoticed_genuinelyHeld target) fun held => .ite (fun _ => .pure _) fun _ => ?_
      exact .bind unnoticed_nowNs fun now => ih

/-- Opening looks at the binding and the size. -/
theorem unnoticed_openSegment (system : Circumstances)
    : Unnoticed g latest slots other (openSegment system) := by
  refine .bind unnoticed_bound fun found => ?_
  cases found with
  | none => exact .pure _
  | some target =>
      refine .bind (unnoticed_sizeOf target) fun size => ?_
      exact .ite (fun _ => .pure _) fun _ => .pure _

/-- Connecting looks at the header, and claims through it. -/
theorem unnoticed_tryConnect (system : Circumstances)
    : Unnoticed g latest slots other (tryConnect system) := by
  refine .bind (unnoticed_openSegment system) fun found => ?_
  cases found with
  | none => exact .pure _
  | some target =>
      refine .bind (unnoticed_header target) fun h => ?_
      refine .bind (unnoticed_sizeOf target) fun size => ?_
      dsimp only
      split
      · refine .bind unnoticed_impl fun m => .ite (fun _ => .pure _) fun _ => ?_
        refine .bind (unnoticed_setImpl _) fun _ => ?_
        refine .bind (unnoticed_claimLoop target _) fun _ => ?_
        refine .bind unnoticed_impl fun m => ?_
        exact .bind (unnoticed_setImpl _) fun _ => .pure _
      · exact .pure _

/-- The producer's heartbeat is in the header. -/
theorem unnoticed_producerResponsive
    : Unnoticed g latest slots other producerResponsive := by
  refine .bind unnoticed_impl fun m => ?_
  split
  · refine .bind (unnoticed_header _) fun h => ?_
    exact .bind unnoticed_nowNs fun now => .pure _
  · exact .pure _

/-- The refresh goes through the header. -/
theorem unnoticed_refreshClaim : Unnoticed g latest slots other refreshClaim := by
  refine .bind unnoticed_impl fun m => ?_
  split
  · exact unnoticed_stillOwnsCommands _
  · exact .pure _

/-- `poll` never looks at a slot. -/
theorem unnoticed_poll (system : Circumstances)
    : Unnoticed g latest slots other (poll system) := by
  refine .bind unnoticed_nowNs fun now => ?_
  refine .bind unnoticed_refreshClaim fun _ => ?_
  refine .bind unnoticed_impl fun m => .ite (fun _ => .pure _) fun _ => ?_
  refine .bind unnoticed_producerResponsive fun alive => .ite (fun _ => .pure _) fun _ => ?_
  refine .ite (fun _ => .pure _) fun _ => ?_
  refine .bind (unnoticed_setImpl _) fun _ => ?_
  refine .bind (unnoticed_tryConnect system) fun _ => ?_
  refine .bind unnoticed_impl fun m => ?_
  exact .bind (unnoticed_setImpl _) fun _ => unnoticed_producerResponsive

/-- The slot that `latest` names is untouched, if it names one. -/
def Untouched (latest : UInt64) (slots other : Nat → Slot) : Prop :=
  latest ≠ 0 → other (latestSlot latest).toNat = slots (latestSlot latest).toNat

/-- The attempts only visit the slot that `latest` names, by induction on their number. -/
theorem unnoticed_readAttempts (untouched : Untouched latest slots other) (target : Nat)
    (dst : Buffer) (info : LLFrameInfo) (attempts : Nat)
    : Unnoticed g latest slots other (readAttempts target dst info attempts) := by
  induction attempts with
  | zero => exact .pure _
  | succ attempts ih =>
      refine .bind unnoticed_impl fun m => ?_
      refine .bind_of (unnoticed_header target) (fun h => target = g → h.latest = latest)
        ?_ fun h names => ?_
      · rintro s ⟨shown, -⟩ rfl
        exact shown
      refine .ite (fun _ => .ite (fun _ => ?_) fun _ => .pure _) fun fresh => ?_
      · exact .bind (unnoticed_setImpl _) fun _ => .pure _
      refine .ite (fun _ => .pure _) fun _ => ?_
      have published : h.latest ≠ 0 := by
        intro zero
        simp [LLSubscriber.Impl.nothingNew, zero] at fresh
      refine .bind (unnoticed_slot target fun here => ?_) fun s => ?_
      · rw [names here]
        exact untouched (names here ▸ published)
      refine .ite (fun _ => ih) fun _ => .ite (fun _ => .pure _) fun _ => ?_
      refine .ite (fun _ => .pure _) fun _ => ?_
      refine .bind unnoticed_nowNs fun now => ?_
      exact .bind (unnoticed_setImpl _) fun _ => .pure _

/-- The rate gate looks at private state and the clock. -/
theorem unnoticed_rateGate : Unnoticed g latest slots other rateGate := by
  refine .bind unnoticed_impl fun m => .ite (fun _ => .pure _) fun _ => ?_
  refine .bind unnoticed_nowNs fun now => ?_
  exact .bind (unnoticed_setImpl _) fun _ => .pure _

/-- So does the cheap gate. -/
theorem unnoticed_cheapGate : Unnoticed g latest slots other cheapGate := by
  refine .bind unnoticed_impl fun m => .ite (fun _ => .pure _) fun _ => ?_
  refine .bind unnoticed_nowNs fun now => .ite (fun _ => ?_) fun _ => .pure _
  exact .bind (unnoticed_setImpl _) fun _ => .pure _

/-- A read does not notice that slots other than the one `latest` names are replaced. -/
theorem unnoticed_readLatest (untouched : Untouched latest slots other)
    (system : Circumstances) (dst : Buffer) (info : LLFrameInfo)
    : Unnoticed g latest slots other (readLatest system dst info) := by
  refine .bind (unnoticed_poll system) fun up => .ite (fun _ => .pure _) fun _ => ?_
  refine .bind unnoticed_rateGate fun passed => .ite (fun _ => .pure _) fun _ => ?_
  refine .bind unnoticed_impl fun m => ?_
  split
  · exact unnoticed_readAttempts untouched _ dst info 4
  · exact .pure _

/-- Nor does a read into a vector. -/
theorem unnoticed_readLatestVector (untouched : Untouched latest slots other)
    (first second : Circumstances) (dst : Buffer) (info : LLFrameInfo)
    : Unnoticed g latest slots other (readLatestVector first second dst info) := by
  refine .bind (unnoticed_poll first) fun up => .ite (fun _ => .pure _) fun _ => ?_
  refine .bind unnoticed_cheapGate fun passed => .ite (fun _ => .pure _) fun _ => ?_
  exact .bind unnoticed_impl fun m => unnoticed_readLatest untouched second _ info

end Unnoticed

end ShmFrame.Calls
