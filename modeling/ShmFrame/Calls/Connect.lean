import ShmFrame.Calls.Subscriber
import ShmFrame.Foundation.Steady

/-! What `try_connect` can do to a subscriber and to the segments: it refuses, keeps the
session, or adopts another one.
-/

namespace ShmFrame.Calls

open ShmFrame.Commands ShmFrame.Foundation

-----------------------------------------------------------------------------------------
-- What a call leaves alone
-----------------------------------------------------------------------------------------

/-- The part of a segment that subscribers do not write: all but the owner words and the
rings.
-/
def Segment.produced (segment : Segment) : Segment :=
  {
    segment with
    header := {
      segment.header with
      commandOwnerGen := 0
      commandOwnerHeartbeatNs := 0
    }
    down := {}
    up := {}
  }

/-- The private state without what is known about the claim. -/
def unclaimed (m : LLSubscriber.Impl) : LLSubscriber.Impl :=
  { m with ownsCommands := false, ownerGen := 0 }

/-- The clock goes on, and nothing a producer writes changes. -/
structure Onward (s next : Subscriber) : Prop where
  clock : ∃ readings, next.clock = fun index => s.clock (index + readings)
  bound : next.world.bound = s.world.bound
  produced : ∀ g, (next.world.segments g).produced = (s.world.segments g).produced

/-- The private state changes in the claim at most, too. -/
structure Refreshes (s next : Subscriber) : Prop extends Onward s next where
  impl : unclaimed next.impl = unclaimed s.impl

instance : Std.Refl Onward where
  refl := fun _ => ⟨⟨0, rfl⟩, rfl, fun _ => rfl⟩

instance : IsTrans Subscriber Onward where
  trans := fun _ _ _ first second => by
    obtain ⟨fewer, clock⟩ := first.clock
    obtain ⟨more, clock'⟩ := second.clock
    refine ⟨⟨more + fewer, ?_⟩, second.bound.trans first.bound, fun g =>
      (second.produced g).trans (first.produced g)⟩
    rw [clock', clock]
    funext index
    exact congrArg _ (Nat.add_assoc ..)

instance : Std.Refl Refreshes where
  refl := fun s => ⟨Std.Refl.refl s, rfl⟩

instance : IsTrans Subscriber Refreshes where
  trans := fun _ _ _ first second =>
    ⟨IsTrans.trans _ _ _ first.toOnward second.toOnward, second.impl.trans first.impl⟩

section Parts

variable {s next : Subscriber}

/-- The headers agree in all but the owner words. -/
theorem Onward.header (onward : Onward s next) (g : Nat)
    : (next.world.segments g).header
      = {
          (s.world.segments g).header with
          commandOwnerGen := (next.world.segments g).header.commandOwnerGen
          commandOwnerHeartbeatNs := (next.world.segments g).header.commandOwnerHeartbeatNs
        } := by
  have same := congrArg (·.header) (onward.produced g)
  simp only [Segment.produced, LLHeader.mk.injEq] at same
  cases header : (next.world.segments g).header
  cases before : (s.world.segments g).header
  simp only [header, before] at same
  simp [same]

theorem Onward.size (onward : Onward s next) (g : Nat)
    : (next.world.segments g).size = (s.world.segments g).size :=
  congrArg (·.size) (onward.produced g)

theorem Onward.slots (onward : Onward s next) (g : Nat)
    : (next.world.segments g).slots = (s.world.segments g).slots :=
  congrArg (·.slots) (onward.produced g)

end Parts

-----------------------------------------------------------------------------------------
-- The steps of attaching
-----------------------------------------------------------------------------------------

/-- Reading the clock moves it. -/
theorem refreshes_nowNs : Steady Refreshes Call.nowNs :=
  fun _ => ⟨⟨⟨1, rfl⟩, rfl, fun _ => rfl⟩, rfl⟩

/-- Loads of the own state and of a header. -/
theorem refreshes_impl : Steady Refreshes Call.impl := .load _

theorem refreshes_header (g : Nat) : Steady Refreshes (Call.header g) := .load _

/-- Replacing a segment by one that a producer has written the same way. -/
theorem World.produced_setSegment (w : World) {g : Nat} {segment : Segment}
    (same : segment.produced = (w.segments g).produced) (other : Nat)
    : ((w.setSegment g segment).segments other).produced = (w.segments other).produced := by
  by_cases here : other = g
  · subst here
    rw [World.setSegment_same, same]
  · simp [World.setSegment, here]

/-- The owner words are not the producer's. -/
theorem refreshes_setHeader (g : Nat) (gen beat : LLHeader → UInt64)
    : Steady Refreshes (Call.setHeader g gen beat) :=
  .store fun s => ⟨⟨⟨0, rfl⟩, rfl, s.world.produced_setSegment rfl⟩, rfl⟩

/-- A change of the claim. -/
theorem refreshes_claim {s : Subscriber} {m : LLSubscriber.Impl}
    (same : unclaimed m = unclaimed s.impl)
    : Refreshes s { s with impl := m } :=
  ⟨⟨⟨0, rfl⟩, rfl, fun _ => rfl⟩, same⟩

/-- The ownership check. -/
theorem refreshes_stillOwnsCommands (g : Nat) : Steady Refreshes (stillOwnsCommands g) := by
  refine .bind_load fun s => Steady.ite_at (Std.Refl.refl s) ?_
  -- The own state has not changed when the header has been loaded.
  refine Steady.ite_at (refreshes_claim (s := s) rfl) ?_
  refine Steady.bind_at (refreshes_nowNs s) fun now => ?_
  exact .bind (refreshes_setHeader g _ _) fun _ => .pure _

/-- The judgement of an existing claim. -/
theorem refreshes_genuinelyHeld (g : Nat) : Steady Refreshes (genuinelyHeld g) := by
  refine .bind (refreshes_header g) fun h => .ite (.pure _) ?_
  exact .bind refreshes_nowNs fun now => .pure _

/-- The claim loop, by induction on the spurious failures. -/
theorem refreshes_claimLoop (g spurious : Nat) : Steady Refreshes (claimLoop g spurious) := by
  induction spurious with
  | zero =>
      refine .bind (refreshes_genuinelyHeld g) fun held => .ite (.pure _) ?_
      refine .bind refreshes_nowNs fun now => ?_
      refine .bind (refreshes_setHeader g _ _) fun _ => .bind_load fun s => ?_
      refine Steady.bind_at (refreshes_claim rfl) fun _ => ?_
      exact .bind refreshes_nowNs fun now => refreshes_setHeader g _ _
  | succ spurious ih =>
      refine .bind (refreshes_genuinelyHeld g) fun held => .ite (.pure _) ?_
      exact .bind refreshes_nowNs fun now => ih

/-- The age of the heartbeat. -/
theorem refreshes_producerResponsive : Steady Refreshes producerResponsive := by
  refine .bind refreshes_impl fun m => ?_
  split
  · refine .bind (refreshes_header _) fun h => ?_
    exact .bind refreshes_nowNs fun now => .pure _
  · exact .pure _

/-- The first step of `poll`. -/
theorem refreshes_refreshClaim : Steady Refreshes refreshClaim := by
  refine .bind refreshes_impl fun m => ?_
  split
  · exact refreshes_stillOwnsCommands _
  · exact .pure _

-----------------------------------------------------------------------------------------
-- Attaching
-----------------------------------------------------------------------------------------

/-- The segment that an attempt to connect finds and validates, with its layout. -/
def Subscriber.candidate (s : Subscriber) (system : Circumstances) : Option (Nat × LLLayout) :=
  match s.world.bound with
  | none => none
  | some g =>
      let segment := s.world.segments g
      if !system.maps || segment.size = 0 then none
      else (validateHeader segment.size segment.header).map (g, ·)

/-- The subscriber reads this segment's session already. -/
def Subscriber.Reads (s : Subscriber) (g : Nat) : Prop :=
  s.impl.hdr.isSome = true ∧ (s.world.segments g).header.sessionId = s.impl.session

/-- The private state after a segment has been adopted, with or without the claim. -/
def adopted (m : LLSubscriber.Impl) (g : Nat) (h : LLHeader) (cl : LLLayout)
    : LLSubscriber.Impl :=
  let m := m.adopt g h.config cl h.sessionId
  {
    m with
    tx := { m.remote.upstreamRing with base := some g }
    rx := { m.remote.downstreamRing with base := some g }
  }

/-- Everything an attempt to connect can do. -/
inductive Connected (s : Subscriber) (system : Circumstances) : Bool × Subscriber → Prop
  | refused (missing : s.candidate system = none) : Connected s system (false, s)
  | kept {g cl} (found : s.candidate system = some (g, cl)) (reads : s.Reads g)
    : Connected s system (true, s)
  | adopted {g cl next} (found : s.candidate system = some (g, cl)) (fresh : ¬ s.Reads g)
    (onward : Onward s next)
    (impl
      : unclaimed next.impl
        = unclaimed (Calls.adopted s.impl g (s.world.segments g).header cl))
    : Connected s system (true, next)

/-- The handles depend on the configuration only, which the claim loop leaves alone. -/
theorem unclaimed_handles {m before : LLSubscriber.Impl} (g : Nat)
    (same : unclaimed m = unclaimed before)
    : unclaimed {
          m with
          tx := { m.remote.upstreamRing with base := some g }
          rx := { m.remote.downstreamRing with base := some g }
        }
      = unclaimed {
          before with
          tx := { before.remote.upstreamRing with base := some g }
          rx := { before.remote.downstreamRing with base := some g }
        } := by
  have remote : m.remote = before.remote := congrArg (·.remote) same
  simp only [unclaimed, LLSubscriber.Impl.mk.injEq] at same ⊢
  simp_all

/-- Opening finds what the name is bound to, if it can be mapped. -/
theorem openSegment_run (system : Circumstances) (s : Subscriber)
    : (openSegment system).run s
      = (match s.world.bound with
          | none => none
          | some g =>
              if !system.maps || (s.world.segments g).size = 0 then none else some g, s) := by
  unfold openSegment
  rw [Call.run_bind, Call.run_bound]
  cases s.world.bound with
  | none => rfl
  | some g =>
      change StateT.run (if !system.maps || (s.world.segments g).size = 0 then _ else _) s = _
      rw [Call.run_ite]
      split
      · rename_i hidden
        exact (Call.run_pure s none).trans (congrArg (·, s) (if_pos hidden).symm)
      · rename_i shown
        exact (Call.run_pure s (some g)).trans (congrArg (·, s) (if_neg shown).symm)

/-- Without a valid segment nothing happens. -/
theorem tryConnect_refused {system : Circumstances} {s : Subscriber}
    (missing : s.candidate system = none)
    : (tryConnect system).run s = (false, s) := by
  unfold Subscriber.candidate at missing
  simp only [tryConnect, Call.run_bind, openSegment_run]
  cases bound : s.world.bound with
  | none => rfl
  | some g =>
      simp only [bound] at missing ⊢
      split at missing
      · rename_i hidden
        rw [if_pos hidden]
        rfl
      · rename_i shown
        rw [if_neg shown]
        rw [Option.map_eq_none_iff] at missing
        simp only [Call.run_bind, Call.run_header, Call.run_sizeOf, missing, Call.run_pure]

/-- The rest of an attempt that has found a new session. -/
def adoptAndClaim (g : Nat) (h : LLHeader) (cl : LLLayout) (m : LLSubscriber.Impl)
    (spurious : Nat)
    : Call Bool := do
  Call.setImpl (m.adopt g h.config cl h.sessionId)
  claimLoop g spurious
  let m ← Call.impl
  let tx := { m.remote.upstreamRing with base := some g }
  let rx := { m.remote.downstreamRing with base := some g }
  Call.setImpl { m with tx, rx }
  return true

/-- A valid segment is kept or adopted. -/
theorem tryConnect_found {system : Circumstances} {s : Subscriber} {g : Nat} {cl : LLLayout}
    (found : s.candidate system = some (g, cl))
    : (tryConnect system).run s
      = let h := (s.world.segments g).header
        if s.impl.hdr.isSome && h.sessionId = s.impl.session then (true, s)
        else (adoptAndClaim g h cl s.impl system.spurious).run s := by
  unfold Subscriber.candidate at found
  simp only [tryConnect, Call.run_bind, openSegment_run]
  cases bound : s.world.bound with
  | none => simp [bound] at found
  | some target =>
      simp only [bound] at found ⊢
      split at found
      · cases found
      rename_i shown
      rw [if_neg shown]
      obtain ⟨layout, validated, same⟩ := Option.map_eq_some_iff.mp found
      cases same
      simp only [Call.run_bind, Call.run_header, Call.run_sizeOf, validated, Call.run_impl]
      change
        StateT.run
            (if s.impl.hdr.isSome && (s.world.segments g).header.sessionId = s.impl.session
              then _ else _) s
          = _
      rw [Call.run_ite]
      rfl

/-- Adopting a segment sets the private state, but for the claim, and nothing else that is
not the claim's.
-/
theorem adoptAndClaim_run (g : Nat) (h : LLHeader) (cl : LLLayout) (s : Subscriber)
    (spurious : Nat)
    : ∃ next,
        (adoptAndClaim g h cl s.impl spurious).run s = (true, next)
        ∧ Onward s next
        ∧ unclaimed next.impl = unclaimed (adopted s.impl g h cl) := by
  have claims :=
    refreshes_claimLoop g spurious { s with impl := s.impl.adopt g h.config cl h.sessionId }
  refine ⟨_, rfl, ⟨claims.clock, claims.bound, claims.produced⟩, ?_⟩
  exact unclaimed_handles g claims.impl

/-- An attempt to connect does one of the listed things. -/
theorem tryConnect_cases (system : Circumstances) (s : Subscriber)
    : Connected s system ((tryConnect system).run s) := by
  cases found : s.candidate system with
  | none =>
      rw [tryConnect_refused found]
      exact .refused found
  | some candidate =>
      obtain ⟨g, cl⟩ := candidate
      rw [tryConnect_found found]
      dsimp only
      split
      · rename_i reads
        exact .kept found (by simpa [Subscriber.Reads] using reads)
      · rename_i fresh
        obtain ⟨next, result, onward, impl⟩ :=
          adoptAndClaim_run g (s.world.segments g).header cl s system.spurious
        rw [result]
        exact .adopted found (by simpa [Subscriber.Reads] using fresh) onward impl

end ShmFrame.Calls
