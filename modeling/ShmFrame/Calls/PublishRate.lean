import ShmFrame.Calls.Geometry
import ShmFrame.Calls.Tracking
import ShmFrame.Foundation.Window

/-! The publisher's rate cap over whole runs. The gate is tested in `begin_write` and stamped
in `commit`, at readings of the clock that never goes back.
-/

namespace ShmFrame.Calls

open ShmFrame.Foundation

-----------------------------------------------------------------------------------------
-- The machine
-----------------------------------------------------------------------------------------

/-- A publisher with the clock readings to come, and the readings its commits noted, newest
first.
-/
structure TimedPublisher where
  publisher : Publisher
  clock : Nat → UInt64
  commits : List UInt64 := []

/-- What can happen: the publisher's calls, the caller's stores, and whatever subscribers
store into the words that are theirs.
-/
inductive TimedAction
  | beginWrite (width height : UInt32)
  | storeByte (offset : Nat) (byte : UInt8)
  | cancelWrite
  | commit (timestamp : UInt64)
  | publish (src : Option (Nat → UInt8)) (width height srcStride : UInt32)
  | heartbeat
  | setMaxPublish (intervalNs : UInt64)
  | subscribers (gen beat : UInt64) (down up : Commands.RingData)

namespace TimedPublisher

/-- The clock has been read some more times. -/
def skip (s : TimedPublisher) (readings : Nat) : TimedPublisher :=
  { s with clock := fun index => s.clock (index + readings) }

/-- `begin_write`; the clock is read only where the gate is reached and there is a cap. -/
def beginWrite (s : TimedPublisher) (width height : UInt32) : TimedPublisher × Bool :=
  let m := s.publisher.impl
  let (publisher, pointer) := s.publisher.beginWrite width height (s.clock 0)
  let reads := m.pending.isNone && width ≠ 0 && height ≠ 0 && m.minIntervalNs ≠ 0
  ({ s.skip (if reads then 1 else 0) with publisher }, pointer)

/-- `commit`; the clock is read for a missing time stamp, and then for the gate. -/
def commit (s : TimedPublisher) (timestamp : UInt64) : TimedPublisher :=
  if s.publisher.impl.pending.isNone then s
  else
    let stamped := s.skip (if timestamp = 0 then 1 else 0)
    let published := stamped.clock 0
    {
      stamped.skip 1 with
      publisher := s.publisher.commit timestamp (s.clock 0) published
      commits := published :: s.commits
    }

/-- `publish`. -/
def publish (s : TimedPublisher) (src : Option (Nat → UInt8))
    (width height srcStride : UInt32)
    : TimedPublisher × Bool :=
  match src with
  | none => (s, false)
  | some src =>
      let (begun, pointer) := s.beginWrite width height
      if pointer then
        let copies := rowCopies s.publisher.impl.cfg width height srcStride
        let publisher := copies.foldl (Publisher.copyRow src) begun.publisher
        (({ begun with publisher }).commit 0, true)
      else (begun, false)

/-- One action; all are possible at any time but a store without a pointer. -/
def step (s : TimedPublisher) (action : TimedAction) : Option TimedPublisher :=
  match action with
  | .beginWrite width height => some (s.beginWrite width height).1
  | .storeByte offset byte =>
      (s.publisher.storeByte offset byte).map fun publisher => { s with publisher }
  | .cancelWrite => some { s with publisher := s.publisher.cancelWrite }
  | .commit timestamp => some (s.commit timestamp)
  | .publish src width height srcStride => some (s.publish src width height srcStride).1
  | .heartbeat => some { s.skip 1 with publisher := s.publisher.heartbeat (s.clock 0) }
  | .setMaxPublish intervalNs =>
      let p := s.publisher
      some { s with publisher := { p with impl := { p.impl with minIntervalNs := intervalNs } } }
  | .subscribers gen beat down up =>
      (s.publisher.step (.subscribers gen beat down up)).map fun publisher =>
        { s with publisher }

/-- A publisher as `create` returns it. -/
def create (cfg : LLConfig) (session now : UInt64) (clock : Nat → UInt64) : TimedPublisher where
  publisher := .create cfg session now
  clock := clock

end TimedPublisher

/-- One publisher, one call at a time. -/
def timedMachine : Machine TimedPublisher TimedAction where
  step := TimedPublisher.step

-----------------------------------------------------------------------------------------
-- The stamps of a gate
-----------------------------------------------------------------------------------------

/-- The readings to come never go back, none of them is zero, and none is before the last
stamp.
-/
structure GateClock (clock : Nat → UInt64) (last : UInt64) : Prop where
  monotone : NeverBack clock
  positive : ∀ index, clock index ≠ 0
  last : last.toNat ≤ (clock 0).toNat

/-- Since there were only the earlier stamps, some were made a gap apart; the newest is the
one the gate compares with.
-/
structure StampedSince (gap : UInt64) (earlier stamps : List UInt64) (last : UInt64)
    (made : List UInt64)
    : Prop where
  stamps : stamps = made ++ earlier
  spread : SpreadOut gap.toNat (made.map (·.toNat))
  newest : ∀ newest ∈ made.head?, newest = last ∧ newest ≠ 0

/-- Of the stamps made since there were only the earlier ones, every window of time, both ends
included, holds at most one for each gap that fits into it, and one more.
-/
def AtMostPerGap (gap : UInt64) (earlier stamps : List UInt64) : Prop :=
  ∃ made,
    stamps = made ++ earlier
    ∧ ∀ start span,
        (inWindow start span (made.map (·.toNat))).length ≤ span / gap.toNat + 1

section Stamps

variable {clock : Nat → UInt64} {last : UInt64}

/-- A clock that was read some more times is still one. -/
theorem GateClock.skip (gate : GateClock clock last) (readings : Nat)
    : GateClock (fun index => clock (index + readings)) last where
  monotone := fun _ _ before => gate.monotone (Nat.add_le_add_right before readings)
  positive := fun index => gate.positive (index + readings)
  last := gate.last.trans (gate.monotone (Nat.zero_le _))

/-- So is one whose last reading became the stamp. -/
theorem GateClock.stamp (gate : GateClock clock last) (readings : Nat)
    : GateClock (fun index => clock (index + (readings + 1))) (clock readings) where
  monotone := (gate.skip (readings + 1)).monotone
  positive := (gate.skip (readings + 1)).positive
  last := gate.monotone (by omega)

/-- Where a gate that has a stamp lets something through, its gap is over. -/
theorem GateClock.over_ (gate : GateClock clock last) {gap : UInt64} (limited : gap ≠ 0)
    (stamped : last ≠ 0)
    (passes : ¬ (gap ≠ 0 ∧ last ≠ 0 ∧ clock 0 - last < gap))
    : last.toNat + gap.toNat ≤ (clock 0).toNat := by
  have late : ¬ clock 0 - last < gap := fun early => passes ⟨limited, stamped, early⟩
  have before := gate.last
  rw [UInt64.lt_iff_toNat_lt, UInt64.toNat_sub_of_le _ _ (UInt64.le_iff_toNat_le.mpr before)]
    at late
  omega

/-- What such a gate has let through it lets through at every later reading. -/
theorem GateClock.later_over (gate : GateClock clock last) {gap : UInt64} {first second : Nat}
    (order : first ≤ second) (passes : ¬ clock first - last < gap)
    : ¬ clock second - last < gap := by
  have from_start (index : Nat) : last ≤ clock index :=
    UInt64.le_iff_toNat_le.mpr (gate.last.trans (gate.monotone (Nat.zero_le index)))
  have onward : (clock first).toNat ≤ (clock second).toNat := gate.monotone order
  rw [UInt64.lt_iff_toNat_lt, UInt64.toNat_sub_of_le _ _ (from_start _)] at passes ⊢
  omega

/-- Before any stamp is made there are only the earlier ones. -/
theorem StampedSince.nothing (gap : UInt64) (earlier : List UInt64) (last : UInt64)
    : StampedSince gap earlier earlier last [] where
  stamps := rfl
  spread := List.Pairwise.nil
  newest := fun _ none_ => by cases none_

/-- Once the gap is over another stamp may be made. -/
theorem StampedSince.push {gap : UInt64} {earlier stamps made : List UInt64} {stamp : UInt64}
    (since : StampedSince gap earlier stamps last made) (positive : stamp ≠ 0)
    (late : made ≠ [] → last.toNat + gap.toNat ≤ stamp.toNat)
    : StampedSince gap earlier (stamp :: stamps) stamp (stamp :: made) where
  stamps := congrArg (stamp :: ·) since.stamps
  spread := by
    refine since.spread.cons fun newest first => ?_
    rw [List.head?_map] at first
    obtain ⟨found, head, rfl⟩ := Option.mem_map.mp first
    obtain ⟨rfl, -⟩ := since.newest found head
    exact late fun empty => by simp [empty] at head
  newest := fun newest first => by
    obtain rfl := Option.some.inj first
    exact ⟨rfl, positive⟩

/-- Stamps that are a gap apart do not crowd any window. -/
theorem StampedSince.atMostPerGap {gap : UInt64} {earlier stamps made : List UInt64}
    (since : StampedSince gap earlier stamps last made) (positive : gap ≠ 0)
    : AtMostPerGap gap earlier stamps :=
  ⟨made, since.stamps, since.spread.inWindow_length
    (Nat.pos_of_ne_zero fun zero => positive (UInt64.toNat_inj.mp zero))⟩

/-- Where there are stamps, there is a last one. -/
theorem StampedSince.last_ne {gap : UInt64} {earlier stamps made : List UInt64}
    (since : StampedSince gap earlier stamps last made) (some_ : made ≠ [])
    : last ≠ 0 := by
  cases made with
  | nil => exact absurd rfl some_
  | cons newest rest =>
      obtain ⟨rfl, positive⟩ := since.newest newest rfl
      exact positive

end Stamps

-----------------------------------------------------------------------------------------
-- What a step does
-----------------------------------------------------------------------------------------

/-- Copying changes the segment only. -/
theorem Publisher.copyRows_impl (src : Nat → UInt8) (copies : List RowCopy) (p : Publisher)
    : (copies.foldl (copyRow src) p).impl = p.impl := by
  induction copies generalizing p with
  | nil => rfl
  | cons copy rest ih => exact ih _

/-- Everything a step can do to what the gate depends on: leave it alone, begin a write that
the gate lets through, or commit a write that was begun before or that it lets through.
-/
inductive TimedStep (s : TimedPublisher) : TimedPublisher → Prop
  | kept {next} (readings : Nat) (clock : next.clock = (s.skip readings).clock)
    (commits : next.commits = s.commits)
    (last : next.publisher.impl.lastPublishNs = s.publisher.impl.lastPublishNs)
    (pending
      : next.publisher.impl.pending.isSome = true → s.publisher.impl.pending.isSome = true)
    : TimedStep s next
  | begun {next} (readings : Nat) (clock : next.clock = (s.skip readings).clock)
    (commits : next.commits = s.commits)
    (last : next.publisher.impl.lastPublishNs = s.publisher.impl.lastPublishNs)
    (passes : ¬ Throttles s.publisher.impl (s.clock 0))
    : TimedStep s next
  | committed {next} (readings : Nat) (clock : next.clock = (s.skip (readings + 1)).clock)
    (commits : next.commits = s.clock readings :: s.commits)
    (last : next.publisher.impl.lastPublishNs = s.clock readings)
    (pending : next.publisher.impl.pending = none)
    (passes
      : s.publisher.impl.pending.isSome = true ∨ ¬ Throttles s.publisher.impl (s.clock 0))
    : TimedStep s next

namespace TimedPublisher

/-- A `begin_write` that returns a pointer was let through by the gate. -/
theorem beginWrite_pointer {s begun : TimedPublisher} {width height : UInt32}
    (returns : s.beginWrite width height = (begun, true))
    : ¬ Throttles s.publisher.impl (s.clock 0)
      ∧ begun.publisher.impl.pending.isSome = true
      ∧ begun.publisher.impl.lastPublishNs = s.publisher.impl.lastPublishNs
      ∧ begun.commits = s.commits
      ∧ ∃ readings, begun.clock = (s.skip readings).clock := by
  have pointer : (s.publisher.beginWrite width height (s.clock 0)).2 = true :=
    congrArg Prod.snd returns
  obtain ⟨-, -, -, passes, -⟩ := Publisher.beginWrite_returns.mp pointer
  obtain ⟨-, impl, -⟩ := Publisher.beginWrite_pointer (Prod.ext rfl pointer)
  obtain rfl := congrArg Prod.fst returns
  refine ⟨passes, ?_, ?_, rfl, _, rfl⟩
  · exact congrArg (fun m : LLPublisher.Impl => m.pending.isSome) impl
  · exact congrArg (·.lastPublishNs) impl

/-- Any other leaves what the gate depends on alone. -/
theorem beginWrite_refused {s begun : TimedPublisher} {width height : UInt32}
    (returns : s.beginWrite width height = (begun, false))
    : TimedStep s begun := by
  obtain rfl := congrArg Prod.fst returns
  have refused : (s.publisher.beginWrite width height (s.clock 0)).2 = false :=
    congrArg Prod.snd returns
  have same := Publisher.beginWrite_refused (Prod.ext rfl refused)
  refine .kept _ rfl rfl ?_ ?_
  · rcases same with same | same <;> exact congrArg (·.impl.lastPublishNs) same
  · have pending
        : (s.beginWrite width height).1.publisher.impl.pending = s.publisher.impl.pending := by
      rcases same with same | same <;> exact congrArg (·.impl.pending) same
    rw [pending]
    exact id

/-- A `commit` of a pending write notes a reading of the clock. -/
theorem commit_pending {s : TimedPublisher} (pending : s.publisher.impl.pending.isSome = true)
    (timestamp : UInt64)
    : ∃ readings,
        (s.commit timestamp).clock = (s.skip (readings + 1)).clock
        ∧ (s.commit timestamp).commits = s.clock readings :: s.commits
        ∧ (s.commit timestamp).publisher.impl.lastPublishNs = s.clock readings
        ∧ (s.commit timestamp).publisher.impl.pending = none := by
  obtain ⟨index, known⟩ := Option.isSome_iff_exists.mp pending
  refine ⟨if timestamp = 0 then 1 else 0, ?_⟩
  rw [commit, if_neg (by simp [known])]
  refine ⟨?_, ?_, ?_, ?_⟩
  · funext reading
    exact congrArg s.clock (by omega)
  · exact congrArg (s.clock · :: s.commits) (Nat.zero_add _)
  · simp only [Publisher.commit, known]
    exact congrArg s.clock (Nat.zero_add _)
  · simp only [Publisher.commit, known]

/-- A `publish` that the gate lets through commits what it begins. -/
theorem publish_timed (s : TimedPublisher) (src : Option (Nat → UInt8))
    (width height srcStride : UInt32)
    : TimedStep s (s.publish src width height srcStride).1 := by
  cases src with
  | none => exact .kept 0 rfl rfl rfl id
  | some src =>
      simp only [publish]
      cases returns : s.beginWrite width height with
      | mk begun pointer =>
          cases pointer with
          | false => exact beginWrite_refused returns
          | true =>
              obtain ⟨passes, pending, -, commits, first, clock⟩ := beginWrite_pointer returns
              let copies := rowCopies s.publisher.impl.cfg width height srcStride
              let publisher := copies.foldl (Publisher.copyRow src) begun.publisher
              let copied : TimedPublisher := { begun with publisher }
              have impl : copied.publisher.impl = begun.publisher.impl :=
                Publisher.copyRows_impl src copies begun.publisher
              obtain ⟨readings, clock', commits', last, free⟩ :=
                copied.commit_pending (impl ▸ pending) 0
              have reading (index : Nat) : copied.clock index = s.clock (index + first) :=
                congrFun clock index
              refine .committed (readings + first) ?_ ?_ ?_ free (Or.inr passes)
              · change (copied.commit 0).clock = _
                rw [clock']
                funext index
                exact (reading _).trans (congrArg s.clock (by omega))
              · change (copied.commit 0).commits = _
                rw [commits', reading]
                exact congrArg _ commits
              · exact last.trans (reading _)

/-- Every step does one of the listed things. -/
theorem step_timed {s next : TimedPublisher} {action : TimedAction}
    (stepped : timedMachine.step s action = some next)
    : TimedStep s next := by
  cases action with
  | beginWrite width height =>
      obtain rfl := Option.some.inj stepped
      cases returns : s.beginWrite width height with
      | mk begun pointer =>
          cases pointer with
          | false => exact beginWrite_refused returns
          | true =>
              obtain ⟨passes, -, last, commits, readings, clock⟩ := beginWrite_pointer returns
              exact .begun readings clock commits last passes
  | storeByte offset byte =>
      obtain ⟨publisher, stored, rfl⟩ := Option.map_eq_some_iff.mp stepped
      unfold Publisher.storeByte at stored
      split at stored
      · split at stored
        · obtain rfl := Option.some.inj stored
          exact .kept 0 rfl rfl rfl id
        · cases stored
      · cases stored
  | cancelWrite =>
      obtain rfl := Option.some.inj stepped
      refine .kept 0 rfl rfl ?_ ?_ <;>
        (dsimp only [TimedPublisher.step]
         unfold Publisher.cancelWrite
         split)
      · rfl
      · rfl
      · exact id
      · intro never
        cases never
  | commit timestamp =>
      obtain rfl := Option.some.inj stepped
      cases pending : s.publisher.impl.pending.isSome with
      | false =>
          have same : s.commit timestamp = s := if_pos (by simpa using pending)
          rw [same]
          exact .kept 0 rfl rfl rfl id
      | true =>
          obtain ⟨readings, clock, commits, last, free⟩ := commit_pending pending timestamp
          exact .committed readings clock commits last free (Or.inl pending)
  | publish src width height srcStride =>
      obtain rfl := Option.some.inj stepped
      exact s.publish_timed src width height srcStride
  | heartbeat =>
      obtain rfl := Option.some.inj stepped
      exact .kept 1 rfl rfl rfl id
  | setMaxPublish intervalNs =>
      obtain rfl := Option.some.inj stepped
      exact .kept 0 rfl rfl rfl id
  | subscribers gen beat down up =>
      obtain rfl := Option.some.inj stepped
      exact .kept 0 rfl rfl rfl id

/-- A `begin_write` that reaches the gate and is refused there is counted, and nothing else
happens but the reading of the clock.
-/
theorem beginWrite_throttled {s : TimedPublisher} {width height : UInt32}
    (free : s.publisher.impl.pending = none) (columns : width ≠ 0) (rows : height ≠ 0)
    (early : Throttles s.publisher.impl (s.clock 0))
    : s.beginWrite width height
      = ({
            s.skip 1 with
            publisher := {
              s.publisher with
              impl := { s.publisher.impl with throttled := s.publisher.impl.throttled + 1 }
            }
          }, false) := by
  obtain ⟨limited, stamped, soon⟩ := early
  have refused : s.publisher.impl.admitWrite width height (s.clock 0)
      = ({ s.publisher.impl with throttled := s.publisher.impl.throttled + 1 }, false) := by
    simp [LLPublisher.Impl.admitWrite, free, columns, rows, limited, stamped, soon]
  simp [beginWrite, Publisher.beginWrite, refused, free, columns, rows, limited]

end TimedPublisher

-----------------------------------------------------------------------------------------
-- The rate of commits
-----------------------------------------------------------------------------------------

/-- Since there were only the earlier commits, they were made a gap apart; a write that is
pending after one of them was begun when the gap was over.
-/
structure CommitsApart (gap : UInt64) (earlier : List UInt64) (s : TimedPublisher)
    : Prop where
  clock : GateClock s.clock s.publisher.impl.lastPublishNs
  made
    : ∃ made,
        StampedSince gap earlier s.commits s.publisher.impl.lastPublishNs made
        ∧ (made ≠ []
          → s.publisher.impl.pending.isSome = true
          → s.publisher.impl.lastPublishNs.toNat + gap.toNat ≤ (s.clock 0).toNat)

section Steps

variable {s next : TimedPublisher}

/-- Every step keeps the clock in order. -/
theorem TimedStep.clock (step : TimedStep s next)
    (clock : GateClock s.clock s.publisher.impl.lastPublishNs)
    : GateClock next.clock next.publisher.impl.lastPublishNs := by
  cases step with
  | kept readings after _ last | begun readings after _ last =>
      rw [after, last]
      exact clock.skip readings
  | committed readings after _ last =>
      rw [after, last]
      exact clock.stamp readings

/-- Every step that finds the gap set keeps the commits apart. -/
theorem CommitsApart.step {gap : UInt64} {earlier : List UInt64}
    (apart : CommitsApart gap earlier s) (positive : gap ≠ 0)
    (interval : s.publisher.impl.minIntervalNs = gap) (step : TimedStep s next)
    : CommitsApart gap earlier next := by
  refine ⟨step.clock apart.clock, ?_⟩
  obtain ⟨made, since, settled⟩ := apart.made
  have later (readings : Nat) : (s.clock 0).toNat ≤ (s.clock readings).toNat :=
    apart.clock.monotone (Nat.zero_le readings)
  have passed (some_ : made ≠ []) (passes : ¬ Throttles s.publisher.impl (s.clock 0))
      : s.publisher.impl.lastPublishNs.toNat + gap.toNat ≤ (s.clock 0).toNat :=
    apart.clock.over_ positive (since.last_ne some_) (interval ▸ passes)
  cases step with
  | kept readings clock commits last pending =>
      rw [commits, last, clock]
      exact ⟨made, since, fun some_ before =>
        (settled some_ (pending before)).trans (later _)⟩
  | begun readings clock commits last passes =>
      rw [commits, last, clock]
      exact ⟨made, since, fun some_ _ => (passed some_ passes).trans (later _)⟩
  | committed readings clock commits last pending passes =>
      rw [commits, last]
      refine ⟨_, since.push (apart.clock.positive readings) fun some_ => ?_, fun _ still => ?_⟩
      · rcases passes with before | passes
        · exact (settled some_ before).trans (later _)
        · exact (passed some_ passes).trans (later _)
      · rw [pending] at still
        cases still

end Steps

/-- While the cap is set to a positive gap, a window of time holds at most one commit for
each gap that fits into it, and one more.
-/
theorem commits_bounded {cfg : LLConfig} {session now : UInt64} {clock : Nat → UInt64}
    (monotone : NeverBack clock) (positive : ∀ index, clock index ≠ 0)
    {before rest : List TimedAction} {middle final : TimedPublisher} {gap : UInt64}
    (gapped : gap ≠ 0)
    (reached : timedMachine.run (.create cfg session now clock) before = some middle)
    (constant
      : timedMachine.Meets (fun s _ => s.publisher.impl.minIntervalNs = gap) middle rest)
    (onward : timedMachine.run middle rest = some final)
    : AtMostPerGap gap middle.commits final.commits := by
  have clock : GateClock middle.clock middle.publisher.impl.lastPublishNs :=
    Machine.invariant_of_reached
      (fun s : TimedPublisher => GateClock s.clock s.publisher.impl.lastPublishNs)
      (fun _ _ _ known stepped => (TimedPublisher.step_timed stepped).clock known)
      ⟨monotone, positive, Nat.zero_le _⟩ reached
  have apart : CommitsApart gap middle.commits final :=
    Machine.invariant_of_run _ (CommitsApart gap middle.commits)
      (fun _ _ _ known interval stepped =>
        known.step gapped interval (TimedPublisher.step_timed stepped))
      ⟨clock, [], .nothing .., fun none_ => absurd rfl none_⟩ constant onward
  obtain ⟨made, since, -⟩ := apart.made
  exact since.atMostPerGap gapped

end ShmFrame.Calls
