import ShmFrame.Calls.Attach
import ShmFrame.Calls.Polling

/-! What the subscriber's calls do to the claim while there is one session: a claim is only
gained by attaching and never lost by its owner's own calls, and the rings stay as they are.
-/

namespace ShmFrame.Calls

open ShmFrame.Commands ShmFrame.Foundation Call

-----------------------------------------------------------------------------------------
-- Calls that only take time
-----------------------------------------------------------------------------------------

/-- Nothing but the clock moves. -/
structure Waits (s next : Subscriber) : Prop where
  impl : next.impl = s.impl
  world : next.world = s.world

instance waitsRefl : Std.Refl Waits where
  refl := fun _ => ⟨rfl, rfl⟩

instance waitsTrans : IsTrans Subscriber Waits where
  trans := fun _ _ _ first second =>
    ⟨second.impl.trans first.impl, second.world.trans first.world⟩

/-- Reading the clock takes time. -/
theorem waits_nowNs : Steady Waits Call.nowNs := fun _ => ⟨rfl, rfl⟩

/-- So does judging a claim. -/
theorem waits_genuinelyHeld (g : Nat) : Steady Waits (genuinelyHeld g) := by
  refine .bind (.load _) fun h => .ite (.pure _) ?_
  exact .bind waits_nowNs fun now => .pure _

/-- So does judging the producer. -/
theorem waits_producerResponsive : Steady Waits producerResponsive := by
  refine .bind (.load _) fun m => ?_
  split
  · refine .bind (.load _) fun h => ?_
    exact .bind waits_nowNs fun now => .pure _
  · exact .pure _

-----------------------------------------------------------------------------------------
-- One session
-----------------------------------------------------------------------------------------

/-- The token the header holds. -/
def Segment.token (segment : Segment) : UInt64 := segment.header.commandOwnerGen

/-- A subscriber is attached and holds the token that the header holds. -/
def Owns (m : LLSubscriber.Impl) (token : UInt64) : Prop :=
  m.hdr.isSome = true ∧ m.ownsCommands = true ∧ m.ownerGen = token

instance ownsDecidable (m : LLSubscriber.Impl) (token : UInt64) : Decidable (Owns m token) :=
  inferInstanceAs (Decidable (_ ∧ _ ∧ _))

/-- A subscriber that is attached at most to the one session there is. -/
structure Rooted (cfg : LLConfig) (session : UInt64) (m : LLSubscriber.Impl) : Prop where
  hdr : m.hdr = none ∨ m.hdr = some 0
  session : m.hdr = some 0 → m.session = session
  tx : m.hdr = some 0 → m.tx = cfg.upstreamRing
  rx : m.hdr = some 0 → m.rx = cfg.downstreamRing
  token : m.ownsCommands = true → m.ownerGen ≠ 0

/-- The name leads to the segment of that session, if to any. -/
structure Hosts (cfg : LLConfig) (session : UInt64) (w : World) : Prop where
  bound : w.bound = none ∨ w.bound = some 0
  announces : Announces (w.segments 0).header cfg session

/-- The parts of the private state that decide about commands are the same. -/
structure SameEnds (m next : LLSubscriber.Impl) : Prop where
  hdr : next.hdr = m.hdr
  session : next.session = m.session
  tx : next.tx = m.tx
  rx : next.rx = m.rx
  ownsCommands : next.ownsCommands = m.ownsCommands
  ownerGen : next.ownerGen = m.ownerGen

/-- A subscriber stays attached to the same session. -/
theorem SameEnds.rooted {cfg : LLConfig} {session : UInt64} {m next : LLSubscriber.Impl}
    (same : SameEnds m next) (rooted : Rooted cfg session m)
    : Rooted cfg session next where
  hdr := same.hdr ▸ rooted.hdr
  session := fun attached => same.session.trans (rooted.session (same.hdr ▸ attached))
  tx := fun attached => same.tx.trans (rooted.tx (same.hdr ▸ attached))
  rx := fun attached => same.rx.trans (rooted.rx (same.hdr ▸ attached))
  token := fun owns => by
    rw [same.ownerGen]
    exact rooted.token (same.ownsCommands ▸ owns)

/-- And it owns the channel as before. -/
theorem SameEnds.owns_iff {m next : LLSubscriber.Impl} (same : SameEnds m next)
    (token : UInt64)
    : Owns next token ↔ Owns m token := by
  rw [Owns, Owns, same.hdr, same.ownsCommands, same.ownerGen]

/-- Nothing decides about commands but the listed parts. -/
theorem SameEnds.refl (m : LLSubscriber.Impl) : SameEnds m m := ⟨rfl, rfl, rfl, rfl, rfl, rfl⟩

/-- A subscriber that is attached is attached to the segment of the session. -/
theorem Rooted.attached {cfg : LLConfig} {session : UInt64} {m : LLSubscriber.Impl}
    (rooted : Rooted cfg session m) {g : Nat} (attached : m.hdr = some g)
    : g = 0 := by
  rcases rooted.hdr with none_ | zero
  · rw [none_] at attached
    cases attached
  · exact (Option.some.inj (zero.symm.trans attached)).symm

/-- Whatever becomes of the owner words, the publisher stays announced. -/
theorem Announces.claimed {h : LLHeader} {cfg : LLConfig} {session : UInt64}
    (announces : Announces h cfg session) (gen beat : UInt64)
    : Announces { h with commandOwnerGen := gen, commandOwnerHeartbeatNs := beat } cfg session := by
  have stored :=
    congrArg
      (fun h : LLHeader => { h with commandOwnerGen := gen, commandOwnerHeartbeatNs := beat })
      announces
  exact stored

-----------------------------------------------------------------------------------------
-- What a call can do to a claim
-----------------------------------------------------------------------------------------

/-- The effect of a call on the claim. The rings stay as they are. -/
structure Outcome (cfg : LLConfig) (session : UInt64) (s next : Subscriber) : Prop where
  rooted : Rooted cfg session next.impl
  hosts : Hosts cfg session next.world
  down : (next.world.segments 0).down = (s.world.segments 0).down
  up : (next.world.segments 0).up = (s.world.segments 0).up
  stays : s.impl.hdr.isSome = true → next.impl.hdr.isSome = true
  keeps : Owns s.impl (s.world.segments 0).token → Owns next.impl (next.world.segments 0).token
  gains
    : Owns next.impl (next.world.segments 0).token
      → Owns s.impl (s.world.segments 0).token ∨ s.impl.hdr = none
  token
    : (next.world.segments 0).token = (s.world.segments 0).token
      ∨ (s.impl.hdr = none ∧ Owns next.impl (next.world.segments 0).token)

/-- In the one session there is, a call has such an effect. -/
def Course (cfg : LLConfig) (session : UInt64) (s next : Subscriber) : Prop :=
  Rooted cfg session s.impl → Hosts cfg session s.world → Outcome cfg session s next

section Course

variable {cfg : LLConfig} {session : UInt64} {s next : Subscriber}

/-- Who is not attached afterwards was not attached before. -/
theorem Outcome.detached (outcome : Outcome cfg session s next) (detached : next.impl.hdr = none)
    : s.impl.hdr = none := by
  by_contra attached
  have stayed := outcome.stays (Option.isSome_iff_ne_none.mpr attached)
  rw [detached] at stayed
  cases stayed

/-- One effect after the other. -/
theorem Outcome.trans {middle : Subscriber} (first : Outcome cfg session s middle)
    (second : Outcome cfg session middle next)
    : Outcome cfg session s next where
  rooted := second.rooted
  hosts := second.hosts
  down := second.down.trans first.down
  up := second.up.trans first.up
  stays := fun attached => second.stays (first.stays attached)
  keeps := fun owns => second.keeps (first.keeps owns)
  gains := by
    intro owns
    rcases second.gains owns with before | detached
    · exact first.gains before
    · exact .inr (first.detached detached)
  token := by
    rcases second.token with same | ⟨detached, owns⟩
    · rcases first.token with same' | ⟨detached, owns⟩
      · exact .inl (same.trans same')
      · exact .inr ⟨detached, second.keeps owns⟩
    · exact .inr ⟨first.detached detached, owns⟩

/-- What decides about commands is left alone, but for the heartbeat. -/
theorem Outcome.of_same (rooted : Rooted cfg session s.impl) (hosts : Hosts cfg session s.world)
    (ends : SameEnds s.impl next.impl) (bound : next.world.bound = s.world.bound)
    (beat : UInt64)
    (header
      : (next.world.segments 0).header
        = { (s.world.segments 0).header with commandOwnerHeartbeatNs := beat })
    (down : (next.world.segments 0).down = (s.world.segments 0).down)
    (up : (next.world.segments 0).up = (s.world.segments 0).up)
    : Outcome cfg session s next := by
  have token : (next.world.segments 0).token = (s.world.segments 0).token :=
    congrArg (·.commandOwnerGen) header
  exact {
    rooted := ends.rooted rooted
    hosts := {
      bound := bound ▸ hosts.bound
      announces := by
        rw [header]
        exact hosts.announces.claimed _ _
    }
    down := down
    up := up
    stays := fun attached => by rwa [ends.hdr]
    keeps := fun owns => by
      rw [token]
      exact (ends.owns_iff _).mpr owns
    gains := fun owns => by
      rw [token] at owns
      exact .inl ((ends.owns_iff _).mp owns)
    token := .inl token
  }

/-- Time alone does nothing to a claim. -/
theorem Waits.course (waits : Waits s next) : Course cfg session s next := by
  intro rooted hosts
  refine .of_same rooted hosts (waits.impl ▸ SameEnds.refl _) (by rw [waits.world])
    (s.world.segments 0).header.commandOwnerHeartbeatNs ?_ ?_ ?_ <;> rw [waits.world]

instance courseRefl : Std.Refl (Course cfg session) where
  refl := fun s => (Std.Refl.refl s : Waits s s).course

instance courseTrans : IsTrans Subscriber (Course cfg session) where
  trans := fun _ _ _ first second rooted hosts =>
    have before := first rooted hosts
    before.trans (second before.rooted before.hosts)

/-- Private changes that have nothing to do with commands. -/
theorem course_setImpl {m : LLSubscriber.Impl} (ends : SameEnds s.impl m)
    : Course cfg session s { s with impl := m } :=
  fun rooted hosts => .of_same rooted hosts ends rfl _ rfl rfl rfl

end Course

-----------------------------------------------------------------------------------------
-- The ownership check
-----------------------------------------------------------------------------------------

/-- Both outcomes of the ownership check. -/
inductive Checked (g : Nat) (s : Subscriber) : Bool × Subscriber → Prop
  | owner {next} (owns : s.impl.ownsCommands = true)
    (token : s.impl.ownerGen = (s.world.segments g).token)
    (refreshed
      : next = ((storeOwnerHeartbeat g (s.clock 0)).run (nowNs.run s).2).2)
    : Checked g s (true, next)
  | stranger {next}
    (lost : ¬ (s.impl.ownsCommands = true ∧ s.impl.ownerGen = (s.world.segments g).token))
    (cleared : next = { s with impl := { s.impl with ownsCommands := false } })
    : Checked g s (false, next)

/-- The check has one of them. -/
theorem stillOwnsCommands_checked (g : Nat) (s : Subscriber)
    : Checked g s ((stillOwnsCommands g).run s) := by
  rw [stillOwnsCommands, Call.run_bind, Call.run_impl, Call.run_ite]
  split
  · rename_i unowned
    have unowned : s.impl.ownsCommands = false := by simpa using unowned
    refine .stranger (fun owns => by simp [unowned] at owns) ?_
    cases s with
    | mk impl world clock =>
        cases impl
        cases unowned
        rfl
  rename_i owned
  have owned : s.impl.ownsCommands = true := by simpa using owned
  rw [Call.run_bind, Call.run_header, Call.run_ite]
  split
  · rename_i different
    exact .stranger (fun owns => different owns.2.symm) rfl
  · rename_i same
    exact .owner owned (not_not.mp same).symm rfl

section Checks

variable {cfg : LLConfig} {session : UInt64} {s : Subscriber}

/-- The check neither gains nor loses the claim. -/
theorem Checked.course {result : Bool × Subscriber}
    (checked : Checked 0 s result)
    : Course cfg session s result.2 := by
  intro rooted hosts
  cases checked with
  | owner owns token refreshed =>
      subst refreshed
      have segment := (nowNs.run s).2.world.setSegment_same 0
      refine .of_same rooted hosts (SameEnds.refl _) rfl (s.clock 0) ?_ ?_ ?_
      · exact congrArg (·.header) (segment _)
      · exact congrArg (·.down) (segment _)
      · exact congrArg (·.up) (segment _)
  | stranger lost cleared =>
      subst cleared
      have unowned : ¬ Owns s.impl (s.world.segments 0).token := fun owns => lost owns.2
      exact {
        rooted := { rooted with token := fun owns => by cases owns }
        hosts := hosts
        down := rfl
        up := rfl
        stays := id
        keeps := fun owns => absurd owns unowned
        gains := fun owns => by cases owns.2.1
        token := .inl rfl
      }

/-- A check that succeeds has found the token, which stays. -/
theorem Checked.owned {owner : Subscriber} (attached : s.impl.hdr = some 0)
    (checked : Checked 0 s (true, owner))
    : owner.impl = s.impl
      ∧ Owns s.impl (s.world.segments 0).token
      ∧ (owner.world.segments 0).token = (s.world.segments 0).token := by
  cases checked with
  | owner owns token refreshed =>
      subst refreshed
      refine ⟨rfl, ⟨by rw [attached]; rfl, owns, token⟩, ?_⟩
      exact (congrArg Segment.token ((nowNs.run s).2.world.setSegment_same 0 _)).trans rfl

/-- So `poll` may start with it. -/
theorem course_refreshClaim : Steady (Course cfg session) refreshClaim := by
  intro s rooted hosts
  rw [refreshClaim, Call.run_bind, Call.run_impl]
  cases attached : s.impl.hdr with
  | none => exact (Std.Refl.refl s : Course cfg session s s) rooted hosts
  | some g =>
      obtain rfl := rooted.attached attached
      exact (stillOwnsCommands_checked 0 s).course rooted hosts

end Checks

-----------------------------------------------------------------------------------------
-- Attaching
-----------------------------------------------------------------------------------------

/-- What the claim loop of a subscriber without a claim can do: give up, or install a token
of its own. The rings stay as they are.
-/
structure Claims (g : Nat) (s next : Subscriber) : Prop where
  down : (next.world.segments g).down = (s.world.segments g).down
  up : (next.world.segments g).up = (s.world.segments g).up
  claim
    : (next.impl.ownsCommands = false
        ∧ (next.world.segments g).token = (s.world.segments g).token)
      ∨ (next.impl.ownsCommands = true
        ∧ next.impl.ownerGen = (next.world.segments g).token
        ∧ next.impl.ownerGen ≠ 0)

/-- Giving up after some time. -/
theorem Waits.claims {g : Nat} {s next : Subscriber} (waits : Waits s next)
    (unowned : s.impl.ownsCommands = false)
    : Claims g s next := by
  refine ⟨by rw [waits.world], by rw [waits.world], .inl ⟨?_, by rw [waits.world]⟩⟩
  rw [waits.impl]
  exact unowned

/-- Waiting before the claim. -/
theorem Claims.after {g : Nat} {s middle next : Subscriber} (waits : Waits s middle)
    (claims : Claims g middle next)
    : Claims g s next := by
  refine ⟨?_, ?_, ?_⟩
  · rw [← waits.world]
    exact claims.down
  · rw [← waits.world]
    exact claims.up
  · rw [← waits.world]
    exact claims.claim

/-- The end of the claim loop. -/
def installClaim (g : Nat) (claim : UInt64) : Call Unit := do
  storeOwnerGen g claim
  setImpl { (← impl) with ownsCommands := true, ownerGen := claim }
  storeOwnerHeartbeat g (← nowNs)

/-- The segment after the claim has been installed. -/
theorem installClaim_segment (g : Nat) (claim : UInt64) (s : Subscriber)
    : ((installClaim g claim).run s).2.world.segments g
      = {
          s.world.segments g with
          header := {
            (s.world.segments g).header with
            commandOwnerGen := claim
            commandOwnerHeartbeatNs := s.clock 0
          }
        } := by
  let marked := { (s.world.segments g).header with commandOwnerGen := claim }
  let first : Segment := { s.world.segments g with header := marked }
  change (World.setSegment (s.world.setSegment g first) g _).segments g = _
  rw [World.setSegment_same]
  change
    ({
      (s.world.setSegment g first).segments g with
      header := {
        ((s.world.setSegment g first).segments g).header with
        commandOwnerHeartbeatNs := s.clock 0
      }
    } : Segment) = _
  rw [World.setSegment_same]

/-- A claim that is installed is that of its token. -/
theorem installClaim_claims (g : Nat) {claim : UInt64} (some_ : claim ≠ 0) (s : Subscriber)
    : Claims g s ((installClaim g claim).run s).2 := by
  have segment := installClaim_segment g claim s
  refine ⟨congrArg (·.down) segment, congrArg (·.up) segment, .inr ⟨rfl, ?_, some_⟩⟩
  exact (congrArg Segment.token segment).symm

/-- The loop does one of these things, by induction on the spurious failures. -/
theorem claimLoop_claims (g spurious : Nat) {s : Subscriber}
    (unowned : s.impl.ownsCommands = false)
    : Claims g s ((claimLoop g spurious).run s).2 := by
  induction spurious generalizing s with
  | zero =>
      rw [claimLoop, Call.run_bind, Call.run_ite]
      have waits := waits_genuinelyHeld g s
      split
      · exact waits.claims unowned
      have timed := waits_nowNs ((genuinelyHeld g).run s).2
      have whole : Waits s _ := IsTrans.trans _ _ _ waits timed
      refine Claims.after whole (installClaim_claims g ?_ _)
      -- A reading of zero is replaced, since zero stands for no claim.
      split
      · decide
      · assumption
  | succ spurious ih =>
      rw [claimLoop, Call.run_bind, Call.run_ite]
      have waits := waits_genuinelyHeld g s
      split
      · exact waits.claims unowned
      have timed := waits_nowNs ((genuinelyHeld g).run s).2
      have whole : Waits s _ := IsTrans.trans _ _ _ waits timed
      refine Claims.after whole (ih ?_)
      rw [whole.impl]
      exact unowned

section Attach

variable {cfg : LLConfig} {session : UInt64} {s : Subscriber}

/-- Adopting the segment of the session attaches a subscriber, with or without the claim. -/
theorem adoptAndClaim_course (cl : LLLayout) (spurious : Nat) (detached : s.impl.hdr = none)
    : Course cfg session s
        ((adoptAndClaim 0 (s.world.segments 0).header cl s.impl spurious).run s).2 := by
  intro rooted hosts
  let h := (s.world.segments 0).header
  let start : Subscriber := { s with impl := s.impl.adopt 0 h.config cl h.sessionId }
  have looped : Claims 0 start ((claimLoop 0 spurious).run start).2 :=
    claimLoop_claims 0 spurious rfl
  -- The handles that are set afterwards are not the claim's.
  have claims : Claims 0 s ((adoptAndClaim 0 h cl s.impl spurious).run s).2 :=
    ⟨looped.down, looped.up, looped.claim⟩
  change Outcome cfg session s ((adoptAndClaim 0 h cl s.impl spurious).run s).2
  obtain ⟨next, run, onward, impl⟩ := adoptAndClaim_run 0 h cl s spurious
  rw [run] at claims ⊢
  have config : h.config = { cfg with name := "x".toUTF8.toList, staleProducerMs := 2000 } :=
    congrArg LLHeader.config hosts.announces
  have hdr : next.impl.hdr = some 0 := congrArg (·.hdr) impl
  exact {
    rooted := {
      hdr := .inr hdr
      session := fun _ =>
        (congrArg (·.session) impl).trans (congrArg (·.sessionId) hosts.announces)
      tx := fun _ => (congrArg (·.tx) impl).trans (by rw [adopted, config]; rfl)
      rx := fun _ => (congrArg (·.rx) impl).trans (by rw [adopted, config]; rfl)
      token := fun owns => by
        rcases claims.claim with ⟨unowned, -⟩ | ⟨-, -, some_⟩
        · rw [unowned] at owns
          cases owns
        · exact some_
    }
    hosts := {
      bound := onward.bound ▸ hosts.bound
      announces := by
        rw [onward.header 0]
        exact hosts.announces.claimed _ _
    }
    down := claims.down
    up := claims.up
    stays := fun _ => by
      rw [hdr]
      rfl
    keeps := fun owns => by
      have attached := owns.1
      rw [detached] at attached
      cases attached
    gains := fun _ => .inr detached
    token := by
      rcases claims.claim with ⟨-, same⟩ | ⟨owns, token, -⟩
      · exact .inl same
      · exact .inr ⟨detached, by rw [hdr]; rfl, owns, token⟩
  }

/-- Whatever it finds, an attempt to connect attaches to the one session at most. -/
theorem course_tryConnect (system : Circumstances)
    : Steady (Course cfg session) (tryConnect system) := by
  intro s rooted hosts
  have same := (Std.Refl.refl s : Course cfg session s s) rooted hosts
  cases found : s.candidate system with
  | none =>
      rw [tryConnect_refused found]
      exact same
  | some candidate =>
      obtain ⟨g, cl⟩ := candidate
      have here : g = 0 := by
        unfold Subscriber.candidate at found
        rcases hosts.bound with unbound | bound
        · rw [unbound] at found
          cases found
        · rw [bound] at found
          dsimp only at found
          split at found
          · cases found
          · obtain ⟨layout, -, same⟩ := Option.map_eq_some_iff.mp found
            exact (Prod.mk.inj same).1.symm
      subst here
      rw [tryConnect_found found]
      dsimp only
      split
      · exact same
      · rename_i fresh
        refine adoptAndClaim_course cl system.spurious ?_ rooted hosts
        rcases rooted.hdr with detached | attached
        · exact detached
        · -- An attached subscriber reads this very session.
          have announced : (s.world.segments 0).header.sessionId = session :=
            congrArg (·.sessionId) hosts.announces
          simp [attached, rooted.session attached, announced] at fresh

end Attach

-----------------------------------------------------------------------------------------
-- Polling and reading
-----------------------------------------------------------------------------------------

section Reading

variable {cfg : LLConfig} {session : UInt64}

/-- `poll` attaches at most. -/
theorem course_poll (system : Circumstances) : Steady (Course cfg session) (poll system) := by
  intro s
  have start : Course cfg session s s.refreshed :=
    Steady.bind (fun s => (waits_nowNs s).course) (fun _ => course_refreshClaim) s
  rw [poll_run]
  generalize s.refreshed = middle at start
  split
  · exact start
  refine IsTrans.trans _ _ _ start ?_
  have waits := waits_producerResponsive middle
  rw [pollSlowly, Call.run_bind, Call.run_ite]
  generalize (producerResponsive.run middle).2 = judged at waits
  refine IsTrans.trans _ _ _ waits.course ?_
  split
  · exact Std.Refl.refl judged
  rw [Call.run_ite]
  split
  · exact Std.Refl.refl judged
  -- What the attempt notes in the private state has nothing to do with commands.
  rw [attemptConnect, ← waits.impl]
  refine Steady.bind_at (course_setImpl ⟨rfl, rfl, rfl, rfl, rfl, rfl⟩) fun _ => ?_
  refine .bind (course_tryConnect system) fun _ => .bind_load fun found => ?_
  refine Steady.bind_at (course_setImpl ⟨rfl, rfl, rfl, rfl, rfl, rfl⟩) fun _ => ?_
  exact fun s => (waits_producerResponsive s).course

/-- The attempts of `read_latest` have nothing to do with commands, by induction on their
number.
-/
theorem course_readAttempts (g : Nat) (dst : Buffer) (info : LLFrameInfo) (attempts : Nat)
    : Steady (Course cfg session) (readAttempts g dst info attempts) := by
  induction attempts with
  | zero => exact .pure _
  | succ attempts ih =>
      intro s
      have same : Course cfg session s s := Std.Refl.refl s
      rw [readAttempts, Call.run_bind, Call.run_impl, Call.run_bind, Call.run_header,
        Call.run_ite]
      split
      · rw [Call.run_ite]
        split
        · exact course_setImpl ⟨rfl, rfl, rfl, rfl, rfl, rfl⟩
        · exact same
      rw [Call.run_ite]
      split
      · exact same
      rw [Call.run_bind, Call.run_slot, Call.run_ite]
      split
      · exact ih s
      rw [Call.run_ite]
      split
      · exact same
      rw [Call.run_ite]
      split
      · exact same
      refine IsTrans.trans _ _ _ (waits_nowNs s).course ?_
      exact course_setImpl ⟨rfl, rfl, rfl, rfl, rfl, rfl⟩

/-- Neither has the rate gate. -/
theorem course_rateGate : Steady (Course cfg session) rateGate := by
  intro s
  rw [rateGate, Call.run_bind, Call.run_impl, Call.run_ite]
  split
  · exact Std.Refl.refl s
  · obtain ⟨lastReadNs, throttled, impl⟩ := readGate_counters s.impl (s.clock 0)
    refine IsTrans.trans _ _ _ (waits_nowNs s).course ?_
    refine course_setImpl ?_
    rw [impl]
    exact ⟨rfl, rfl, rfl, rfl, rfl, rfl⟩

/-- Neither has the cheap gate. -/
theorem course_cheapGate : Steady (Course cfg session) cheapGate := by
  intro s
  have same : Course cfg session s s := Std.Refl.refl s
  rw [cheapGate, Call.run_bind, Call.run_impl, Call.run_ite]
  split
  · exact same
  rw [Call.run_bind, Call.run_ite]
  refine IsTrans.trans _ _ _ (waits_nowNs s).course ?_
  split
  · exact course_setImpl ⟨rfl, rfl, rfl, rfl, rfl, rfl⟩
  · exact Std.Refl.refl _

/-- `read_latest` attaches at most, too. -/
theorem course_readLatest (system : Circumstances) (dst : Buffer) (info : LLFrameInfo)
    : Steady (Course cfg session) (readLatest system dst info) := by
  refine .bind (course_poll system) fun alive => .ite (.pure _) ?_
  refine .bind course_rateGate fun passes => .ite (.pure _) ?_
  refine .bind (.load _) fun m => ?_
  split
  · exact course_readAttempts _ dst info 4
  · exact .pure _

/-- So does the other overload. -/
theorem course_readLatestVector (first second : Circumstances) (dst : Buffer)
    (info : LLFrameInfo)
    : Steady (Course cfg session) (readLatestVector first second dst info) := by
  refine .bind (course_poll first) fun alive => .ite (.pure _) ?_
  refine .bind course_cheapGate fun passes => .ite (.pure _) ?_
  exact .bind (.load _) fun m => course_readLatest second _ info

/-- The calls that have nothing to do with commands. -/
inductive PlainCall
  | poll (system : Circumstances)
  | readLatest (system : Circumstances) (dst : Buffer) (info : LLFrameInfo)
  | readLatestVector (first second : Circumstances) (dst : Buffer) (info : LLFrameInfo)
  | setStaleTimeoutMs (ms : UInt32)
  | setMaxRead (intervalNs : UInt64)

/-- Makes such a call. -/
def PlainCall.perform : PlainCall → Call Unit
  | .poll system => discard (Calls.poll system)
  | .readLatest system dst info => discard (Calls.readLatest system dst info)
  | .readLatestVector first second dst info =>
      discard (Calls.readLatestVector first second dst info)
  | .setStaleTimeoutMs ms => Calls.setStaleTimeoutMs ms
  | .setMaxRead intervalNs => do setImpl { (← impl) with minReadNs := intervalNs }

/-- All of them attach at most. -/
theorem course_perform (call : PlainCall) : Steady (Course cfg session) call.perform := by
  intro s
  cases call with
  | poll system => exact course_poll system s
  | readLatest system dst info => exact course_readLatest system dst info s
  | readLatestVector first second dst info => exact course_readLatestVector first second dst info s
  | setStaleTimeoutMs ms => exact course_setImpl ⟨rfl, rfl, rfl, rfl, rfl, rfl⟩
  | setMaxRead intervalNs => exact course_setImpl ⟨rfl, rfl, rfl, rfl, rfl, rfl⟩

end Reading

end ShmFrame.Calls
