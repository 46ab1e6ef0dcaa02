import ShmFrame.Commands.Ownership

/-! Who effectively owns the command channel. Two subscribers do at once exactly when a
claim installs a token that another live subscriber still holds: tokens are clock readings,
and nothing makes them distinct.
-/

namespace ShmFrame.Commands

open ShmFrame.Foundation

/-- At most one subscriber effectively owns the channel. -/
def OwnerState.Exclusive (s : OwnerState) : Prop :=
  ∀ first second, s.Owns first → s.Owns second → first = second

/-- A destructor whose exchange succeeds clears nobody else's claim. -/
def OwnerState.ReleasesOwn (s : OwnerState) : Prop :=
  ∀ who,
    (s.claimants who).phase = .release
    → s.words.gen = (s.claimants who).impl.ownerGen
    → ∀ other, other ≠ who → ¬ s.Owns other

/-- A claim that is about to be installed carries a token no other live subscriber with
`owns_commands` holds.
-/
def DistinctToken (s : OwnerState) : OwnerAction → Prop
  | .access who false =>
      ∀ claim,
        (s.claimants who).phase = .exchange s.words.gen claim
        → ∀ other,
            other ≠ who
            → (s.claimants other).Live
            → (s.claimants other).impl.ownsCommands = true
            → (s.claimants other).impl.ownerGen ≠ claim
  | _ => True

/-- What every subscriber satisfies whatever the tokens: they are nonzero, and only calls
and destructors that found `owns_commands` set check or release the claim.
-/
structure Claimant.Sane (c : Claimant) : Prop where
  held : c.impl.ownsCommands = true → c.impl.ownerGen ≠ 0
  token : ∀ existing claim, c.phase = .exchange existing claim → claim ≠ 0
  checking : ∀ purpose, c.phase = .checkGen purpose → c.impl.ownsCommands = true
  release : c.phase = .release → c.impl.ownsCommands = true

/-- A subscriber that never attached is sane. -/
theorem Claimant.Sane.create : Claimant.Sane {} where
  held := fun owns => by simp at owns
  token := fun existing claim phase => by simp at phase
  checking := fun purpose phase => by simp at phase
  release := fun phase => by simp at phase

/-- A change of phase other than to the exchange, a check or the release keeps a subscriber sane. -/
theorem Claimant.Sane.goTo {c after : Claimant} (sane : c.Sane)
    (owns : after.impl.ownsCommands = true → c.impl.ownsCommands = true)
    (gen : after.impl.ownerGen = c.impl.ownerGen)
    (token : ∀ existing claim, after.phase ≠ .exchange existing claim)
    (checking : ∀ purpose, after.phase ≠ .checkGen purpose)
    (release : after.phase ≠ .release)
    : after.Sane where
  held := fun own => gen ▸ sane.held (owns own)
  token := fun existing claim phase => absurd phase (token existing claim)
  checking := fun purpose phase => absurd phase (checking purpose)
  release := fun phase => absurd phase release

/-- Every access keeps a subscriber sane, by cases on the move. -/
theorem Claimant.Sane.move {words next : OwnerWords} {choice : Bool} {c after : Claimant}
    (sane : c.Sane) (moved : ClaimMove words choice c next after)
    : after.Sane := by
  have looped : (c.loopTop words.gen).Sane := by
    unfold Claimant.loopTop
    split
    · exact sane.goTo id rfl (by simp) (by simp) (by simp)
    · exact sane.goTo id rfl (by simp) (by simp) (by simp)
  cases moved with
  | loadGen | lost => exact looped
  | sampleClaim phase =>
      refine ⟨sane.held, fun existing claim phase => ?_, fun _ phase => by simp at phase,
        fun phase => by simp at phase⟩
      simp only [ClaimPhase.exchange.injEq] at phase
      obtain ⟨-, rfl⟩ := phase
      split
      · decide
      · assumption
  | @claimed claim phase strong =>
      exact {
        held := fun _ => sane.token _ _ phase
        token := fun existing claim phase => by simp at phase
        checking := fun purpose phase => by simp at phase
        release := fun phase => by simp at phase
      }
  | @storeBeat purpose value phase =>
      refine sane.goTo id rfl (fun existing claim => ?_) (fun _ => ?_) ?_
      all_goals cases purpose <;> simp [Purpose.next]
  | stolen phase other =>
      exact sane.goTo (fun owns => by simp at owns) rfl (by simp) (by simp) (by simp)
  | _ => exact sane.goTo id rfl (by simp) (by simp) (by simp)

/-- Moves between calls keep a subscriber sane. -/
theorem Claimant.Sane.privately {cfg : LLConfig} {c after : Claimant} (sane : c.Sane)
    (moved : PrivateMove cfg c after)
    : after.Sane := by
  cases moved with
  | attach phase session =>
      exact sane.goTo (fun owns => by simp [LLSubscriber.Impl.adopt] at owns) rfl (by simp)
        (by simp) (by simp)
  | check phase owns purpose =>
      exact ⟨sane.held, fun _ _ phase => by simp at phase, fun _ _ => owns,
        fun phase => by simp at phase⟩
  | refused phase => exact sane
  | leave phase owns gen =>
      exact sane.goTo (fun own => owns ▸ own) gen (by simp) (by simp) (by simp)
  | release phase owns =>
      exact ⟨sane.held, fun _ _ phase => by simp at phase, fun _ phase => by simp at phase,
        fun _ => owns⟩
  | gone => exact sane.goTo id rfl (by simp) (by simp) (by simp)

/-- Every move keeps all subscribers sane. -/
theorem OwnerMove.sane {s next : OwnerState} {action : OwnerAction}
    (moved : OwnerMove s action next) (sane : ∀ who, (s.claimants who).Sane) (party : Nat)
    : (next.claimants party).Sane := by
  have replace (who : Nat) (c : Claimant) (kept : c.Sane)
      : (assign s.claimants who c party).Sane :=
    @forall_assign _ _ _ s.claimants who c (fun _ c => c.Sane) kept
      (fun other _ => sane other) party
  cases moved with
  | privately apart moved => exact replace _ _ ((sane _).privately moved)
  | access moved => exact replace _ _ ((sane _).move moved)
  | _ => exact sane party

/-- A move that installs no claim makes nobody an owner. -/
theorem OwnerMove.owns_before {s next : OwnerState} {action : OwnerAction}
    (moved : OwnerMove s action next) (sane : ∀ who, (s.claimants who).Sane)
    (noClaim
      : ∀ who claim,
          action = .access who false
          → (s.claimants who).phase ≠ .exchange s.words.gen claim)
    {party : Nat} (owns : next.Owns party)
    : s.Owns party := by
  -- A subscriber other than the one that moved owns what it owned.
  have others {who : Nat} {c : Claimant} {gen : UInt64}
      (live : (assign s.claimants who c party).Live)
      (own : (assign s.claimants who c party).impl.ownsCommands = true)
      (same : gen = (assign s.claimants who c party).impl.ownerGen)
      (here
        : c.Live → c.impl.ownsCommands = true → gen = c.impl.ownerGen
          → (s.claimants who).Live ∧ (s.claimants who).impl.ownsCommands = true
            ∧ s.words.gen = (s.claimants who).impl.ownerGen)
      (gen_eq : gen = s.words.gen ∨ gen = 0)
      : s.Owns party := by
    by_cases mover : party = who
    · subst mover
      rw [assign_same] at live own same
      exact here live own same
    · rw [assign_apart _ _ mover] at live own same
      refine ⟨live, own, ?_⟩
      rcases gen_eq with kept | zero
      · exact kept ▸ same
      · exact absurd (same.symm.trans zero) ((sane party).held own)
  obtain ⟨live, own, same⟩ := owns
  cases moved with
  | tick | judge | judgeAccess => exact ⟨live, own, same⟩
  | @privately _ who c apart moved =>
      refine others live own same (fun live own same => ?_) (Or.inl rfl)
      cases moved with
      | attach phase session => simp [LLSubscriber.Impl.adopt] at own
      | gone => exact absurd rfl live
      | check phase | release phase => exact ⟨by simp [Claimant.Live, phase], own, same⟩
      | leave phase owns gen =>
          exact ⟨by simp [Claimant.Live, phase], owns ▸ own, same.trans gen⟩
      | refused phase => exact ⟨live, own, same⟩
  | @access who choice words c moved =>
      cases moved with
      | claimed phase strong => exact absurd phase (noClaim who _ (by rw [strong]))
      | stolen phase other =>
          refine others live own same (fun live own same => ?_) (Or.inl rfl)
          simp at own
      | release phase =>
          refine others live own same (fun live => absurd rfl live) ?_
          dsimp only
          split
          · exact Or.inr rfl
          · exact Or.inl rfl
      | @loadGen phase | @lost existing claim phase | firstRead phase | held phase
      | stale phase | sampleClaim phase | sampleBeat phase | storeBeat phase
      | confirmed phase =>
          exact others live own same
            (fun _ own same => ⟨by simp [Claimant.Live, phase], own, same⟩) (Or.inl rfl)

/-- What a successful claim leaves behind: its token and an owner. -/
theorem OwnerMove.claimed {s next : OwnerState} {who : Nat} {claim : UInt64}
    (moved : OwnerMove s (.access who false) next)
    (phase : (s.claimants who).phase = .exchange s.words.gen claim)
    : next.words.gen = claim
      ∧ next.Owns who
      ∧ ∀ other, other ≠ who → next.claimants other = s.claimants other := by
  cases moved with
  | privately apart moved => exact absurd rfl (apart who false)
  | access moved =>
      cases moved with
      | @claimed token loaded strong =>
          obtain ⟨-, rfl⟩ := ClaimPhase.exchange.inj (phase.symm.trans loaded)
          refine ⟨rfl, ?_, fun other apart => assign_apart _ _ apart⟩
          simp [OwnerState.Owns, Claimant.Live]
      | lost loaded failed =>
          obtain ⟨rfl, -⟩ := ClaimPhase.exchange.inj (phase.symm.trans loaded)
          exact absurd ⟨rfl, rfl⟩ failed
      | loadGen loaded | firstRead loaded | held loaded | stale loaded | sampleClaim loaded
      | sampleBeat loaded | storeBeat loaded | stolen loaded | confirmed loaded
      | release loaded =>
          simp [phase] at loaded

/-- In a state with sane subscribers, exclusive ownership keeps destructors harmless. -/
theorem OwnerState.Exclusive.releasesOwn {s : OwnerState} (exclusive : s.Exclusive)
    (sane : ∀ who, (s.claimants who).Sane)
    : s.ReleasesOwn := by
  intro who phase own other apart owns
  have live : (s.claimants who).Live := by simp [Claimant.Live, phase]
  exact apart (exclusive other who owns ⟨live, (sane who).release phase, own⟩)

/-- From an exclusive state, a move leads to an exclusive one exactly when a token it
installs is held by no other live subscriber.
-/
theorem OwnerMove.exclusive_iff {s next : OwnerState} {action : OwnerAction}
    (moved : OwnerMove s action next) (sane : ∀ who, (s.claimants who).Sane)
    (exclusive : s.Exclusive)
    : next.Exclusive ↔ DistinctToken s action := by
  by_cases claims
      : ∃ who claim,
          action = .access who false
          ∧ (s.claimants who).phase = .exchange s.words.gen claim
  · obtain ⟨who, claim, rfl, phase⟩ := claims
    obtain ⟨token, owner, others⟩ := moved.claimed phase
    constructor
    · intro alone installed loaded other apart live owns same
      obtain ⟨-, rfl⟩ := ClaimPhase.exchange.inj (phase.symm.trans loaded)
      refine apart (alone other who ⟨?_, ?_, ?_⟩ owner)
      · rw [others other apart]
        exact live
      · rw [others other apart]
        exact owns
      · rw [others other apart, token, same]
    · intro distinct
      have only (party : Nat) (owns : next.Owns party) : party = who := by
        by_contra apart
        obtain ⟨live, own, same⟩ := owns
        rw [others party apart] at live own same
        exact distinct claim phase party apart live own (same.symm.trans token)
      intro first second one two
      exact (only first one).trans (only second two).symm
  · have noClaim
        : ∀ who claim,
            action = .access who false
            → (s.claimants who).phase ≠ .exchange s.words.gen claim :=
      fun who claim isAccess phase => claims ⟨who, claim, isAccess, phase⟩
    refine ⟨fun _ => ?_, fun _ first second one two => ?_⟩
    · cases action with
      | access who choice =>
          cases choice with
          | true => trivial
          | false => exact fun claim phase => absurd phase (noClaim who claim rfl)
      | _ => trivial
    · exact exclusive first second (moved.owns_before sane noClaim one)
        (moved.owns_before sane noClaim two)

/-- In every run at most one live subscriber effectively owns the channel, and destructors
clear nobody else's claim, all along the run if and only if no claim installs a token that
another live subscriber with `owns_commands` still holds.
-/
theorem commandOwner_exclusive_iff (cfg : LLConfig) (now : UInt64)
    (schedule : List OwnerAction)
    : ownerMachine.Along (fun s => s.Exclusive ∧ s.ReleasesOwn) (OwnerState.create cfg now)
        schedule
      ↔ ownerMachine.Meets DistinctToken (OwnerState.create cfg now) schedule := by
  have nobody : (OwnerState.create cfg now).Exclusive := by
    intro first second owns
    simp [OwnerState.create, OwnerState.Owns] at owns
  have sane_step {s next : OwnerState} {action : OwnerAction}
      (sane : ∀ who, (s.claimants who).Sane) (stepped : s.step action = some next)
      : ∀ who, (next.claimants who).Sane := by
    obtain ⟨moved, moveEq, rfl⟩ := Option.map_eq_some_iff.mp stepped
    exact (OwnerState.move_cases moveEq).sane sane
  refine Machine.along_iff_meets DistinctToken (fun s => ∀ who, (s.claimants who).Sane) _
    (fun s action next sane stepped => sane_step sane stepped) ?_ ?_
    (fun _ => .create) ⟨nobody, nobody.releasesOwn fun _ => .create⟩
  · intro s action next sane ⟨exclusive, _⟩ stepped
    have saneNext := sane_step sane stepped
    obtain ⟨moved, moveEq, rfl⟩ := Option.map_eq_some_iff.mp stepped
    rw [← (OwnerState.move_cases moveEq).exclusive_iff sane exclusive]
    exact ⟨And.left, fun kept =>
      ⟨kept, @OwnerState.Exclusive.releasesOwn _ kept saneNext⟩⟩
  · intro s action sane stuck
    cases action with
    | access who choice =>
        cases choice with
        | true => trivial
        | false =>
            intro claim phase
            simp [ownerMachine, OwnerState.step, OwnerState.move, Claimant.access, phase]
              at stuck
    | _ => trivial

/-- Subscriber 0 claims a fresh session and has not stored its heartbeat yet; subscriber 1
finds a claim whose heartbeat is still zero and steals it at the same clock reading.
-/
def equalTokens : List OwnerAction :=
  [.attach 0 77, .access 0 false, .access 0 false, .access 0 false]
  ++ [.attach 1 77, .access 1 false, .access 1 true, .access 1 false, .access 1 false,
    .access 1 false]

/-- Both subscribers effectively own the channel at once. -/
theorem commandOwner_twice
    : ∃ s,
        ownerMachine.run (OwnerState.create {} 9000000000) equalTokens = some s
        ∧ s.Owns 0
        ∧ s.Owns 1
        ∧ ¬ s.Exclusive := by
  have passes
      : (ownerMachine.run (OwnerState.create {} 9000000000) equalTokens).any
          (fun s => s.Owns 0 ∧ s.Owns 1)
        = true := by
    decide +kernel
  obtain ⟨s, reached, tested⟩ := Machine.reaches_of_any passes
  rw [decide_eq_true_eq] at tested
  obtain ⟨first, second⟩ := tested
  exact ⟨s, reached, first, second, fun exclusive => absurd (exclusive 0 1 first second)
    (by decide)⟩

end ShmFrame.Commands
