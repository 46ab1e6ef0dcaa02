import ShmFrame.Commands.Ownership

/-! When the age of a claim is what it seems. A judge compares a clock reading with the
heartbeat word, and that word says when the owner last acted only if the owner stored it
under the claim in force, not too long after the reading it holds, and not during the
evaluation.
-/

namespace ShmFrame.Commands

open ShmFrame.Foundation

/-- At some moment of the evaluation `claim` was in force and its owner had neither
installed nor refreshed it for `kCommandOwnerStaleNs`.
-/
def Judgement.Justifies (judgement : Judgement) (claim : Nat) : Prop :=
  ∃ moment ∈ judgement.evaluated,
    moment.claims = claim
    ∧ moment.lastAct.toNat + kCommandOwnerStaleNs.toNat ≤ moment.clock.toNat

/-- The heartbeat word was stored by the owner of the claim in force, under that claim, and a
stale time before a clock reading. What counts is when it was stored: it may hold an older
reading, as the store comes some time after that.
-/
def OwnerWords.Attested (words : OwnerWords) (reading : UInt64) : Prop :=
  words.beatClaim = words.claims
  ∧ words.beatAt.toNat + kCommandOwnerStaleNs.toNat ≤ reading.toNat

/-- Where the clock reading and the heartbeat word that a judge compares are a stale time
apart, the word that is there at the second read is attested at that reading of the clock.
-/
def AgeReading.Sound (words : OwnerWords) : AgeReading → Prop
  | .unread => True
  | .clock now => kCommandOwnerStaleNs ≤ now - words.beat → words.Attested now
  | .beat value => kCommandOwnerStaleNs ≤ words.clock - value → words.Attested words.clock

/-- A subscriber's age evaluation is sound, and a claim that replaces another one replaces
the claim that was judged.
-/
def ClaimPhase.Sound (words : OwnerWords) (judgement : Judgement) (choice : Bool)
    : ClaimPhase → Prop
  | .age _ reading => reading.Sound words
  | .exchange existing _ =>
      choice = false
      → words.gen = existing
      → existing ≠ 0
      → judgement.claim = words.claims
  | _ => True

/-- The publisher's age evaluation is sound. -/
def JudgePhase.Sound (words : OwnerWords) : JudgePhase → Prop
  | .age reading => reading.Sound words
  | _ => True

/-- Whoever moves next judges soundly. -/
def SoundlyJudged (s : OwnerState) : OwnerAction → Prop
  | .access who choice =>
      (s.claimants who).phase.Sound s.words (s.claimants who).judgement choice
  | .judgeAccess _ => s.judge.phase.Sound s.words
  | _ => True

instance (words : OwnerWords) (reading : UInt64) : Decidable (words.Attested reading) :=
  inferInstanceAs (Decidable (_ ∧ _))

instance (words : OwnerWords) : DecidablePred (AgeReading.Sound words)
  | .unread => isTrue trivial
  | .clock _ | .beat _ => inferInstanceAs (Decidable (_ → OwnerWords.Attested _ _))

instance (words : OwnerWords) (judgement : Judgement) (choice : Bool)
    : DecidablePred (ClaimPhase.Sound words judgement choice)
  | .age _ reading => inferInstanceAs (Decidable (reading.Sound words))
  | .exchange .. => inferInstanceAs (Decidable (_ → _ → _ → _))
  | .detached | .loadGen | .sampleClaim _ | .sampleBeat _ | .storeBeat .. | .ready
  | .checkGen _ | .inside _ | .release | .gone => isTrue trivial

instance (words : OwnerWords) : DecidablePred (JudgePhase.Sound words)
  | .age reading => inferInstanceAs (Decidable (reading.Sound words))
  | .idle | .loadGen => isTrue trivial

instance (s : OwnerState) : DecidablePred (SoundlyJudged s)
  | .access who choice =>
      inferInstanceAs (Decidable ((s.claimants who).phase.Sound _ _ choice))
  | .judgeAccess _ => inferInstanceAs (Decidable (s.judge.phase.Sound _))
  | .tick _ | .attach .. | .call .. | .leave _ | .close _ | .crash _ | .judge => isTrue trivial

-----------------------------------------------------------------------------------------
-- The words over time
-----------------------------------------------------------------------------------------

/-- The history variables of the words agree with each other. -/
structure WordsInv (words : OwnerWords) : Prop where
  acted : words.lastAct ≤ words.clock
  owner : words.beatClaim = words.claims → words.lastAct = words.beatAt
  older : words.beatClaim ≤ words.claims
  present : words.moments.head? = some words.moment

/-- How the words may move while an evaluation is going on: a heartbeat of the claim in
force that is older than the present was there before.
-/
structure WordsStep (before after : OwnerWords) : Prop where
  clock : before.clock ≤ after.clock
  claims : before.claims ≤ after.claims
  moments : after.moments = before.moments
  keeps
    : after.beatClaim = after.claims
      → after.beatAt < before.clock
      → before.beatClaim = before.claims
        ∧ after.claims = before.claims
        ∧ after.beatAt = before.beatAt

/-- Words that stay as they are. -/
theorem WordsStep.refl (words : OwnerWords) : WordsStep words words :=
  ⟨UInt64.le_refl _, Nat.le_refl _, rfl, fun owned _ => ⟨owned, rfl, rfl⟩⟩

/-- What a judge knows between its two reads. With the clock read first, some moment of the
evaluation is that of the reading, and a heartbeat of the claim in force that is older than
the reading was already the owner's last act then.
-/
def AgeReading.Knows (words : OwnerWords) (judgement : Judgement) : AgeReading → Prop
  | .unread => True
  | .clock now =>
      judgement.since ≤ words.moments.length
      ∧ now ≤ words.clock
      ∧ ∃ moment ∈ judgement.window words,
          moment.clock = now
          ∧ (words.beatClaim = words.claims
              → words.beatAt < now
              → moment.claims = words.claims ∧ moment.lastAct = words.beatAt)
  | .beat _ => judgement.since ≤ words.moments.length

/-- The window of an evaluation only grows. -/
theorem Judgement.window_record {judgement : Judgement} {before after : OwnerWords}
    (same : after.moments = before.moments)
    (started : judgement.since ≤ before.moments.length) {moment : Moment}
    (member : moment ∈ judgement.window before)
    : moment ∈ judgement.window after.record := by
  have one_more : before.moments.length + 1 + 1 - judgement.since
      = before.moments.length + 1 - judgement.since + 1 := by omega
  rw [Judgement.window, OwnerWords.record]
  dsimp only
  rw [same, List.length_cons, one_more, List.take_succ_cons]
  exact List.mem_cons_of_mem _ member

/-- The present moment belongs to every evaluation that has started. -/
theorem WordsInv.mem_window {words : OwnerWords} (inv : WordsInv words)
    {judgement : Judgement} (started : judgement.since ≤ words.moments.length)
    : words.moment ∈ judgement.window words := by
  have present := inv.present
  rw [Judgement.window]
  cases history : words.moments with
  | nil => simp [history] at present
  | cons head older =>
      rw [history] at present started
      obtain rfl := Option.some.inj present
      have some : (words.moment :: older).length + 1 - judgement.since
          = (words.moment :: older).length - judgement.since + 1 := by omega
      rw [some, List.take_succ_cons]
      exact List.mem_cons_self

/-- A judge's knowledge survives every move of the words. -/
theorem AgeReading.Knows.step {before after : OwnerWords} {judgement : Judgement}
    {reading : AgeReading} (knows : reading.Knows before judgement)
    (step : WordsStep before after)
    : reading.Knows after.record judgement := by
  cases reading with
  | unread => trivial
  | beat value =>
      change judgement.since ≤ (_ :: after.moments).length
      rw [step.moments]
      exact Nat.le_succ_of_le knows
  | clock now =>
      obtain ⟨started, past, moment, member, sampled, agrees⟩ := knows
      refine ⟨?_, UInt64.le_trans past step.clock, moment,
        Judgement.window_record step.moments started member, sampled, ?_⟩
      · change judgement.since ≤ (_ :: after.moments).length
        rw [step.moments]
        exact Nat.le_succ_of_le started
      · intro owned early
        obtain ⟨ownedBefore, sameClaim, sameAt⟩ :=
          step.keeps owned (UInt64.lt_of_lt_of_le early past)
        obtain ⟨claim, act⟩ := agrees ownedBefore (by
          rw [← sameAt]
          exact early)
        exact ⟨claim.trans sameClaim.symm, act.trans sameAt.symm⟩

/-- The first read of an evaluation. -/
theorem AgeReading.read_knows {words : OwnerWords} {judgement : Judgement}
    {reading next : AgeReading} {beatFirst : Bool} (inv : WordsInv words)
    (reads : reading.read words beatFirst = .inl next)
    : next.Knows words (judgement.start words) := by
  cases reading with
  | clock now => simp [AgeReading.read] at reads
  | beat value => simp [AgeReading.read] at reads
  | unread =>
      have started : (judgement.start words).since ≤ words.moments.length := Nat.le_refl _
      cases beatFirst with
      | true =>
          obtain rfl := Sum.inl.inj reads
          exact started
      | false =>
          obtain rfl := Sum.inl.inj reads
          exact ⟨started, UInt64.le_refl _, words.moment, inv.mem_window started, rfl,
            fun owned _ => ⟨rfl, inv.owner owned⟩⟩

/-- A sound evaluation that comes out stale is justified. -/
theorem AgeReading.read_justifies {words : OwnerWords} {judgement : Judgement}
    {reading : AgeReading} {beatFirst : Bool} {age : UInt64} (inv : WordsInv words)
    (knows : reading.Knows words judgement) (sound : reading.Sound words)
    (reads : reading.read words beatFirst = .inr age)
    (stale : ¬ age < kCommandOwnerStaleNs)
    : (judgement.finish words).Justifies words.claims := by
  have old : kCommandOwnerStaleNs ≤ age := UInt64.not_lt.mp stale
  cases reading with
  | unread => simp [AgeReading.read] at reads
  | clock now =>
      obtain rfl := Sum.inr.inj reads
      obtain ⟨started, past, moment, member, sampled, agrees⟩ := knows
      obtain ⟨owned, apart⟩ := sound old
      have positive : 0 < kCommandOwnerStaleNs.toNat := by decide
      have early : words.beatAt < now := by
        rw [UInt64.lt_iff_toNat_lt]
        omega
      obtain ⟨claim, act⟩ := agrees owned early
      refine ⟨moment, member, claim, ?_⟩
      rw [act, sampled]
      exact apart
  | beat value =>
      obtain rfl := Sum.inr.inj reads
      obtain ⟨owned, apart⟩ := sound old
      refine ⟨words.moment, inv.mem_window knows, rfl, ?_⟩
      change words.lastAct.toNat + _ ≤ words.clock.toNat
      rw [inv.owner owned]
      exact apart

/-- Remembering the present moment restores the invariant after a move of the words. -/
theorem WordsInv.record {words : OwnerWords} (acted : words.lastAct ≤ words.clock)
    (owner : words.beatClaim = words.claims → words.lastAct = words.beatAt)
    (older : words.beatClaim ≤ words.claims)
    : WordsInv words.record where
  acted := acted
  owner := owner
  older := older
  present := rfl

/-- An access of a subscriber keeps the invariant of the words and what judges know. -/
theorem WordsInv.move {words next : OwnerWords} {choice : Bool} {c after : Claimant}
    (inv : WordsInv words) (bounded : c.claim ≤ words.claims)
    (moved : ClaimMove words choice c next after)
    : WordsInv next.record ∧ WordsStep words next := by
  have unmoved := And.intro
    (WordsInv.record inv.acted inv.owner inv.older) (WordsStep.refl words)
  cases moved with
  | claimed phase strong =>
      have older := inv.older
      refine ⟨.record (UInt64.le_refl _) (fun owned => ?_) (Nat.le_succ_of_le older),
        ⟨UInt64.le_refl _, Nat.le_succ _, rfl, fun owned => ?_⟩⟩
      · change words.beatClaim = words.claims + 1 at owned
        omega
      · change words.beatClaim = words.claims + 1 at owned
        omega
  | storeBeat phase =>
      refine ⟨.record ?_ (fun owned => if_pos owned) bounded,
        ⟨UInt64.le_refl _, Nat.le_refl _, rfl, fun _ early => ?_⟩⟩
      · dsimp only
        split
        · exact UInt64.le_refl _
        · exact inv.acted
      · exact absurd early (UInt64.lt_irrefl _)
  | release phase =>
      exact ⟨.record inv.acted inv.owner inv.older,
        ⟨UInt64.le_refl _, Nat.le_refl _, rfl, fun owned _ => ⟨owned, rfl, rfl⟩⟩⟩
  | _ => exact unmoved

-----------------------------------------------------------------------------------------
-- Judges over time
-----------------------------------------------------------------------------------------

/-- The claim loop has not been left yet. -/
def ClaimPhase.claiming : ClaimPhase → Bool
  | .detached | .loadGen | .age .. | .sampleClaim _ | .exchange .. => true
  | _ => false

/-- The existing claim that a loop has judged stale and is about to replace. -/
def ClaimPhase.replacing : ClaimPhase → UInt64
  | .sampleClaim existing => existing
  | .exchange existing _ => existing
  | _ => 0

/-- What a subscriber's evaluations say. -/
structure ClaimantAge (words : OwnerWords) (c : Claimant) : Prop where
  bounded : c.claim ≤ words.claims
  fresh : c.phase.claiming = true → c.replaced = none
  knows : ∀ existing reading, c.phase = .age existing reading → reading.Knows words c.judgement
  judged : c.phase.replacing ≠ 0 → c.judgement.Justifies c.judgement.claim
  replaced : ∀ claim, c.replaced = some claim → c.judgement.Justifies claim

/-- A subscriber that never attached has judged nothing. -/
theorem ClaimantAge.create (words : OwnerWords) : ClaimantAge words {} where
  bounded := Nat.zero_le _
  fresh := fun _ => rfl
  knows := fun existing reading phase => by simp at phase
  judged := fun nonzero => absurd rfl nonzero
  replaced := fun claim replaced => by simp at replaced

/-- What a subscriber's evaluations say survives the moves of others. -/
theorem ClaimantAge.step {before after : OwnerWords} {c : Claimant}
    (age : ClaimantAge before c) (step : WordsStep before after)
    : ClaimantAge after.record c :=
  {
    age with
    bounded := age.bounded.trans step.claims
    knows := fun existing reading phase => (age.knows existing reading phase).step step
  }

/-- A subscriber that neither evaluates nor replaces keeps what it has. -/
theorem ClaimantAge.goTo {words : OwnerWords} {c after : Claimant}
    (age : ClaimantAge words c) (claim : after.claim = c.claim)
    (replaced : after.replaced = c.replaced) (judgement : after.judgement = c.judgement)
    (claiming : after.phase.claiming = true → c.phase.claiming = true)
    (noAge : ∀ existing reading, after.phase ≠ .age existing reading)
    (noReplacing : after.phase.replacing = 0)
    : ClaimantAge words after where
  bounded := claim ▸ age.bounded
  fresh := fun phase => replaced ▸ age.fresh (claiming phase)
  knows := fun existing reading phase => absurd phase (noAge existing reading)
  judged := fun nonzero => absurd noReplacing nonzero
  replaced := by
    rw [replaced, judgement]
    exact age.replaced

/-- The top of the claim loop starts an evaluation or none. -/
theorem ClaimantAge.loopTop {words : OwnerWords} {c : Claimant} (age : ClaimantAge words c)
    (claiming : c.phase.claiming = true) (existing : UInt64)
    : ClaimantAge words (c.loopTop existing) := by
  unfold Claimant.loopTop
  split
  · refine { age with
      fresh := fun _ => age.fresh claiming
      knows := fun other reading phase => ?_
      judged := fun nonzero => absurd rfl nonzero }
    obtain ⟨-, rfl⟩ := ClaimPhase.age.inj phase
    trivial
  · rename_i zero
    have none : existing = 0 := by simpa using zero
    exact {
      age with
      fresh := fun _ => age.fresh claiming
      knows := fun other reading phase => by simp at phase
      judged := fun nonzero => absurd none nonzero
    }

/-- Every sound access of a subscriber keeps what its evaluations say, by cases on the move.
-/
theorem ClaimantAge.move {words next : OwnerWords} {choice : Bool} {c after : Claimant}
    (age : ClaimantAge words c) (inv : WordsInv words)
    (sound : c.phase.Sound words c.judgement choice)
    (moved : ClaimMove words choice c next after)
    : ClaimantAge next.record after := by
  obtain ⟨-, step⟩ := inv.move age.bounded moved
  have onward {after : Claimant} (kept : ClaimantAge words after)
      : ClaimantAge words.record after :=
    kept.step (WordsStep.refl words)
  cases moved with
  | loadGen phase => exact onward (age.loopTop (by rw [phase]; rfl) _)
  | lost phase failed => exact onward (age.loopTop (by rw [phase]; rfl) _)
  | firstRead phase reads =>
      have fresh := age.fresh (by rw [phase]; rfl)
      refine onward {
        bounded := age.bounded
        fresh := fun _ => fresh
        knows := fun existing reading phase => ?_
        judged := fun nonzero => absurd rfl nonzero
        replaced := fun claim replaced => by simp [fresh] at replaced }
      obtain ⟨-, rfl⟩ := ClaimPhase.age.inj phase
      exact AgeReading.read_knows inv reads
  | held phase reads =>
      have fresh := age.fresh (by rw [phase]; rfl)
      exact onward {
        bounded := age.bounded
        fresh := fun claiming => by simp [ClaimPhase.claiming] at claiming
        knows := fun existing reading phase => by simp at phase
        judged := fun nonzero => absurd rfl nonzero
        replaced := fun claim replaced => by simp [fresh] at replaced
      }
  | stale phase reads stale =>
      have fresh := age.fresh (by rw [phase]; rfl)
      have justified := AgeReading.read_justifies inv (age.knows _ _ phase)
        (by rwa [phase] at sound) reads stale
      exact onward {
        bounded := age.bounded
        fresh := fun _ => fresh
        knows := fun existing reading phase => by simp at phase
        judged := fun _ => justified
        replaced := fun claim replaced => by simp [fresh] at replaced
      }
  | @sampleClaim existing phase =>
      have judged := age.judged
      rw [phase] at judged
      exact onward {
        age with
        fresh := fun _ => age.fresh (by rw [phase]; rfl)
        knows := fun existing reading phase => by simp at phase
        judged := judged
      }
  | @claimed claim phase strong =>
      have fresh := age.fresh (by rw [phase]; rfl)
      have judged := age.judged
      rw [phase] at judged
      refine {
        bounded := Nat.le_refl _
        fresh := fun claiming => by simp [ClaimPhase.claiming] at claiming
        knows := fun existing reading phase => by simp at phase
        judged := fun nonzero => absurd rfl nonzero
        replaced := fun number replaced => ?_ }
      dsimp only at replaced
      split at replaced
      · rename_i nonzero
        obtain rfl := Option.some.inj replaced
        rw [phase] at sound
        rw [← sound strong rfl nonzero]
        exact judged nonzero
      · simp [fresh] at replaced
  | sampleBeat phase =>
      exact onward (age.goTo rfl rfl rfl (by simp [ClaimPhase.claiming]) (by simp) rfl)
  | @storeBeat purpose value phase =>
      have kept : ClaimantAge words { c with phase := purpose.next } := by
        refine age.goTo rfl rfl rfl ?_ ?_ ?_
        · cases purpose <;> simp [Purpose.next, ClaimPhase.claiming]
        · cases purpose <;> simp [Purpose.next]
        · cases purpose <;> rfl
      exact kept.step step
  | stolen phase other =>
      exact onward (age.goTo rfl rfl rfl (by simp [ClaimPhase.claiming]) (by simp) rfl)
  | confirmed phase own =>
      exact onward (age.goTo rfl rfl rfl (by simp [ClaimPhase.claiming]) (by simp) rfl)
  | release phase =>
      have kept : ClaimantAge words { c with phase := .gone } :=
        age.goTo rfl rfl rfl (by simp [ClaimPhase.claiming]) (by simp) rfl
      exact kept.step step

/-- Moves between calls judge nothing. -/
theorem ClaimantAge.privately {words : OwnerWords} {cfg : LLConfig} {c after : Claimant}
    (age : ClaimantAge words c) (moved : PrivateMove cfg c after)
    : ClaimantAge words after := by
  cases moved with
  | refused phase => exact age
  | attach phase session =>
      exact age.goTo rfl rfl rfl (fun _ => by rw [phase]; rfl) (by simp) rfl
  | _ => exact age.goTo rfl rfl rfl (by simp [ClaimPhase.claiming]) (by simp) rfl

/-- What the publisher's evaluations say. -/
structure JudgeAge (words : OwnerWords) (j : Judge) : Prop where
  knows : ∀ reading, j.phase = .age reading → reading.Knows words j.judgement
  reported : ∀ claim, j.reported = some claim → j.judgement.Justifies claim

/-- What the publisher's evaluations say survives the moves of others. -/
theorem JudgeAge.step {before after : OwnerWords} {j : Judge} (age : JudgeAge before j)
    (step : WordsStep before after)
    : JudgeAge after.record j :=
  { age with knows := fun reading phase => (age.knows reading phase).step step }

/-- Every sound access of `command_owner_stale` keeps what its evaluations say. -/
theorem JudgeAge.access {words : OwnerWords} {j next : Judge} {beatFirst : Bool}
    (age : JudgeAge words j) (inv : WordsInv words)
    (sound : j.phase.Sound words)
    (stepped : j.access words beatFirst = some next)
    : JudgeAge words next := by
  unfold Judge.access at stepped
  split at stepped
  · cases stepped
  · split at stepped
    · cases stepped
      exact ⟨fun reading phase => by simp at phase, age.reported⟩
    · cases stepped
      refine ⟨fun reading phase => ?_, age.reported⟩
      obtain rfl := JudgePhase.age.inj phase
      trivial
  · rename_i reading phase
    split at stepped
    · rename_i next reads
      cases stepped
      refine ⟨fun other phase => ?_, fun claim reported => ?_⟩
      · obtain rfl := JudgePhase.age.inj phase
        exact AgeReading.read_knows inv reads
      · exact age.reported claim reported
    · rename_i value reads
      cases stepped
      refine ⟨fun reading phase => by simp at phase, fun claim reported => ?_⟩
      dsimp only at reported
      split at reported
      · rename_i stale
        obtain rfl := Option.some.inj reported
        simp only [Bool.and_eq_true, decide_eq_true_eq] at stale
        rw [phase] at sound
        exact AgeReading.read_justifies inv (age.knows _ phase) sound reads
          (UInt64.not_lt.mpr stale.1)
      · cases reported

-----------------------------------------------------------------------------------------
-- Whole runs
-----------------------------------------------------------------------------------------

/-- Words, subscribers and publisher satisfy their invariants together. -/
structure AgeInv (s : OwnerState) : Prop where
  words : WordsInv s.words
  claimants : ∀ who, ClaimantAge s.words (s.claimants who)
  judge : JudgeAge s.words s.judge

/-- A fresh session satisfies the invariant. -/
theorem AgeInv.create (cfg : LLConfig) (now : UInt64)
    : AgeInv (OwnerState.create cfg now) where
  words := .record (by simp) (fun _ => rfl) (Nat.le_refl _)
  claimants := fun _ => .create _
  judge :=
    ⟨fun reading phase => by simp [OwnerState.create] at phase,
      fun claim reported => by simp [OwnerState.create] at reported⟩

/-- Every step of whoever judges soundly keeps the invariant. -/
theorem AgeInv.step {s next : OwnerState} {action : OwnerAction} (inv : AgeInv s)
    (sound : SoundlyJudged s action) (stepped : s.step action = some next)
    : AgeInv next := by
  obtain ⟨moved, moveEq, rfl⟩ := Option.map_eq_some_iff.mp stepped
  have words := inv.words
  have still := WordsStep.refl s.words
  have unmoved : WordsInv s.words.record :=
    .record words.acted words.owner words.older
  cases OwnerState.move_cases moveEq with
  | @tick now later =>
      have step : WordsStep s.words { s.words with clock := now } :=
        ⟨later, Nat.le_refl _, rfl, fun owned _ => ⟨owned, rfl, rfl⟩⟩
      exact {
        words := .record (UInt64.le_trans words.acted later) words.owner words.older
        claimants := fun who => (inv.claimants who).step step
        judge := inv.judge.step step
      }
  | @privately _ who c apart moved =>
      exact {
        words := unmoved
        claimants := @forall_assign _ _ _ s.claimants who c
          (fun _ c => ClaimantAge s.words.record c)
          (((inv.claimants who).privately moved).step still)
          (fun other _ => (inv.claimants other).step still)
        judge := inv.judge.step still
      }
  | @access who choice next c moved =>
      obtain ⟨nextInv, step⟩ := words.move (inv.claimants who).bounded moved
      exact {
        words := nextInv
        claimants := @forall_assign _ _ _ s.claimants who c
          (fun _ c => ClaimantAge next.record c)
          ((inv.claimants who).move words sound moved)
          (fun other _ => (inv.claimants other).step step)
        judge := inv.judge.step step
      }
  | judge =>
      exact {
        words := unmoved
        claimants := fun who => (inv.claimants who).step still
        judge := ⟨fun reading phase => by simp at phase, inv.judge.reported⟩
      }
  | judgeAccess moved =>
      exact {
        words := unmoved
        claimants := fun who => (inv.claimants who).step still
        judge := (inv.judge.access words sound moved).step still
      }

end ShmFrame.Commands
