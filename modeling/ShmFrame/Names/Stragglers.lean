import ShmFrame.Names.Windows

/-! Where a name is a kernel object, everybody who uses it uses the same segment, nobody can take
it from a publisher, and nobody can create it anew before the last one has let go of it.
-/

namespace ShmFrame.Names

open ShmFrame.Foundation WindowsName

variable {s t : WindowsName} {who segment : Nat}

/-- The invariant holds in every state of every run. -/
theorem windows_inv (now : UInt64) (foreign : Option Segment) {schedule : List WindowsAction}
    (reached : windowsMachine.run (.create now foreign) schedule = some s)
    : s.Inv :=
  Machine.invariant_of_reached WindowsName.Inv (fun _ _ _ inv stepped => inv.step stepped)
    (.create now foreign) reached

/-- However creations, attachments, exits and crashes are interleaved, and however old a heartbeat
is: all who hold a handle to the name hold the same segment, the name stands for it, and at most
one of them is its publisher.
-/
theorem name_oneSegment (now : UInt64) (foreign : Option Segment)
    {schedule : List WindowsAction}
    (reached : windowsMachine.run (.create now foreign) schedule = some s) {handle : Handle}
    (holds : s.held handle = some segment)
    : s.table.bound = some segment
      ∧ (∀ other second, s.held other = some second → second = segment)
      ∧ ∀ one another,
          (s.held (.publisher one)).isSome
          → (s.held (.publisher another)).isSome
          → another = one := by
  have inv := windows_inv now foreign reached
  refine ⟨inv.tracks.one handle segment holds, fun other second there =>
    inv.tracks.same holds there, fun one another here there => ?_⟩
  obtain ⟨first, here⟩ := Option.isSome_iff_exists.mp here
  obtain ⟨second, there⟩ := Option.isSome_iff_exists.mp there
  exact (inv.publisher_unique here there).1

/-- A publisher, a subscriber that attaches, and the publisher dies. -/
def orphaned : List WindowsAction :=
  .start 0 {} :: List.replicate 4 (.access 0 77 false)
  ++ List.replicate 5 (.connect 0 false)
  ++ [.crash 0]

/-- The subscriber holds the segment that the publisher had created. -/
theorem name_oneSegment_orphaned
    : ∃ s, windowsMachine.run (.create 1 none) orphaned = some s
        ∧ s.held (.attached 0) = some 0
        ∧ s.table.bound = some 0 := by
  have passes
      : (windowsMachine.run (.create 1 none) orphaned).any (fun s =>
          s.held (.attached 0) = some 0)
        = true := by
    decide +kernel
  simp only [Option.any_eq_true, decide_eq_true_eq] at passes
  obtain ⟨s, reached, holds⟩ := passes
  exact ⟨s, reached, holds, (name_oneSegment _ _ reached holds).1⟩

-----------------------------------------------------------------------------------------
-- Nobody creates what somebody holds
-----------------------------------------------------------------------------------------

/-- An action that the system refuses. -/
def WindowsAction.Refused : WindowsAction → Prop
  | .access _ _ fails | .connect _ fails => fails = true
  | .tick _ | .start .. | .heartbeat _ | .destroy _ | .crash _ | .detach _ | .crashAttacher _
  | .foreignExit =>
      False

/-- An operation of a call of `create`, or of the publisher it has returned. -/
def WindowsAction.isTurn (caller : Nat) : WindowsAction → Bool
  | .access who _ _ => who = caller
  | _ => false

theorem isTurn_access (caller : Nat) (session : UInt64) (fails : Bool)
    : WindowsAction.isTurn caller (.access caller session fails) = true :=
  decide_eq_true rfl

/-- Everything a step can do to a call of `create` that has created nothing, as long as the name
stands for a segment.
-/
inductive BarredStep (caller : Nat) (action : WindowsAction) (c : WindowsCaller)
    : WindowsCaller → Prop
  | aside (other : action.isTurn caller = false) : BarredStep caller action c c
  | turn {fails next} (mine : action.isTurn caller = true) (goes : Goes fails c next)
    (publishing : next.phase.publishing = c.phase.publishing)
    (blamed : fails = true → action.Refused)
    : BarredStep caller action c next
  | start {cfg} (other : action.isTurn caller = false) (fresh : c.phase = .idle ∧ c.status = none)
    : BarredStep caller action c { c with cfg, phase := .create false }
  | reject {cfg} (other : action.isTurn caller = false) (refused : cfg.accepted = false)
    : BarredStep caller action c ({ c with cfg }.fail .invalidConfig)
  | die (crash : action = .crash caller)
    : BarredStep caller action c { c with phase := .gone }

/-- An operation of some call. -/
theorem barredStep_access {session : UInt64} {fails : Bool}
    (turn : CallTurn s who fails t) (bound : s.table.bound = some segment) {caller : Nat}
    (nothing : (s.callers caller).phase.publishing = none)
    : BarredStep caller (.access who session fails) (s.callers caller) (t.callers caller) := by
  by_cases same : who = caller
  · subst same
    have mine := isTurn_access who session fails
    cases turn with
    | @stays c publishing probing goes
    | @shares segment c bound free probing publishing goes
    | @closes segment c open_ probing publishing goes =>
        have here : assign s.callers who c who = c := assign_same ..
        change BarredStep who _ _ (assign s.callers who c who)
        rw [here]
        exact .turn mine goes publishing id
    | creates free => simp [free] at bound
    | writes own | releases own =>
        rw [own] at nothing
        cases nothing
  · have other : WindowsAction.isTurn caller (.access who session fails) = false :=
      decide_eq_false same
    have apart {c : WindowsCaller} : assign s.callers who c caller = s.callers caller :=
      assign_apart _ _ (Ne.symm same)
    cases turn with
    | @stays c | @shares _ c | @closes _ c | @writes _ _ c | @releases _ c =>
        change BarredStep caller _ _ (assign s.callers who c caller)
        rw [apart]
        exact .aside other
    | creates free => simp [free] at bound

/-- Every step does one of the listed things, by cases on the action. -/
theorem barredStep_cases {action : WindowsAction} (inv : s.Inv)
    (stepped : s.step action = some t) (bound : s.table.bound = some segment) {caller : Nat}
    (nothing : (s.callers caller).phase.publishing = none)
    : BarredStep caller action (s.callers caller) (t.callers caller) := by
  have assigned {c : WindowsCaller} {index : Nat}
      (here : index = caller → BarredStep caller action (s.callers caller) c)
      (other : action.isTurn caller = false)
      : BarredStep caller action (s.callers caller) (assign s.callers index c caller) := by
    by_cases same : index = caller
    · subst same
      rw [assign_same]
      exact here rfl
    · rw [assign_apart _ _ (Ne.symm same)]
      exact .aside other
  cases action with
  | access index session fails => exact barredStep_access (access_turn stepped) bound nothing
  | start index cfg =>
      unfold WindowsName.step WindowsName.start at stepped
      dsimp only at stepped
      split at stepped
      · rename_i phase
        cases stepped
        refine assigned (fun same => ?_) rfl
        subst same
        split
        · exact .start rfl ⟨phase, inv.idle index phase⟩
        · rename_i refused
          exact .reject rfl (by simpa using refused)
      · cases stepped
  | heartbeat index | destroy index =>
      unfold WindowsName.step at stepped
      dsimp only at stepped
      split at stepped
      · rename_i own phase
        cases stepped
        refine assigned (fun same => ?_) rfl
        subst same
        rw [phase] at nothing
        cases nothing
      · cases stepped
  | crash index =>
      cases stepped
      exact assigned (fun same => same ▸ .die rfl) rfl
  | connect index fails =>
      cases stepped
      rw [connect_callers]
      exact .aside rfl
  | crashAttacher index =>
      cases stepped
      exact .aside rfl
  | tick | detach | foreignExit =>
      unfold WindowsName.step at stepped
      dsimp only at stepped
      split at stepped
      · cases stepped
        exact .aside rfl
      · cases stepped

/-- A call of `create` that has no publisher to return; `trouble` is whether the system has
refused anything, and `death` whether the process of the caller has died.
-/
structure Barred (trouble death : Prop) (c : WindowsCaller) : Prop where
  publishing : c.phase.publishing = none
  status
    : ∀ status,
        c.status = some status
        → status = .alreadyExists
          ∨ status = .invalidConfig ∧ c.cfg.accepted = false
          ∨ status = .mappingFailure ∧ trouble
  returns : c.phase = .gone → c.status.isSome = true ∨ death

variable {trouble death : Prop}

/-- One step leaves a call barred. -/
theorem Barred.step {caller : Nat} {action : WindowsAction} {c next : WindowsCaller}
    (barred : Barred trouble death c) (step : BarredStep caller action c next)
    (blamed : action.Refused → trouble) (died : action = .crash caller → death)
    : Barred trouble death next := by
  cases step with
  | aside => exact barred
  | turn _ goes publishing fails =>
      refine ⟨publishing.trans barred.publishing, fun status returned => ?_,
        fun gone => Or.inl (goes.returns gone)⟩
      rcases goes.status with same | same | ⟨failed, same⟩
      · rw [goes.cfg]
        exact barred.status status (same.symm.trans returned)
      · exact Or.inl (Option.some.inj (returned.symm.trans same))
      · exact Or.inr (Or.inr
          ⟨Option.some.inj (returned.symm.trans same), blamed (fails failed)⟩)
  | start _ fresh =>
      refine ⟨rfl, fun status returned => ?_, fun gone => by cases gone⟩
      rw [show c.status = some status from returned] at fresh
      cases fresh.2
  | reject _ refused =>
      refine ⟨rfl, fun status returned => Or.inr (Or.inl ⟨?_, refused⟩), fun _ => Or.inl rfl⟩
      exact (Option.some.inj returned).symm
  | die crash => exact ⟨rfl, barred.status, fun _ => Or.inr (died crash)⟩

/-- A turn of the call brings it nearer to its end, and no other step takes it further away. -/
theorem BarredStep.remaining {caller : Nat} {action : WindowsAction} {c next : WindowsCaller}
    (step : BarredStep caller action c next) (nothing : c.phase.publishing = none)
    : next.phase.remaining + (if action.isTurn caller then 1 else 0) ≤ c.phase.remaining := by
  cases step with
  | aside other =>
      rw [other]
      exact le_rfl
  | turn mine goes =>
      rw [mine]
      exact goes.nearer nothing
  | start other fresh =>
      rw [other, fresh.1]
      exact le_rfl
  | reject other =>
      rw [other]
      exact Nat.zero_le _
  | die crash =>
      rw [crash]
      exact Nat.zero_le _

/-- No call that has created nothing has more than nine operations to make. -/
theorem remaining_le (phase : WindowsPhase) : phase.remaining ≤ 9 := by
  unfold WindowsPhase.remaining
  split <;> decide

/-- The next operation of a call that is under way is always possible. -/
theorem access_possible {caller : Nat} (nothing : (s.callers caller).phase.publishing = none)
    (started : (s.callers caller).phase ≠ .idle) (going : (s.callers caller).phase ≠ .gone)
    (session : UInt64) (fails : Bool)
    : ∃ next, s.step (.access caller session fails) = some next := by
  unfold WindowsName.step WindowsName.access
  dsimp only
  split
  · rename_i phase
    exact absurd phase started
  · rename_i phase
    rw [phase] at nothing
    cases nothing
  · rename_i phase
    exact absurd phase going
  · split
    · exact ⟨_, rfl⟩
    · split <;> exact ⟨_, rfl⟩
  · exact ⟨_, rfl⟩
  · split
    · split <;> exact ⟨_, rfl⟩
    · exact ⟨_, rfl⟩
  · split <;> exact ⟨_, rfl⟩
  · split <;> exact ⟨_, rfl⟩
  all_goals first | exact ⟨_, rfl⟩ | (split <;> exact ⟨_, rfl⟩)

-----------------------------------------------------------------------------------------
-- A subscriber that stays
-----------------------------------------------------------------------------------------

/-- Attaching anew comes to the segment one is attached to. -/
theorem attached_connect (inv : s.Inv) (attached : (s.attachers who).attached = some segment)
    (index : Nat) (fails : Bool)
    : ((s.connect index fails).attachers who).attached = some segment := by
  have replaced {a : Attacher} (here : who = index → a.attached = some segment)
      : (assign s.attachers index a who).attached = some segment := by
    by_cases same : who = index
    · rw [same, assign_same]
      exact here same
    · rw [assign_apart _ _ same]
      exact attached
  have stays {a : Attacher} (same : a.attached = (s.attachers index).attached)
      : (assign s.attachers index a who).attached = some segment :=
    replaced fun here => same.trans (here ▸ attached)
  unfold WindowsName.connect
  dsimp only
  split
  · split
    · split
      · exact attached
      · exact stays rfl
    · exact attached
  · split
    · exact stays rfl
    · exact stays rfl
  · split
    · exact stays rfl
    · exact stays rfl
  · split
    · exact stays rfl
    · exact stays rfl
  · rename_i candidate phase
    refine replaced fun here => congrArg some ?_
    have looking : s.held (.candidate index) = some candidate :=
      congrArg AttachPhase.candidate phase
    have here : s.held (.attached who) = some segment := attached
    exact inv.tracks.same here looking
  · exact stays rfl

/-- Who is attached stays attached to the same segment until it detaches or dies. -/
theorem attached_step {action : WindowsAction} (inv : s.Inv)
    (stepped : s.step action = some t) (attached : (s.attachers who).attached = some segment)
    (stays : action ≠ .detach who ∧ action ≠ .crashAttacher who)
    : (t.attachers who).attached = some segment := by
  have elsewhere {index : Nat} {a : Attacher} (apart : who ≠ index)
      : (assign s.attachers index a who).attached = some segment := by
    rw [assign_apart _ _ apart]
    exact attached
  cases action with
  | access index session fails =>
      rw [(access_turn stepped).attachers]
      exact attached
  | connect index fails =>
      cases stepped
      exact attached_connect inv attached index fails
  | detach index =>
      have apart : who ≠ index := fun same => stays.1 (same ▸ rfl)
      unfold WindowsName.step at stepped
      dsimp only at stepped
      split at stepped
      · cases stepped
        exact elsewhere apart
      · cases stepped
  | crashAttacher index =>
      have apart : who ≠ index := fun same => stays.2 (same ▸ rfl)
      cases stepped
      exact elsewhere apart
  | crash index =>
      cases stepped
      exact attached
  | tick | start | heartbeat | destroy | foreignExit =>
      simp only [WindowsName.step, WindowsName.start] at stepped
      split at stepped
      · cases stepped
        exact attached
      · cases stepped

/-- So it stays over a whole run. -/
theorem attached_run {during : List WindowsAction} (inv : s.Inv)
    (attached : (s.attachers who).attached = some segment)
    (stays : ∀ action ∈ during, action ≠ .detach who ∧ action ≠ .crashAttacher who)
    (onward : windowsMachine.run s during = some t)
    : t.Inv ∧ (t.attachers who).attached = some segment := by
  refine Machine.invariant_of_run
    (fun _ action => action ≠ .detach who ∧ action ≠ .crashAttacher who)
    (fun s' => s'.Inv ∧ (s'.attachers who).attached = some segment) ?_ ⟨inv, attached⟩
    (Machine.meets_of_forall (fun _ _ both => both) stays) onward
  rintro s' action next ⟨inv, attached⟩ stays stepped
  exact ⟨inv.step stepped, attached_step inv stepped attached stays⟩

/-- As long as a single subscriber keeps its segment, a barred call stays barred and makes no more
operations than it has left, by induction on the run.
-/
theorem barred_run {during : List WindowsAction} (inv : s.Inv)
    (attached : (s.attachers who).attached = some segment)
    (stays : ∀ action ∈ during, action ≠ .detach who ∧ action ≠ .crashAttacher who)
    (onward : windowsMachine.run s during = some t) {caller : Nat}
    (barred : Barred trouble death (s.callers caller))
    (blamed : ∀ action ∈ during, action.Refused → trouble) (died : .crash caller ∈ during → death)
    : Barred trouble death (t.callers caller)
      ∧ during.countP (WindowsAction.isTurn caller) + (t.callers caller).phase.remaining
        ≤ (s.callers caller).phase.remaining := by
  induction during generalizing s with
  | nil =>
      obtain rfl := Option.some.inj onward
      exact ⟨barred, by simp⟩
  | cons action rest ih =>
      obtain ⟨next, stepped, onward⟩ := Machine.run_cons_eq_some.mp onward
      have bound := inv.tracks.one (.attached who) segment attached
      have step := barredStep_cases inv stepped bound barred.publishing
      have first := step.remaining barred.publishing
      have still : Barred trouble death (next.callers caller) :=
        barred.step step (blamed action List.mem_cons_self)
          fun crash => died (crash ▸ List.mem_cons_self)
      obtain ⟨barred, later⟩ :=
        ih (inv.step stepped)
          (attached_step inv stepped attached (stays action List.mem_cons_self))
          (fun other member => stays other (List.mem_cons_of_mem _ member)) onward still
          (fun other member => blamed other (List.mem_cons_of_mem _ member))
          fun crash => died (List.mem_cons_of_mem _ crash)
      refine ⟨barred, ?_⟩
      rw [List.countP_cons]
      omega

/-- As long as a single subscriber keeps its segment, the name stands for it, and no call of
`create` that has not created anything yet returns a publisher, be the heartbeat as old as it may
and however often it is tried: where the system refuses nothing it is `AlreadyExists` every time.
And every such call that is given its turns returns, after nine operations at most, unless its
process dies.
-/
theorem straggler_keepsName (now : UInt64) (foreign : Option Segment)
    {before during : List WindowsAction}
    (reached : windowsMachine.run (.create now foreign) before = some s)
    (attached : (s.attachers who).attached = some segment)
    (stays : ∀ action ∈ during, action ≠ .detach who ∧ action ≠ .crashAttacher who)
    (onward : windowsMachine.run s during = some t)
    : t.table.bound = some segment
      ∧ (t.attachers who).attached = some segment
      ∧ (∀ caller status,
          (s.callers caller).phase.publishing = none
          → (s.callers caller).status = none
          → (t.callers caller).status = some status
          → status ≠ .ok
            ∧ ((∀ action ∈ during, ¬ action.Refused)
              → (t.callers caller).cfg.accepted = true
              → status = .alreadyExists))
      ∧ ∀ caller,
          (s.callers caller).phase.publishing = none
          → (s.callers caller).status = none
          → (s.callers caller).phase ≠ .gone
          → .crash caller ∉ during
          → during.countP (WindowsAction.isTurn caller) ≤ 9
            ∧ ((t.callers caller).phase ≠ .idle
              → (t.callers caller).status = none
              → during.countP (WindowsAction.isTurn caller) < 9
                ∧ ∀ session fails,
                    ∃ next, t.step (.access caller session fails) = some next) := by
  have inv := windows_inv now foreign reached
  obtain ⟨invLater, attachedLater⟩ := attached_run inv attached stays onward
  have bound := invLater.tracks.one (.attached who) segment attachedLater
  have runs {caller : Nat} (nothing : (s.callers caller).phase.publishing = none)
      (unsettled : (s.callers caller).status = none)
      : Barred (∃ action ∈ during, action.Refused)
          ((s.callers caller).phase = .gone ∨ .crash caller ∈ during) (t.callers caller)
        ∧ during.countP (WindowsAction.isTurn caller) + (t.callers caller).phase.remaining
          ≤ (s.callers caller).phase.remaining := by
    have barred
        : Barred (∃ action ∈ during, action.Refused)
            ((s.callers caller).phase = .gone ∨ .crash caller ∈ during) (s.callers caller) := by
      refine ⟨nothing, fun status returned => ?_, fun gone => Or.inr (Or.inl gone)⟩
      rw [unsettled] at returned
      cases returned
    exact barred_run inv attached stays onward barred
      (fun action member refused => ⟨action, member, refused⟩) Or.inr
  refine ⟨bound, attachedLater, fun caller status nothing unsettled returned => ?_,
    fun caller nothing unsettled going alive => ?_⟩
  · rcases (runs nothing unsettled).1.status status returned
      with rfl | ⟨rfl, refused⟩ | ⟨rfl, trouble⟩
    · exact ⟨nofun, fun _ _ => rfl⟩
    · exact ⟨nofun, fun _ accepted => absurd accepted (by simp [refused])⟩
    · obtain ⟨action, member, refused⟩ := trouble
      exact ⟨nofun, fun none_ _ => absurd refused (none_ action member)⟩
  · obtain ⟨barred, turns⟩ := runs nothing unsettled
    have few := remaining_le (s.callers caller).phase
    refine ⟨by omega, fun started unsettledLater => ?_⟩
    have goingLater : (t.callers caller).phase ≠ .gone := by
      intro gone
      rcases barred.returns gone with returned | gone | crash
      · rw [unsettledLater] at returned
        cases returned
      · exact going gone
      · exact alive crash
    have possible := access_possible barred.publishing started goingLater
    refine ⟨?_, possible⟩
    -- Another turn would bring the call nearer to its end, so it is not there yet.
    obtain ⟨next, stepped⟩ := possible 0 false
    have step := barredStep_cases invLater stepped bound barred.publishing
    have nearer := step.remaining barred.publishing
    rw [if_pos (isTurn_access caller 0 false)] at nearer
    omega

/-- A new publisher, a long time later. -/
def recreate : List WindowsAction :=
  .tick 9000000000 :: .start 1 {} :: List.replicate 9 (.access 1 78 false)

/-- The hypotheses are met by a publisher that is not let in although the old one is gone. -/
theorem straggler_keepsName_recreate
    : ∃ s t,
        windowsMachine.run s recreate = some t
        ∧ (s.callers 0).phase = .gone
        ∧ (t.callers 1).status = some .alreadyExists
        ∧ t.table.bound = some 0 := by
  have passes
      : (windowsMachine.run (.create 1 none) orphaned).any (fun s =>
          (s.callers 0).phase = .gone
          ∧ (s.attachers 0).attached = some 0
          ∧ (windowsMachine.run s recreate).any (fun t =>
              (t.callers 1).status = some .alreadyExists))
        = true := by
    decide +kernel
  have stays : ∀ action ∈ recreate, action ≠ .detach 0 ∧ action ≠ .crashAttacher 0 := by
    simp [recreate]
  simp only [Option.any_eq_true, decide_eq_true_eq] at passes
  obtain ⟨s, reached, gone, attached, t, onward, refused⟩ := passes
  exact ⟨s, t, onward, gone, refused,
    (straggler_keepsName _ _ reached attached stays onward).1⟩

-----------------------------------------------------------------------------------------
-- When a name can be created
-----------------------------------------------------------------------------------------

/-- A call of `create` leaves all handles alone that are not its own. -/
theorem WindowsName.CallTurn.held {fails : Bool} (turn : CallTurn s who fails t) {handle : Handle}
    (other : handle ≠ .publisher who ∧ handle ≠ .probe who)
    : t.held handle = s.held handle := by
  have replaced {c : WindowsCaller} : (s.setCaller who c).held handle = s.held handle := by
    rw [held_setCaller, assign_apart _ _ other.2, assign_apart _ _ other.1]
  cases turn <;> exact replaced

/-- A call of `create` that nobody disturbs. -/
def creation (caller : Nat) (cfg : LLConfig) (session : UInt64) : List WindowsAction :=
  .start caller cfg :: List.replicate 4 (.access caller session false)

/-- What has been created becomes a publisher. -/
theorem access_mapFresh {caller : Nat} (phase : (s.callers caller).phase = .mapFresh segment)
    (session : UInt64)
    : ∃ t, windowsMachine.run s (List.replicate 3 (.access caller session false)) = some t
        ∧ (t.callers caller).phase = .live segment := by
  let c := s.callers caller
  let mapped := s.setCaller caller { c with phase := .initialise segment }
  let described :=
    (mapped.setHeader segment (.initialise c.cfg session s.clock)).setCaller caller
      { c with phase := .storeMagic segment }
  have first : s.step (.access caller session false) = some mapped := by
    simp only [WindowsName.step, WindowsName.access, phase]
    rfl
  have second : mapped.step (.access caller session false) = some described := by
    simp only [WindowsName.step, WindowsName.access, mapped, setCaller, assign_same]
    rfl
  have third
      : ∃ t, described.step (.access caller session false) = some t
          ∧ (t.callers caller).phase = .live segment := by
    simp only [WindowsName.step, WindowsName.access, described, setCaller, assign_same,
      Option.some.injEq, exists_eq_left']
  obtain ⟨t, third, live⟩ := third
  exact ⟨t, Machine.run_cons_eq_some.mpr ⟨mapped, first,
    Machine.run_cons_eq_some.mpr ⟨described, second,
      Machine.run_cons_eq_some.mpr ⟨t, third, rfl⟩⟩⟩, live⟩

/-- It succeeds where the name is free. -/
theorem creation_succeeds {caller : Nat} (idle : (s.callers caller).phase = .idle)
    {cfg : LLConfig} (accepted : cfg.accepted = true) (session : UInt64)
    (free : s.table.bound = none)
    : ∃ t, windowsMachine.run s (creation caller cfg session) = some t
        ∧ (t.callers caller).phase = .live s.table.count := by
  let begun := s.setCaller caller { s.callers caller with cfg, phase := .create false }
  have first : s.step (.start caller cfg) = some begun := by
    simp only [WindowsName.step, WindowsName.start, idle, accepted, if_true]
    rfl
  have second : begun.step (.access caller session false) = some (begun.bindFresh caller) := by
    simp only [WindowsName.step, WindowsName.access, begun, setCaller, assign_same, free]
    rfl
  have created : ((begun.bindFresh caller).callers caller).phase = .mapFresh s.table.count :=
    congrArg WindowsCaller.phase (assign_same ..)
  obtain ⟨t, ran, live⟩ := access_mapFresh created session
  exact ⟨t, Machine.run_cons_eq_some.mpr ⟨begun, first,
    Machine.run_cons_eq_some.mpr ⟨_, second, ran⟩⟩, live⟩

/-- A call of `create` that nobody disturbs may return a publisher if and only if nobody holds a
handle to the name when it begins, whatever the header says about the last one.
-/
theorem create_possible_iff (now : UInt64) (foreign : Option Segment)
    {before : List WindowsAction}
    (reached : windowsMachine.run (.create now foreign) before = some s) {caller : Nat}
    (idle : (s.callers caller).phase = .idle) {cfg : LLConfig} (accepted : cfg.accepted = true)
    : (∃ accesses t own,
        (∀ action ∈ accesses, ∃ session fails, action = .access caller session fails)
        ∧ windowsMachine.run s (.start caller cfg :: accesses) = some t
        ∧ (t.callers caller).phase = .live own)
      ↔ ∀ handle, s.held handle = none := by
  have inv := windows_inv now foreign reached
  constructor
  · rintro ⟨accesses, t, own, alone, ran, live⟩
    by_contra held
    obtain ⟨handle, held⟩ := not_forall.mp held
    obtain ⟨segment, held⟩ := Option.ne_none_iff_exists'.mp held
    have other : handle ≠ .publisher caller ∧ handle ≠ .probe caller := by
      constructor <;> rintro rfl
      · have nothing : s.held (.publisher caller) = none := congrArg WindowsPhase.publishing idle
        rw [nothing] at held
        cases held
      · have nothing : s.held (.probe caller) = none := congrArg WindowsPhase.probing idle
        rw [nothing] at held
        cases held
    let kept (s' : WindowsName) : Prop :=
      s'.Inv ∧ s'.held handle = some segment ∧ Barred True True (s'.callers caller)
    have initially : kept s := by
      refine ⟨inv, held, by rw [idle]; rfl, fun status returned => ?_, fun _ => Or.inr trivial⟩
      rw [inv.idle caller idle] at returned
      cases returned
    have finally_ : kept t := by
      refine Machine.invariant_of_run
        (fun _ action => action = .start caller cfg
          ∨ ∃ session fails, action = .access caller session fails)
        kept ?_ initially
        (Machine.meets_of_forall (fun _ _ both => both) fun action member => ?_) ran
      · rintro s' action next ⟨inv, held, barred⟩ own stepped
        have bound := inv.tracks.one handle segment held
        have step := barredStep_cases inv stepped bound barred.publishing
        refine ⟨inv.step stepped, ?_, barred.step step (fun _ => trivial) fun _ => trivial⟩
        rcases own with rfl | ⟨session, fails, rfl⟩
        · simp only [windowsMachine, WindowsName.step, WindowsName.start] at stepped
          split at stepped
          · cases stepped
            rw [held_setCaller, assign_apart _ _ other.2, assign_apart _ _ other.1]
            exact held
          · cases stepped
        · exact ((access_turn stepped).held other).trans held
      · rcases List.mem_cons.mp member with rfl | member
        · exact Or.inl rfl
        · exact Or.inr (alone action member)
    have nothing := finally_.2.2.publishing
    rw [live] at nothing
    cases nothing
  · intro nobody
    have free : s.table.bound = none := by
      cases bound : s.table.bound with
      | none => rfl
      | some segment =>
          obtain ⟨owner, holds⟩ := inv.tracks.present segment bound
          rw [nobody owner] at holds
          cases holds
    obtain ⟨t, ran, live⟩ := creation_succeeds idle accepted 0 free
    exact ⟨_, t, _, fun action member => ⟨0, false, List.eq_of_mem_replicate member⟩, ran, live⟩

/-- Nobody holds anything at first. -/
theorem create_possible_iff_unused
    : ∃ accesses t own,
        (∀ action ∈ accesses, ∃ session fails, action = .access 0 session fails)
        ∧ windowsMachine.run (.create 1 none) (.start 0 {} :: accesses) = some t
        ∧ (t.callers 0).phase = .live own := by
  have reached : windowsMachine.run (.create 1 none) [] = some (.create 1 none) := rfl
  exact (create_possible_iff 1 none reached rfl (by decide +kernel)).mpr fun handle => by
    cases handle <;> rfl

end ShmFrame.Names
