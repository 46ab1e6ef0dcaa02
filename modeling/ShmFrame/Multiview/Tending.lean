import ShmFrame.Multiview.Lawful

/-! The multiview producer keeps to the protocol while it goes through its slots: the commands on
a slot's channel, the canvas, and giving up a slot that nobody watches.
-/

namespace ShmFrame.Multiview

open ShmFrame.Foundation ShmFrame.Foundation.Program ShmFrame.Commands

variable {count : Nat} {l : Ledger} {index : Nat} {s : Slot} {now : Int}

-----------------------------------------------------------------------------------------
-- The canvas of a slot
-----------------------------------------------------------------------------------------

/-- A slot with another content and perhaps another geometry. -/
structure Slot.Redrawn (s later : Slot) : Prop where
  pub : later.pub = s.pub
  lastActive : later.lastActive = s.lastActive
  drawn : later.Drawn

theorem Slot.Redrawn.trans {one two three : Slot} (first : one.Redrawn two)
    (second : two.Redrawn three)
    : one.Redrawn three where
  pub := second.pub.trans first.pub
  lastActive := second.lastActive.trans first.lastActive
  drawn := second.drawn

/-- A canvas that can be drawn goes with the same geometry. -/
theorem onCanvas_lawful {result : Option (List UInt8)} {canvas : List UInt8}
    {next : List UInt8 → Producing Slot} {required : Slot → Ledger → Prop}
    (there : result = some canvas)
    (rest : (next canvas).Guarded record (Lawful count) l required)
    : (onCanvas result >>= next).Guarded record (Lawful count) l required := by
  subst there
  exact rest

/-- Drawing a mark leaves a canvas of the same size. -/
theorem mark_lawful (drawn : s.Drawn) (x y : Int32) (r g b : UInt8)
    : (do
        let canvas ← onCanvas (drawMark s.canvas s.width s.height x y r g b)
        return { s with canvas }).Guarded record (Lawful count) l
        fun later ledger => ledger = l ∧ s.Redrawn later := by
  obtain ⟨canvas, marked, sized, -⟩ := drawMark_drawn drawn.canvas x y r g b
  exact onCanvas_lawful marked ⟨rfl, rfl, rfl, sized, drawn.width, drawn.height⟩

/-- A measure that is cut down to a bound. -/
theorem clamp_bounds {v bound : UInt32} (positive : v ≠ 0) (room : bound ≠ 0)
    : min v bound ≠ 0 ∧ min v bound ≤ bound := by
  have smaller : (min v bound).toNat = min v.toNat bound.toNat :=
    UInt32.toNat_min v bound
  refine ⟨fun zero => ?_, UInt32.le_iff_toNat_le.mpr (smaller ▸ Nat.min_le_right ..)⟩
  rw [zero, UInt32.toNat_zero] at smaller
  rcases Nat.min_eq_zero_iff.mp smaller.symm with none_ | none_
  · exact positive (UInt32.toNat_inj.mp none_)
  · exact room (UInt32.toNat_inj.mp none_)

/-- No command makes a canvas that does not go with its geometry, one case for each opcode. -/
theorem onCommand_lawful (drawn : s.Drawn) (cmd : LLShmCommand)
    : (onCommand s cmd).Guarded record (Lawful count) l
        fun later ledger => ledger = l ∧ s.Redrawn later := by
  have same : s.Redrawn s := ⟨rfl, rfl, drawn⟩
  unfold onCommand
  refine .ite (fun url => ?_) fun _ => .ite (fun moved => ?_) fun _ => .ite (fun pressed => ?_)
    fun _ => .ite (fun resized => ?_) fun _ => ?_
  · exact ⟨rfl, rfl, rfl, drawn.canvas, drawn.width, drawn.height⟩
  · cases unpackI32x2 cmd.data with
    | none => exact ⟨rfl, same⟩
    | some point => exact mark_lawful drawn point.1 point.2 255 255 0
  · cases unpackMouseButton cmd.data with
    | none => exact ⟨rfl, same⟩
    | some event => exact mark_lawful drawn event.1 event.2.1 255 255 255
  · cases unpackSize cmd.data with
    | none => exact ⟨rfl, same⟩
    | some size =>
        obtain ⟨w, h⟩ := size
        refine .ite (fun _ => ⟨rfl, same⟩) fun positive => ?_
        refine .ite (fun _ => ⟨rfl, same⟩) fun _ => ⟨rfl, rfl, rfl, ?_⟩
        simp only [Bool.or_eq_true, decide_eq_true_eq, not_or] at positive
        obtain ⟨wide, narrow⟩ := clamp_bounds positive.1 (show kMaxWidth ≠ 0 by decide)
        obtain ⟨high, low⟩ := clamp_bounds positive.2 (show kMaxHeight ≠ 0 by decide)
        have area := area_small narrow low
        exact ⟨blankCanvas_sized _ _ (by omega), ⟨wide, narrow⟩, ⟨high, low⟩⟩
  · exact ⟨rfl, same⟩

/-- All commands on the channel of a slot in use, by induction on the rounds. -/
theorem onCommands_lawful (answered : l.request = none) (used : (l.tenants index).isSome)
    (rounds : Nat) (drawn : s.Drawn)
    : (onCommands index rounds s).Guarded record (Lawful count) l
        fun later ledger => ledger = l ∧ s.Redrawn later := by
  induction rounds generalizing s with
  | zero => exact .effect ⟨trivial, trivial, trivial⟩ fun answer => nomatch answer
  | succ rounds ih =>
      unfold onCommands
      refine .effect ⟨answered, used, trivial⟩ fun cmd later same => ?_
      cases cmd with
      | none => exact ⟨same, rfl, rfl, drawn⟩
      | some cmd =>
          obtain rfl : later = l := same
          refine (onCommand_lawful drawn cmd).bind fun next ledger ⟨unchanged, redrawn⟩ => ?_
          subst unchanged
          exact (ih redrawn.drawn).mono (fun _ _ => id) fun last ledger ⟨same, onward⟩ =>
            ⟨same, redrawn.trans onward⟩

/-- A canvas is filled anew and keeps its size. -/
theorem refresh_lawful (drawn : s.Drawn) (now : Int)
    : (refresh now s).Guarded record (Lawful count) l
        fun later ledger => ledger = l ∧ s.Redrawn later := by
  unfold refresh
  refine .ite (fun _ => ?_) fun _ => ⟨rfl, rfl, rfl, drawn⟩
  refine .effect ⟨trivial, trivial, trivial⟩ fun size _ same => ?_
  subst same
  refine .effect ⟨trivial, trivial, trivial⟩ fun first _ same => ?_
  subst same
  refine .effect ⟨trivial, trivial, trivial⟩ fun second _ same => ?_
  subst same
  obtain ⟨canvas, filled, sized, -⟩ :=
    regenerate_filled drawn.canvas s.color { size, first, second }
  exact onCanvas_lawful filled ⟨rfl, rfl, rfl, sized, drawn.width, drawn.height⟩

-----------------------------------------------------------------------------------------
-- One slot
-----------------------------------------------------------------------------------------

/-- A slot is given up. -/
theorem freeSlot_lawful {tenant : Tenant} (answered : l.request = none)
    (used : l.tenants index = some tenant) (abandoned : Abandoned l tenant)
    : (freeSlot index).Guarded record (Lawful count) l
        fun later ledger => l.Only index ledger ∧ later = {} ∧ ledger.tenants index = none := by
  refine .effect ⟨answered, ⟨tenant, used, .inr abandoned⟩, trivial⟩ fun _ later freed => ?_
  subst freed
  exact ⟨⟨rfl, fun other apart => assign_apart _ _ apart⟩, rfl, assign_same ..⟩

/-- Something is heard about a slot in use. -/
theorem Ledger.hear_only {tenant : Tenant} (used : l.tenants index = some tenant)
    (news : Tenant → Tenant)
    : l.Only index (l.hear index news)
      ∧ (l.hear index news).tenants index = some (news tenant) := by
  refine ⟨⟨rfl, fun other apart => assign_apart _ _ apart⟩, ?_⟩
  simp only [Ledger.hear, assign_same, used, Option.map_some]

/-- Whether the subscriber has crashed is asked only if there is one. -/
theorem crashed_lawful {tenant : Tenant} (used : l.tenants index = some tenant)
    (fresh : tenant.stale = false)
    : (crashed index tenant.attached).Guarded record (Lawful count) l fun gone ledger =>
        l.Only index ledger
        ∧ ledger.tenants index = some { tenant with stale := gone }
        ∧ (gone = true → tenant.attached = true) := by
  unfold crashed
  refine .ite (fun attached => ?_) fun _ => ?_
  · have there : (l.tenants index).isSome := used ▸ rfl
    refine ⟨⟨trivial, there, trivial⟩, fun gone later heard => ?_⟩
    obtain ⟨only, entry⟩ := Ledger.hear_only used fun tenant => { tenant with stale := gone }
    obtain rfl : later = _ := heard
    exact ⟨only, entry, fun _ => attached⟩
  · refine ⟨.refl l index, ?_, nofun⟩
    rw [used, ← fresh]

/-- When a subscriber was last seen is noted. -/
theorem noteSubscriber_lawful {tenant : Tenant} (here : s.pub = true)
    (seen : tenant.lastSeen = bif tenant.attached then now else s.lastActive) (drawn : s.Drawn)
    : (noteSubscriber now tenant.attached s).Guarded record (Lawful count) l fun later ledger =>
        ledger = l ∧ later.Fits (some tenant) := by
  have kept : Sized s.canvas s.width s.height := drawn.canvas
  unfold noteSubscriber
  refine .ite (fun alone => ?_) fun there => ?_
  · rw [Bool.not_eq_true'] at alone
    rw [alone, cond_false] at seen
    exact ⟨rfl, here, seen.symm, drawn⟩
  · rw [Bool.not_eq_true', Bool.not_eq_false] at there
    rw [there, cond_true] at seen
    refine .ite (fun _ => ⟨rfl, here, seen.symm, kept, drawn.width, drawn.height⟩) fun _ => ?_
    refine .effect ⟨trivial, trivial, trivial⟩ fun rand later same => ?_
    exact ⟨same, here, seen.symm, kept, drawn.width, drawn.height⟩

/-- No slot is left that nobody watches. -/
def Ledger.Watched (l : Ledger) (index : Nat) : Prop :=
  ∀ tenant, l.tenants index = some tenant → ¬ Abandoned l tenant

/-- What is done for a slot that stays in use. -/
theorem stay_lawful (tenant : Tenant) (answered : l.request = none)
    (used : l.tenants index = some tenant) (here : s.pub = true)
    (seen : tenant.lastSeen = bif tenant.attached then now else s.lastActive) (drawn : s.Drawn)
    : (do
        let s ← noteSubscriber now tenant.attached s
        let s ← onCommands index (← patience) { s with hadSubscriber := tenant.attached }
        refresh now s).Guarded record (Lawful count) l
        fun later ledger => ledger = l ∧ later.Fits (some tenant) := by
  refine (noteSubscriber_lawful here seen drawn).bind ?_
  rintro next _ ⟨rfl, pub, active, sized⟩
  have kept : Slot.Drawn { next with hadSubscriber := tenant.attached } :=
    ⟨sized.canvas, sized.width, sized.height⟩
  refine .effect ⟨trivial, trivial, trivial⟩ fun rounds ledger same => ?_
  obtain rfl : ledger = _ := same
  refine (onCommands_lawful answered (by rw [used]; rfl) rounds kept).bind ?_
  rintro told _ ⟨rfl, redrawn⟩
  refine (refresh_lawful redrawn.drawn now).mono (fun _ _ => id) ?_
  rintro last _ ⟨rfl, filled⟩
  have both := redrawn.trans filled
  exact ⟨rfl, both.pub.trans pub, both.lastActive.trans active, both.drawn⟩

/-- What is done for one slot in each round. -/
theorem tend_lawful (answered : l.request = none) (today : l.now = now)
    (fits : s.Fits (l.tenants index))
    : (tend now index s).Guarded record (Lawful count) l fun later ledger =>
        l.Only index ledger ∧ later.Fits (ledger.tenants index) ∧ ledger.Watched index := by
  unfold tend
  cases used : l.tenants index with
  | none =>
      rw [used] at fits
      refine .ite (fun _ => ⟨.refl l index, ?_, fun tenant there => ?_⟩) fun there => ?_
      · rw [used]
        exact fits
      · rw [used] at there
        cases there
      · rw [show s.pub = false from fits] at there
        exact absurd rfl there
  | some tenant =>
      rw [used] at fits
      obtain ⟨here, seen, drawn⟩ := fits
      refine .ite (fun free => ?_) fun _ => ?_
      · rw [here] at free
        cases free
      have keeps : Keeps l (.hasSubscriber index) := by
        rw [Keeps, used]
        rfl
      refine .effect ⟨trivial, keeps, trivial⟩ fun (attached : Bool) _ heard => ?_
      obtain ⟨only, entry⟩ := Ledger.hear_only used fun tenant => {
        tenant with
        attached
        stale := false
        lastSeen := bif attached then l.now else tenant.lastSeen
      }
      obtain rfl : _ = Ledger.hear l index _ := heard
      refine (crashed_lawful entry rfl).bind fun gone asked ⟨still, known, caused⟩ => ?_
      have trail : l.Only index asked := only.trans still
      have open_ : asked.request = none := trail.request.trans answered
      have date : asked.now = now := trail.now.trans today
      have freed {tenant' : Tenant} (known : asked.tenants index = some tenant')
          (abandoned : Abandoned asked tenant')
          : (freeSlot index).Guarded record (Lawful count) asked fun later ledger =>
              l.Only index ledger ∧ later.Fits (ledger.tenants index) ∧ ledger.Watched index := by
        refine (freeSlot_lawful open_ known abandoned).mono (fun _ _ => id) ?_
        rintro later ledger ⟨onward, rfl, gone⟩
        refine ⟨trail.trans onward, ?_, fun tenant there => ?_⟩
        · rw [gone]
          exact (rfl : Slot.pub {} = false)
        · rw [gone] at there
          cases there
      refine .ite (fun crashed => ?_) fun sound => .ite (fun idle => ?_) fun active => ?_
      · exact freed known (.inl ⟨caused crashed, crashed⟩)
      · rw [Bool.and_eq_true, Bool.not_eq_true', decide_eq_true_eq] at idle
        refine freed known (.inr ⟨idle.1, ?_⟩)
        rw [date, show attached = false from idle.1, cond_false, ← seen]
        exact idle.2
      · refine (stay_lawful _ open_ known here ?_ drawn).mono (fun _ _ => id) ?_
        · rw [today, seen]
        · rintro later _ ⟨rfl, fits⟩
          refine ⟨trail, known.symm ▸ fits, fun other there => ?_⟩
          rw [known] at there
          cases there
          rintro (⟨-, crashed⟩ | ⟨alone, long⟩)
          · exact sound crashed
          · rw [date, show attached = false from alone, cond_false, ← seen] at long
            rw [Bool.and_eq_true, Bool.not_eq_true', decide_eq_true_eq] at active
            exact active ⟨alone, long⟩

end ShmFrame.Multiview
