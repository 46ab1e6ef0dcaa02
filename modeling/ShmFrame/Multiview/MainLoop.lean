import ShmFrame.Multiview.Tending

/-! The multiview producer keeps to the protocol from start to exit: requests, all slots, and the
main loop.
-/

namespace ShmFrame.Multiview

open ShmFrame.Foundation ShmFrame.Foundation.Program ShmFrame.Commands

variable {count : Nat} {l : Ledger} {index : Nat} {now : Int} {slots : List Slot}

-----------------------------------------------------------------------------------------
-- All slots
-----------------------------------------------------------------------------------------

/-- The slots from some index on fit their entries; what is not there fits none. -/
def Fitting (l : Ledger) (index : Nat) (slots : List Slot) : Prop :=
  ∀ offset, (slots.getD offset {}).Fits (l.tenants (index + offset))

/-- The first slot fits its entry, and the others fit theirs. -/
theorem fitting_cons {s : Slot} {rest : List Slot}
    : Fitting l index (s :: rest)
      ↔ s.Fits (l.tenants index) ∧ Fitting l (index + 1) rest := by
  constructor
  · intro fits
    refine ⟨fits 0, fun offset => ?_⟩
    have next := fits (offset + 1)
    rwa [List.getD_cons_succ, ← Nat.add_assoc, Nat.add_right_comm] at next
  · rintro ⟨first, others⟩ offset
    cases offset with
    | zero => exact first
    | succ offset =>
        rw [List.getD_cons_succ, ← Nat.add_assoc, Nat.add_right_comm]
        exact others offset

/-- Where there are no slots there are no entries. -/
theorem Fitting.beyond (fits : Fitting l index []) {other : Nat} (beyond : index ≤ other)
    : l.tenants other = none := by
  have fit := fits (other - index)
  rw [Nat.add_sub_cancel' beyond] at fit
  cases there : l.tenants other with
  | none => rfl
  | some tenant =>
      rw [there] at fit
      cases fit.1

/-- Nothing but the entries from some index on has changed. -/
structure Ledger.From (l : Ledger) (index : Nat) (later : Ledger) : Prop where
  rest : later = { l with tenants := later.tenants }
  earlier : ∀ other < index, later.tenants other = l.tenants other

/-- All slots in a round, by induction on those that are left. -/
theorem tendAll_lawful (answered : l.request = none) (today : l.now = now)
    (fits : Fitting l index slots)
    : (tendAll now index slots).Guarded record (Lawful count) l fun later ledger =>
        l.From index ledger
        ∧ later.length = slots.length
        ∧ Fitting ledger index later
        ∧ ∀ other, index ≤ other → ledger.Watched other := by
  induction slots generalizing l index with
  | nil =>
      refine ⟨⟨rfl, fun _ _ => rfl⟩, rfl, fits, fun other beyond tenant there => ?_⟩
      cases (fits.beyond beyond).symm.trans there
  | cons s rest ih =>
      obtain ⟨first, others⟩ := fitting_cons.mp fits
      unfold tendAll
      refine (tend_lawful answered today first).bind ?_
      rintro next middle ⟨only, fit, watched⟩
      have later : Fitting middle (index + 1) rest := fun offset => by
        rw [only.others _ (by omega)]
        exact others offset
      refine (ih (only.request.trans answered) (only.now.trans today) later).bind ?_
      rintro after ledger ⟨onward, length, fitting, all⟩
      have same : ledger.tenants index = middle.tenants index := onward.earlier index (by omega)
      refine ⟨⟨?_, fun other before => ?_⟩, congrArg (· + 1) length, fitting_cons.mpr ⟨?_, fitting⟩,
        fun other from_ => ?_⟩
      · rw [onward.rest, only.rest]
      · exact (onward.earlier other (by omega)).trans (only.others other (by omega))
      · rw [same]
        exact fit
      · by_cases here : other = index
        · subst here
          intro tenant there
          rw [same] at there
          have kept := watched tenant there
          rw [Abandoned, onward.rest]
          exact kept
        · exact all other (by omega)

/-- All slots are published, by induction on those that are left. -/
theorem publishAll_lawful (fits : Fitting l index slots)
    : (publishAll index slots).Guarded record (Lawful count) l fun _ ledger => ledger = l := by
  induction slots generalizing index with
  | nil => exact rfl
  | cons s rest ih =>
      obtain ⟨first, others⟩ := fitting_cons.mp fits
      unfold publishAll
      refine .ite (fun here => ?_) fun _ => ih others
      have allowed := And.intro (first.used here) (first.publishable here index)
      refine .effect ⟨trivial, allowed⟩ fun _ ledger same => ?_
      subst same
      exact ih others

/-- All slots are given up at the end, by induction on those that are left. -/
theorem destroyAll_lawful (fits : Fitting l index slots) (answered : l.request = none)
    (stopping : l.stopping = true)
    : (destroyAll index slots).Guarded record (Lawful count) l fun _ ledger =>
        l.From index ledger ∧ ∀ other, index ≤ other → ledger.tenants other = none := by
  induction slots generalizing l index with
  | nil => exact ⟨⟨rfl, fun _ _ => rfl⟩, fun _ => fits.beyond⟩
  | cons s rest ih =>
      obtain ⟨first, others⟩ := fitting_cons.mp fits
      have finish {middle : Ledger} (only : l.Only index middle)
          (gone : middle.tenants index = none)
          : (destroyAll (index + 1) rest).Guarded record (Lawful count) middle fun _ ledger =>
              l.From index ledger ∧ ∀ other, index ≤ other → ledger.tenants other = none := by
        have fitting : Fitting middle (index + 1) rest := fun offset => by
          rw [only.others _ (by omega)]
          exact others offset
        refine (ih fitting (only.request.trans answered) ?_).mono (fun _ _ => id) ?_
        · rw [only.rest]
          exact stopping
        · rintro - ledger ⟨onward, all⟩
          refine ⟨⟨?_, fun other before => ?_⟩, fun other from_ => ?_⟩
          · rw [onward.rest, only.rest]
          · exact (onward.earlier other (by omega)).trans (only.others other (by omega))
          · by_cases here : other = index
            · exact here ▸ (onward.earlier index (by omega)).trans gone
            · exact all other (by omega)
      unfold destroyAll
      refine .ite (fun here => ?_) fun free => ?_
      · obtain ⟨tenant, used⟩ := Option.isSome_iff_exists.mp (first.used here)
        refine .effect ⟨answered, ⟨tenant, used, .inl stopping⟩, trivial⟩ fun _ ledger freed => ?_
        subst freed
        exact finish ⟨rfl, fun other apart => assign_apart _ _ apart⟩ (assign_same ..)
      · refine finish (.refl l index) ?_
        cases used : l.tenants index with
        | none => rfl
        | some tenant =>
            rw [used] at first
            exact absurd first.1 free

-----------------------------------------------------------------------------------------
-- Requests
-----------------------------------------------------------------------------------------

/-- Between two commands: the slots fit their entries, and nobody waits for an answer. -/
structure Settled (count : Nat) (slots : List Slot) (l : Ledger) : Prop where
  length : slots.length = count
  fits : Fitting l 0 slots
  control : l.control = true
  request : l.request = none

/-- A request has arrived. -/
def Ledger.ask (l : Ledger) (id : UInt64) : Ledger :=
  { l with request := some id, granted := none, denied := false }

/-- A reply ends the wait. -/
theorem reply_lawful {type : UInt32} {data : List UInt8} {id : UInt64}
    (length : slots.length = count) (fits : Fitting l 0 slots) (control : l.control = true)
    (today : l.now = now) (replies : Replies count l (.send .control type data id))
    : (do
        let _ ← perform (.send .control type data id)
        return slots).Guarded record (Lawful count) l fun later ledger =>
        Settled count later ledger ∧ ledger.now = now := by
  refine .effect ⟨replies, control, trivial⟩ fun _ later sent => ?_
  obtain rfl : later = { l with request := none } := sent
  exact ⟨⟨length, fits, control, rfl⟩, today⟩

/-- A request gets its reply. -/
theorem serveRequest_lawful (settled : Settled count slots l) (today : l.now = now) (id : UInt64)
    : (serveRequest now slots id).Guarded record (Lawful count) (l.ask id) fun later ledger =>
        Settled count later ledger ∧ ledger.now = now := by
  subst today
  have entry (other : Nat) (there : other < slots.length) (busy : ¬ (!slots[other].pub) = true)
      : (l.tenants other).isSome := by
    have fit := settled.fits other
    rw [Nat.zero_add, List.getD_eq_getElem _ _ there] at fit
    exact fit.used (by simpa using busy)
  unfold serveRequest
  cases found : slots.findIdx? fun s => !s.pub with
  | none =>
      refine reply_lawful settled.length settled.fits settled.control rfl
        ⟨rfl, .inr ⟨rfl, rfl, .inr fun other there => ?_⟩⟩
      rw [← settled.length] at there
      refine entry other there ?_
      rw [List.findIdx?_eq_none_iff.mp found _ (List.getElem_mem there)]
      decide
  | some free =>
      obtain ⟨inside, unused, before⟩ := List.findIdx?_eq_some_iff_getElem.mp found
      have vacant : l.tenants free = none := by
        have fit := settled.fits free
        rw [Nat.zero_add, List.getD_eq_getElem _ _ inside] at fit
        cases there : l.tenants free with
        | none => rfl
        | some tenant =>
            rw [there] at fit
            rw [fit.1] at unused
            cases unused
      dsimp only [allocateSlot]
      refine .effect ⟨⟨rfl, rfl, rfl, settled.length ▸ inside, vacant, fun other earlier =>
        entry other (by omega) (before other earlier), rfl⟩, trivial, trivial⟩
        fun (made : Bool) later news => ?_
      cases made with
      | false =>
          obtain rfl : later = { l.ask id with denied := true } := news
          have same : slots.set free (slots.getD free {}) = slots := by
            rw [List.getD_eq_getElem _ _ inside, List.set_getElem_self]
          refine reply_lawful ?_ ?_ settled.control rfl ⟨rfl, .inr ⟨rfl, rfl, .inl rfl⟩⟩
          · rw [same]
            exact settled.length
          · rw [same]
            exact settled.fits
      | true =>
          let tenant : Tenant := { request := id, lastSeen := l.now }
          obtain rfl : later = { l.ask id with
              granted := some free, tenants := assign l.tenants free (some tenant) } := news
          refine reply_lawful (List.length_set.trans settled.length) (fun other => ?_)
            settled.control rfl ⟨rfl, .inl ⟨rfl, free, tenant, rfl, assign_same .., rfl, rfl⟩⟩
          rw [Nat.zero_add, List.getD_eq_getElem?_getD, List.getElem?_set]
          change Slot.Fits _ (assign l.tenants free (some tenant) other)
          split
          · rename_i here
            subst here
            rw [assign_same]
            have bounds : (kDefaultWidth ≠ 0 ∧ kDefaultWidth ≤ kMaxWidth)
                ∧ kDefaultHeight ≠ 0 ∧ kDefaultHeight ≤ kMaxHeight := by
              decide
            exact ⟨rfl, rfl, blankCanvas_sized _ _ (by decide), bounds.1, bounds.2⟩
          · rename_i apart
            rw [assign_apart _ _ fun same => apart same.symm, ← List.getD_eq_getElem?_getD]
            have fit := settled.fits other
            rwa [Nat.zero_add] at fit

/-- All commands on the control channel, by induction on the rounds. -/
theorem serveRequests_lawful (rounds : Nat) (settled : Settled count slots l) (today : l.now = now)
    : (serveRequests now rounds slots).Guarded record (Lawful count) l fun later ledger =>
        Settled count later ledger ∧ ledger.now = now := by
  induction rounds generalizing slots l with
  | zero => exact .effect ⟨trivial, trivial, trivial⟩ fun answer => nomatch answer
  | succ rounds ih =>
      unfold serveRequests
      refine .effect ⟨settled.request, settled.control, trivial⟩ fun cmd later received => ?_
      cases cmd with
      | none =>
          obtain rfl : later = l := received
          exact ⟨settled, today⟩
      | some cmd =>
          obtain rfl : later = ite .. := received
          refine .ite (fun other => ?_) fun asks => ?_
          · rw [if_neg other]
            exact ih settled today
          · rw [if_pos (not_not.mp asks)]
            have serves := serveRequest_lawful settled today cmd.id
            exact serves.bind fun next ledger ⟨settled, today⟩ =>
              ih settled today

-----------------------------------------------------------------------------------------
-- The program
-----------------------------------------------------------------------------------------

/-- One round of the main loop. -/
theorem tick_lawful (nextPublish : Int) (settled : Settled count slots l)
    : (tick nextPublish slots).Guarded record (Lawful count) l fun later ledger =>
        Settled count later.2 ledger := by
  unfold tick
  refine .effect ⟨trivial, trivial, trivial⟩ fun (now : Int) later date => ?_
  obtain rfl : later = { l with now } := date
  refine .effect ⟨trivial, trivial, trivial⟩ fun rounds _ same => ?_
  subst same
  have still : Settled count slots { l with now } :=
    ⟨settled.length, settled.fits, settled.control, settled.request⟩
  refine (serveRequests_lawful rounds still rfl).bind ?_
  rintro asked middle ⟨served, today⟩
  refine (tendAll_lawful served.request today served.fits).bind ?_
  rintro tended later ⟨onward, length, fits, watched⟩
  have after : Settled count tended later := by
    refine ⟨length.trans served.length, fits, ?_, ?_⟩
    · rw [onward.rest]
      exact served.control
    · rw [onward.rest]
      exact served.request
  have sleep (next : Int)
      : (do
          perform .sleep
          return (next, tended) : Producing (Int × List Slot)).Guarded record (Lawful count) later
          fun result ledger => Settled count result.2 ledger := by
    refine .effect ⟨after.request, fun other => watched other (Nat.zero_le other), trivial⟩ ?_
    rintro - ledger rfl
    exact after
  refine .ite (fun _ => ?_) fun _ => sleep nextPublish
  refine (publishAll_lawful fits).bind ?_
  rintro - _ rfl
  exact sleep (now + kPublishPeriod)

/-- The main loop, which is only left in order to stop, by induction on the rounds. -/
theorem mainLoop_lawful (rounds : Nat) (nextPublish : Int) (settled : Settled count slots l)
    : (mainLoop rounds nextPublish slots).Guarded record (Lawful count) l fun later ledger =>
        Settled count later ledger ∧ ledger.stopping = true := by
  induction rounds generalizing nextPublish slots l with
  | zero => exact .effect ⟨trivial, trivial, trivial⟩ fun answer => nomatch answer
  | succ rounds ih =>
      unfold mainLoop
      refine .effect ⟨settled.request, trivial, trivial⟩ fun (goesOn : Bool) later news => ?_
      obtain rfl : later = { l with stopping := !goesOn } := news
      have still : Settled count slots { l with stopping := !goesOn } :=
        ⟨settled.length, settled.fits, settled.control, settled.request⟩
      refine .ite (fun stop => ⟨still, stop⟩) fun _ => ?_
      exact (tick_lawful nextPublish still).bind fun next ledger settled => ih next.1 settled

/-- Nothing is left behind. -/
structure Ledger.Over (l : Ledger) : Prop where
  control : l.control = false
  request : l.request = none
  tenants : ∀ index, l.tenants index = none

/-- The whole program. -/
theorem main_lawful (argument : Option Int32)
    : (main argument).Guarded record (Lawful (slotCount argument)) {} fun _ ledger =>
        ledger.Over := by
  unfold main
  refine .effect ⟨trivial, rfl, trivial⟩ fun (made : Bool) later news => ?_
  obtain rfl : later = { ({} : Ledger) with control := made } := news
  refine .ite (fun failed => ?_) fun there => ?_
  · rw [Bool.not_eq_true'] at failed
    exact ⟨failed, rfl, fun _ => rfl⟩
  rw [Bool.not_eq_true', Bool.not_eq_false] at there
  refine .effect ⟨trivial, trivial, trivial⟩ fun nextPublish later date => ?_
  obtain rfl : later = _ := date
  refine .effect ⟨trivial, trivial, trivial⟩ fun rounds later same => ?_
  obtain rfl : later = _ := same
  have settled
      : Settled (slotCount argument) (List.replicate (slotCount argument) {})
          { ({} : Ledger) with control := made, now := nextPublish } := by
    refine ⟨List.length_replicate, fun offset => ?_, there, rfl⟩
    rw [List.getD_eq_getElem?_getD, List.getElem?_replicate]
    split <;> exact (rfl : Slot.pub {} = false)
  refine (mainLoop_lawful rounds nextPublish settled).bind ?_
  rintro slots ledger ⟨kept, stopping⟩
  refine .effect ⟨kept.request, ⟨kept.control, stopping⟩, trivial⟩ fun _ later gone => ?_
  obtain rfl : later = { ledger with control := false } := gone
  have fits : Fitting { ledger with control := false } 0 slots := kept.fits
  refine (destroyAll_lawful fits kept.request stopping).bind ?_
  rintro - last ⟨onward, all⟩
  refine ⟨?_, ?_, fun index => all index (Nat.zero_le index)⟩
  · rw [onward.rest]
  · rw [onward.rest]
    exact kept.request

/-- However the library, the clock and the consumers behave, exactly one reply to each request for
a slot is handed to `send`, whether it is taken or not. It carries the id of the request and is
true.
-/
theorem requests_replied (argument : Option Int32)
    : (main argument).Guarded record (Replies (slotCount argument)) {} fun _ l =>
        l.request = none :=
  (main_lawful argument).mono (fun _ _ => And.left) fun _ _ ended => ended.request

/-- A slot is only used while it has a publisher, keeps it while it is watched, and gives it up
in the first round in which it is not; on exit nothing is left.
-/
theorem slots_released (argument : Option Int32)
    : (main argument).Guarded record Keeps {} fun _ l => l.Over :=
  (main_lawful argument).mono (fun _ _ lawful => lawful.2.1) fun _ _ => id

/-- Whatever the commands on the channels of views are, no byte outside a canvas is touched, and
every frame is a canvas of exactly the published geometry.
-/
theorem frames_fit (argument : Option Int32)
    : (main argument).Guarded record (fun _ => Draws) {} fun _ _ => True :=
  (main_lawful argument).mono (fun _ _ lawful => lawful.2.2) fun _ _ _ => trivial

end ShmFrame.Multiview
