import ShmFrame.Foundation.Party
import ShmFrame.Multiview.Producer

/-! What the multiview producer owes to whoever requests a view, to whoever watches one, and to
the library: as a ledger of everything that has happened, and what may be done in which state
of it.
-/

namespace ShmFrame.Multiview

open ShmFrame.Foundation ShmFrame.Foundation.Program ShmFrame.Commands

-----------------------------------------------------------------------------------------
-- The ledger
-----------------------------------------------------------------------------------------

/-- A slot in use: the request that it was created for, when a subscriber was last seen or the
slot was created, and what was last heard about its subscriber.
-/
structure Tenant where
  request : UInt64
  lastSeen : Int
  attached : Bool := false
  stale : Bool := false

/-- All that has happened: the last clock reading, whether the control channel is there, the
request that no reply has been sent to, with the slot that has been created for it or the news
that none could be, the slots in use, and whether the program is to stop.
-/
structure Ledger where
  now : Int := 0
  control : Bool := false
  request : Option UInt64 := none
  granted : Option Nat := none
  denied : Bool := false
  tenants : Nat → Option Tenant := fun _ => none
  stopping : Bool := false

/-- Something is heard about a slot. -/
def Ledger.hear (l : Ledger) (index : Nat) (news : Tenant → Tenant) : Ledger :=
  { l with tenants := assign l.tenants index ((l.tenants index).map news) }

/-- What a call does to the ledger, whatever it answers. -/
def record : Environment Effect Effect.Answer Ledger := fun l effect answer later =>
  match effect, answer with
  | .now, now => later = { l with now }
  | .running, goesOn => later = { l with stopping := !goesOn }
  | .create .control _, made => later = { l with control := made }
  | .create (.view index) _, made =>
      let tenant : Tenant := { request := l.request.getD 0, lastSeen := l.now }
      later
      = bif made then
          { l with granted := some index, tenants := assign l.tenants index (some tenant) }
        else { l with denied := true }
  | .destroy .control, _ => later = { l with control := false }
  | .destroy (.view index), _ => later = { l with tenants := assign l.tenants index none }
  | .hasSubscriber index, attached =>
      later
      = l.hear index fun tenant => {
          tenant with
          attached
          stale := false
          lastSeen := bif attached then l.now else tenant.lastSeen
        }
  | .commandOwnerStale index, stale => later = l.hear index fun tenant => { tenant with stale }
  | .receive .control, some (cmd : LLShmCommand) =>
      later
      = if cmd.type = Opcode.kRequestSlot.code then
          { l with request := some cmd.id, granted := none, denied := false }
        else l
  -- The reply has been handed over. Whether the ring takes it does not matter to the program.
  | .send .control _ _ _, _ => later = { l with request := none }
  | .rand, _ | .patience, _ | .sleep, _ | .receive _, _ | .send (.view _) _ _ _, _ | .publish .., _
  | .undefined, _ | .stall, _ =>
      later = l

-----------------------------------------------------------------------------------------
-- What is owed
-----------------------------------------------------------------------------------------

/-- Requests: one reply to each is handed to `send`, under the id of the request and before the
next command is looked at; if it is not taken there is no other. It names a slot that was free
before, was created for this very request, and is the first one that was free; or there is none,
because all are in use or the first one could not be created.
-/
def Replies (count : Nat) (l : Ledger) : Effect → Prop
  | .create (.view index) cfg =>
      l.request.isSome
      ∧ l.granted = none
      ∧ l.denied = false
      ∧ index < count
      ∧ l.tenants index = none
      ∧ (∀ earlier < index, (l.tenants earlier).isSome)
      ∧ cfg = { viewCfg with name := channelName index }
  | .send .control type data replyTo =>
      l.request = some replyTo
      ∧ (type = Opcode.kSlotAssigned.code
            ∧ (∃ index tenant,
                l.granted = some index
                ∧ l.tenants index = some tenant
                ∧ tenant.request = replyTo
                ∧ data = packU32 (UInt32.ofNat index))
          ∨ type = Opcode.kSlotUnavailable.code
            ∧ data = []
            ∧ (l.denied = true ∨ ∀ index < count, (l.tenants index).isSome))
  | .receive _ | .sleep | .running | .destroy _ => l.request = none
  | .send (.view _) .. => False
  | .now | .rand | .create .control _ | .hasSubscriber _ | .commandOwnerStale _ | .publish ..
  | .patience | .undefined | .stall =>
      True

/-- A slot that nobody watches any more. -/
def Abandoned (l : Ledger) (tenant : Tenant) : Prop :=
  tenant.attached = true ∧ tenant.stale = true
  ∨ tenant.attached = false ∧ l.now - tenant.lastSeen ≥ kIdleGracePeriod

/-- Lifetimes: only what is there is used. A slot is given up only when its subscriber has crashed
or when there has been none for so long, and at the end of each round no such slot is left.
-/
def Keeps (l : Ledger) : Effect → Prop
  | .create .control _ => l.control = false
  | .receive .control | .send .control .. => l.control = true
  | .destroy .control => l.control = true ∧ l.stopping = true
  | .destroy (.view index) =>
      ∃ tenant, l.tenants index = some tenant ∧ (l.stopping = true ∨ Abandoned l tenant)
  | .hasSubscriber index | .commandOwnerStale index | .receive (.view index)
  | .send (.view index) .. | .publish index .. =>
      (l.tenants index).isSome
  | .sleep => ∀ index tenant, l.tenants index = some tenant → ¬ Abandoned l tenant
  | .create (.view _) _ | .now | .rand | .running | .patience | .undefined | .stall => True

/-- Frames: no byte outside a canvas is ever touched, and what is published is a canvas of exactly
the size that goes with its geometry, which the library accepts on this channel.
-/
def Draws : Effect → Prop
  | .publish index canvas width height =>
      let cfg : LLConfig := { viewCfg with name := channelName index }
      width ≠ 0
      ∧ height ≠ 0
      ∧ canvas.length = cfg.exactBytes width height
      ∧ canvas.length ≤ cfg.maxPayload.toNat
  | .undefined => False
  | .now | .rand | .running | .sleep | .create .. | .destroy _ | .hasSubscriber _
  | .commandOwnerStale _ | .receive _ | .send .. | .patience | .stall =>
      True

/-- All of it. -/
def Lawful (count : Nat) (l : Ledger) (effect : Effect) : Prop :=
  Replies count l effect ∧ Keeps l effect ∧ Draws effect

-----------------------------------------------------------------------------------------
-- A slot and its entry
-----------------------------------------------------------------------------------------

theorem blankCanvas_sized (w h : UInt32) (fits : w.toNat * h.toNat * 4 < 2 ^ 64)
    : Sized (blankCanvas w h) w h where
  length := by
    have small : w.toNat * h.toNat < 2 ^ 64 := by omega
    simp only [blankCanvas, List.length_replicate, UInt64.toNat_mul, UInt32.toNat_toUInt64,
      UInt64.reduceToNat]
    rw [Nat.mod_eq_of_lt small, Nat.mod_eq_of_lt fits]
  fits := fits

/-- A geometry within the bounds. -/
theorem area_small {w h : UInt32} (narrow : w ≤ kMaxWidth) (low : h ≤ kMaxHeight)
    : w.toNat * h.toNat ≤ 1920 * 1080 :=
  Nat.mul_le_mul (UInt32.le_iff_toNat_le.mp narrow) (UInt32.le_iff_toNat_le.mp low)

/-- The canvas of a slot goes with its geometry, which is within the bounds of a view. -/
structure Slot.Drawn (s : Slot) : Prop where
  canvas : Sized s.canvas s.width s.height
  width : s.width ≠ 0 ∧ s.width ≤ kMaxWidth
  height : s.height ≠ 0 ∧ s.height ≤ kMaxHeight

/-- What the program knows of a slot is what the ledger says. -/
def Slot.Fits (s : Slot) : Option Tenant → Prop
  | none => s.pub = false
  | some tenant => s.pub = true ∧ s.lastActive = tenant.lastSeen ∧ s.Drawn

/-- A slot with a publisher has an entry. -/
theorem Slot.Fits.used {s : Slot} {entry : Option Tenant} (fits : s.Fits entry)
    (here : s.pub = true)
    : entry.isSome := by
  cases entry with
  | none => cases here.symm.trans (show s.pub = false from fits)
  | some tenant => rfl

/-- What is published of a slot is what the library takes. -/
theorem Slot.Fits.publishable {s : Slot} {entry : Option Tenant} (fits : s.Fits entry)
    (here : s.pub = true) (index : Nat)
    : Draws (.publish index s.canvas s.width s.height) := by
  cases entry with
  | none => cases here.symm.trans (show s.pub = false from fits)
  | some tenant =>
      obtain ⟨-, -, drawn⟩ := fits
      have area := area_small drawn.width.2 drawn.height.2
      have size := drawn.canvas.length
      refine ⟨drawn.width.1, drawn.height.1, size, ?_⟩
      have room (name : Name) : (LLConfig.maxPayload { viewCfg with name }).toNat = 8294400 := by
        simp only [LLConfig.maxPayload, viewCfg, kMaxWidth, kMaxHeight]
        decide
      rw [size, room]
      omega

/-- Nothing but the entry of one slot has changed. -/
structure Ledger.Only (l : Ledger) (index : Nat) (later : Ledger) : Prop where
  rest : later = { l with tenants := later.tenants }
  others : ∀ other, other ≠ index → later.tenants other = l.tenants other

theorem Ledger.Only.now {l later : Ledger} {index : Nat} (only : l.Only index later)
    : later.now = l.now := by
  rw [only.rest]

theorem Ledger.Only.request {l later : Ledger} {index : Nat} (only : l.Only index later)
    : later.request = l.request := by
  rw [only.rest]

theorem Ledger.Only.refl (l : Ledger) (index : Nat) : l.Only index l := ⟨rfl, fun _ _ => rfl⟩

theorem Ledger.Only.trans {l middle later : Ledger} {index : Nat} (one : l.Only index middle)
    (two : middle.Only index later)
    : l.Only index later where
  rest := by
    rw [two.rest, one.rest]
  others other apart := (two.others other apart).trans (one.others other apart)

end ShmFrame.Multiview
