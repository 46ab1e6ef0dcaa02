import ShmFrame.Calls.Exchange

/-! What a subscriber knows of the segment it is attached to, and that all its calls keep this
true: the layout, the configuration and the ring handles are those of the header.
-/

namespace ShmFrame.Calls

open ShmFrame.Commands ShmFrame.Foundation

/-- The configuration in the header is valid, and its layout fits. -/
structure Segment.Sound (segment : Segment) : Prop where
  valid : configValid segment.header.config = true
  fits : (computeLayout segment.header.config).totalSize ≤ segment.size

/-- What an attached subscriber knows of its segment. -/
structure Seat (segment : Segment) (g : Nat) (m : LLSubscriber.Impl) : Prop where
  sound : segment.Sound
  layout : m.layout = computeLayout segment.header.config
  remote : m.remote = { segment.header.config with name := m.name }
  tx : m.tx = { m.remote.upstreamRing with base := some g }
  rx : m.rx = { m.remote.downstreamRing with base := some g }

/-- A subscriber knows this if it is attached. -/
def Seated (world : World) (m : LLSubscriber.Impl) : Prop :=
  ∀ g, m.hdr = some g → Seat (world.segments g) g m

/-- The parts of the private state that this is about. -/
structure SameSeat (m next : LLSubscriber.Impl) : Prop where
  name : next.name = m.name
  hdr : next.hdr = m.hdr
  remote : next.remote = m.remote
  layout : next.layout = m.layout
  tx : next.tx = m.tx
  rx : next.rx = m.rx

/-- A call keeps the producer's words, and what is known. It attaches to nothing but what the
name leads to.
-/
structure Seats (s next : Subscriber) : Prop extends Onward s next where
  seated : Seated s.world s.impl → Seated next.world next.impl
  attached : ∀ g, next.impl.hdr = some g → s.impl.hdr = some g ∨ s.world.bound = some g

instance : Std.Refl Seats where
  refl := fun s => ⟨Std.Refl.refl s, id, fun _ => .inl⟩

instance : IsTrans Subscriber Seats where
  trans := fun _ _ _ first second =>
    ⟨IsTrans.trans _ _ _ first.toOnward second.toOnward, fun seated =>
      second.seated (first.seated seated), fun g attached => by
        rcases second.attached g attached with before | bound
        · exact first.attached g before
        · exact .inr (first.bound ▸ bound)⟩

section Keeping

variable {s next : Subscriber} {g : Nat}

/-- The segments that make sense go on to do so. -/
theorem Onward.sound (onward : Onward s next) (sound : (s.world.segments g).Sound)
    : (next.world.segments g).Sound := by
  have config
      : (next.world.segments g).header.config = (s.world.segments g).header.config := by
    rw [onward.header g]
    rfl
  constructor
  · rw [config]
    exact sound.valid
  · rw [config, onward.size g]
    exact sound.fits

/-- What is known stays true as long as nobody but subscribers stores. -/
theorem Onward.seat {m n : LLSubscriber.Impl} (onward : Onward s next)
    (seat : Seat (s.world.segments g) g m) (same : SameSeat m n)
    : Seat (next.world.segments g) g n := by
  have config
      : (next.world.segments g).header.config = (s.world.segments g).header.config := by
    rw [onward.header g]
    rfl
  refine ⟨onward.sound seat.sound, ?_, ?_, ?_, ?_⟩
  · rw [same.layout, config, seat.layout]
  · rw [same.remote, same.name, config, seat.remote]
  · rw [same.tx, same.remote, seat.tx]
  · rw [same.rx, same.remote, seat.rx]

/-- A call that leaves these parts of the private state alone. -/
theorem Onward.seats (onward : Onward s next) (same : SameSeat s.impl next.impl)
    : Seats s next :=
  ⟨onward, fun seated g attached => onward.seat (seated g (same.hdr.symm.trans attached)) same,
    fun _ attached => .inl (same.hdr.symm.trans attached)⟩

/-- What does not concern the claim is the same. -/
theorem SameSeat.of_unclaimed {m n : LLSubscriber.Impl} (same : unclaimed n = unclaimed m)
    : SameSeat m n where
  name := congrArg (·.name) same
  hdr := congrArg (·.hdr) same
  remote := congrArg (·.remote) same
  layout := congrArg (·.layout) same
  tx := congrArg (·.tx) same
  rx := congrArg (·.rx) same

/-- What is known of a segment is true of all segments of its size and configuration. -/
theorem Seat.kept {segment after : Segment} {m : LLSubscriber.Impl} (seat : Seat segment g m)
    (size : after.size = segment.size) (config : after.header.config = segment.header.config)
    : Seat after g m := by
  refine ⟨⟨?_, ?_⟩, ?_, ?_, seat.tx, seat.rx⟩
  · rw [config]
    exact seat.sound.valid
  · rw [config, size]
    exact seat.sound.fits
  · rw [config]
    exact seat.layout
  · rw [config]
    exact seat.remote

/-- Refreshing the claim does. -/
theorem Refreshes.seats (refreshes : Refreshes s next) : Seats s next :=
  refreshes.toOnward.seats (.of_unclaimed refreshes.impl)

/-- A candidate that has been adopted is known. -/
theorem Onward.seats_adopted {system : Circumstances} {cl : LLLayout} (onward : Onward s next)
    (found : s.candidate system = some (g, cl))
    (same : SameSeat (adopted s.impl g (s.world.segments g).header cl) next.impl)
    : Seats s next := by
  unfold Subscriber.candidate at found
  split at found
  · cases found
  rename_i there bound
  dsimp only at found
  split at found
  · cases found
  obtain ⟨layout, validated, pair⟩ := Option.map_eq_some_iff.mp found
  cases pair
  obtain ⟨-, valid, rfl, -, fits⟩ := validateHeader_sound validated
  refine ⟨onward, fun _ other attached => ?_, fun other attached => .inr ?_⟩
  · obtain rfl := Option.some.inj (same.hdr.symm.trans attached)
    exact onward.seat ⟨⟨valid, fits⟩, rfl, rfl, rfl, rfl⟩ same
  · obtain rfl := Option.some.inj (same.hdr.symm.trans attached)
    exact bound

end Keeping

-----------------------------------------------------------------------------------------
-- The calls
-----------------------------------------------------------------------------------------

/-- Private settings and counters are not concerned. -/
theorem seats_setImpl {s : Subscriber} {m : LLSubscriber.Impl} (same : SameSeat s.impl m)
    : Seats s { s with impl := m } :=
  Onward.seats ⟨⟨0, rfl⟩, rfl, fun _ => rfl⟩ same

theorem seats_tryConnect (system : Circumstances) : Steady Seats (tryConnect system) := by
  intro s
  have connected := tryConnect_cases system s
  generalize (tryConnect system).run s = outcome at connected
  cases connected with
  | refused | kept => exact Std.Refl.refl s
  | adopted found _ onward impl => exact onward.seats_adopted found (.of_unclaimed impl)

theorem seats_openSubscriber (name : Name) (system : Circumstances)
    : Steady Seats (openSubscriber name system) := by
  intro s
  let fresh : Subscriber :=
    { (Call.nowNs.run s).2 with impl := { name, lastProgress := s.clock 0 } }
  have begins : Seats s fresh := by
    refine ⟨⟨⟨1, rfl⟩, rfl, fun _ => rfl⟩, fun _ g attached => ?_, fun g attached => ?_⟩
    · cases attached
    · cases attached
  exact IsTrans.trans _ _ _ begins (seats_tryConnect system fresh)

theorem seats_poll (system : Circumstances) : Steady Seats (poll system) := by
  intro s
  have polled := poll_cases system s
  generalize (poll system).run s = outcome at polled
  cases polled with
  | trusted _ refreshes | fresh _ _ refreshes | limited _ _ _ refreshes => exact refreshes.seats
  | retried _ _ _ _ onward impl =>
      have same := SameSeat.of_unclaimed impl
      exact onward.seats ⟨same.name, same.hdr, same.remote, same.layout, same.tx, same.rx⟩
  | reattached _ _ _ found _ onward impl =>
      have same := SameSeat.of_unclaimed impl
      exact onward.seats_adopted found
        ⟨same.name, same.hdr, same.remote, same.layout, same.tx, same.rx⟩

/-- The gates only count. -/
theorem Gated.seats {s next : Subscriber} (gated : Gated s next) : Seats s next := by
  obtain ⟨lastReadNs, throttled, impl⟩ := gated.impl
  refine gated.toOnward.seats ?_
  rw [impl]
  exact ⟨rfl, rfl, rfl, rfl, rfl, rfl⟩

/-- So do the attempts of `read_latest`. -/
theorem Attempted.seats {g : Nat} {s : Subscriber} {outcome : ReadReturn × Subscriber}
    (attempted : Attempted g s outcome)
    : Seats s outcome.2 := by
  cases attempted with
  | delivered _ _ onward impl =>
      refine onward.seats ?_
      rw [impl]
      exact ⟨rfl, rfl, rfl, rfl, rfl, rfl⟩
  | quiet | failed => exact Std.Refl.refl s
  | ended => exact seats_setImpl ⟨rfl, rfl, rfl, rfl, rfl, rfl⟩

theorem seats_readLatest (system : Circumstances) (dst : Buffer) (info : LLFrameInfo)
    : Steady Seats (readLatest system dst info) := by
  intro s
  have polled := seats_poll system s
  rcases readLatest_cases system dst info s with ⟨-, -, same⟩ | ⟨-, goes⟩
  · rw [same]
    exact polled
  · refine IsTrans.trans _ _ _ polled ?_
    generalize (readLatest system dst info).run s = outcome at goes
    cases goes with
    | throttled _ gated | detached _ gated _ => exact gated.seats
    | attempted gate _ attempt => exact IsTrans.trans _ _ _ gate.seats attempt.seats

theorem seats_readLatestVector (first second : Circumstances) (dst : Buffer)
    (info : LLFrameInfo)
    : Steady Seats (readLatestVector first second dst info) := by
  refine .bind (seats_poll first) fun alive => .ite (.pure _) ?_
  refine .bind (fun s => (cheapGate_gated s).seats) fun passes => .ite (.pure _) ?_
  exact .bind (.load _) fun m => seats_readLatest second _ info

theorem seats_send (request : PushCall) : Steady Seats (send request) := by
  intro s
  obtain ⟨result, next, nextCmd, sent, cmdDropped, run, onward, impl⟩ := send_run request s
  rw [run]
  have same := SameSeat.of_unclaimed impl
  exact onward.seats ⟨same.name, same.hdr, same.remote, same.layout, same.tx, same.rx⟩

theorem seats_receive : Steady Seats receive := by
  intro s
  have received := receive_cases s
  generalize receive.run s = outcome at received
  cases received with
  | nothing refreshes => exact refreshes.seats
  | command _ before after impl =>
      have same := SameSeat.of_unclaimed impl
      exact (IsTrans.trans _ _ _ before after : Onward s _).seats
        ⟨same.name, same.hdr, same.remote, same.layout, same.tx, same.rx⟩

/-- The destructor of a subscriber changes the claim at most. -/
theorem refreshes_close : Steady Refreshes closeSubscriber := by
  refine .bind refreshes_impl fun m => ?_
  split
  · refine .ite (.bind (refreshes_header _) fun h => .ite ?_ (.pure _)) (.pure _)
    exact refreshes_setHeader _ _ _
  · exact .pure _

end ShmFrame.Calls
