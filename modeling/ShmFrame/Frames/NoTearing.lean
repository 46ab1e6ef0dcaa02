import ShmFrame.Frames.ReaderInvariant

/-! Frames are neither torn nor stale: an `Ok` hands out one committed frame, complete and
no older than what `latest` had named when the call started.
-/

namespace ShmFrame.Frames

open ShmFrame.Foundation

/-- In every run without cancellations and with fewer than `2 ^ 62` frames, an `Ok` of
`read_latest` returns the metadata and the payload of one committed frame, whose id is at
least every id that had been stored to `latest` when the call started.
-/
theorem readLatest_untorn {cfg : LLConfig} (accepted : cfg.accepted = true) {now : UInt64}
    {impls : Nat → LLSubscriber.Impl} {schedule : List Action} {s : State}
    (keeps : ∀ action ∈ schedule, action.Writes WriteAction.NoCancel)
    (reached : frameMachine.run (State.create cfg now impls) schedule = some s)
    (few : s.writer.committed.length < 2 ^ 62)
    (reader : Nat) (ok : (s.readers reader).result = some .ok)
    : ∃ frame ∈ s.writer.committed,
        (s.readers reader).info = frame.info
        ∧ (∀ index < (s.readers reader).info.payloadBytes.toNat,
            (s.readers reader).dst index = frame.payload index)
        ∧ ∀ packed ∈ (s.readers reader).callLog,
            latestFrame packed ≤ frame.info.frameId := by
  have inv := SystemInv.of_run (cfg.accepted_frameBounds accepted) keeps reached few
  exact (inv.readers reader).delivered ok

/-- One-byte frames in three slots. -/
def tinyConfig : LLConfig where
  name := [102]
  maxWidth := 1
  maxHeight := 1
  bytesPerPixel := 1
  commandSlots := 1
  maxCommandBytes := 1

/-- The accesses of one `begin_write`. -/
def beginByte (now : UInt64) : List Action :=
  .write (.beginWrite 1 1 now) :: List.replicate 6 (.write (.access now))

/-- The payload store and the accesses of one `commit`. -/
def commitByte (byte : UInt8) (now : UInt64) : List Action :=
  .write (.storePayload 0 byte) :: .write (.commit now now)
    :: List.replicate 6 (.write (.access now))

/-- A one-byte frame, written without disturbance. -/
def publishByte (byte : UInt8) (now : UInt64) : List Action :=
  beginByte now ++ commitByte byte now

/-- The accesses of one undisturbed `read_latest` of a one-byte frame. -/
def readByte (reader : Nat) (now : UInt64) : List Action :=
  [.readLatest reader 1 true now]
  ++ List.replicate 8 (.access reader now)
  ++ [.copyByte reader 0, .access reader now]

/-- Two-byte frames. -/
def pairConfig : LLConfig := { tinyConfig with maxWidth := 2 }

/-- A `begin_write` of such a frame, and the caller's stores. -/
def fillPair (first second : UInt8) (now : UInt64) : List Action :=
  .write (.beginWrite 2 1 now) :: List.replicate 6 (.write (.access now))
  ++ [.write (.storePayload 0 first), .write (.storePayload 1 second)]

/-- Its `commit`. -/
def commitPair (now : UInt64) : List Action :=
  .write (.commit now now) :: List.replicate 6 (.write (.access now))

/-- The accesses of a reader up to the payload. -/
def enterPayload (now : UInt64) : List Action := List.replicate 8 (.access 0 now)

/-- Between the two bytes the reader copies, two frames are published and a third one is written
into the slot it copies from: its first byte is one of frame 1 and its second one of frame 4. It
starts again and reads frame 3, while frame 4 is committed between its two bytes.
-/
def overtaken : List Action :=
  .attach 0 77 :: fillPair 1 2 6 ++ commitPair 6
  ++ .readLatest 0 2 true 7 :: enterPayload 7 ++ .copyByte 0 0 ::
    fillPair 3 4 8 ++ commitPair 8 ++ fillPair 5 6 9 ++ commitPair 9 ++ fillPair 7 8 10
  ++ [.copyByte 0 1, .access 0 11]
  ++ enterPayload 11 ++ .copyByte 0 1 :: commitPair 12 ++ [.copyByte 0 0, .access 0 13]

/-- The hypotheses are met by a run in which the publisher moves inside the read, laps one of its
attempts and commits another frame during the next one.
-/
theorem readLatest_untorn_overtaken
    : ∃ s,
        frameMachine.run (State.create pairConfig 5 fun _ => {}) overtaken = some s
        ∧ (s.readers 0).laps.length = 1
        ∧ (s.readers 0).info.frameId = 3
        ∧ s.writer.committed.length = 4
        ∧ ∃ frame ∈ s.writer.committed,
            (s.readers 0).info = frame.info
            ∧ (∀ index < (s.readers 0).info.payloadBytes.toNat,
                (s.readers 0).dst index = frame.payload index)
            ∧ ∀ packed ∈ (s.readers 0).callLog, latestFrame packed ≤ frame.info.frameId := by
  have passes
      : (frameMachine.run (State.create pairConfig 5 fun _ => {}) overtaken).any
          (fun s =>
            (s.readers 0).laps.length = 1
            ∧ (s.readers 0).info.frameId = 3
            ∧ s.writer.committed.length = 4
            ∧ (s.readers 0).result = some .ok)
        = true := by
    decide +kernel
  obtain ⟨s, reached, tested⟩ := Machine.reaches_of_any passes
  rw [decide_eq_true_eq] at tested
  obtain ⟨lapped, third, committed, ok⟩ := tested
  have few : s.writer.committed.length < 2 ^ 62 := by
    rw [committed]
    decide
  exact ⟨s, reached, lapped, third, committed,
    readLatest_untorn (by decide) (by decide +kernel) reached few 0 ok⟩

end ShmFrame.Frames
