import ShmFrame.Bitmap.Decode

/-! What is left of a dumped frame when the disk accepts only some of it: the beginning of the
whole file, and the caller is told.
-/

namespace ShmFrame.Bitmap

open ShmFrame.Foundation

-----------------------------------------------------------------------------------------
-- A single write
-----------------------------------------------------------------------------------------

/-- A file holds all that has been written so far, or it ends too early. -/
structure Begun (full sofar : List UInt8) (file : File) (ok : Bool) : Prop where
  part : file.bytes <+: full
  all : ok = true → file.bytes = sofar
  short : ok = false → file.bytes.length < full.length

/-- A write of the next bytes, of which any number may arrive. -/
theorem fwrite_begun (disk : Disk) {full sofar data : List UInt8} {file : File}
    (written : file.bytes = sofar) (next : sofar ++ data <+: full)
    : Begun full (sofar ++ data) (disk.fwrite file data).1 (disk.fwrite file data).2 := by
  have few : min (disk.accepted file.writes data.length) data.length ≤ data.length :=
    Nat.min_le_right ..
  dsimp only [Disk.fwrite]
  generalize min (disk.accepted file.writes data.length) data.length = count at few
  have part : sofar ++ data.take count <+: sofar ++ data :=
    (List.prefix_append_right_inj sofar).mpr (List.take_prefix count data)
  have room := next.length_le
  rw [List.length_append] at room
  rw [written]
  refine ⟨part.trans next, fun all => ?_, fun short => ?_⟩
  · rw [decide_eq_true_eq] at all
    rw [List.take_of_length_le all.ge]
  · rw [decide_eq_false_iff_not] at short
    rw [List.length_append, List.length_take]
    omega

section Rows

variable {bgra : List UInt8} {width height stride : UInt32} {flipVertically : Bool}

-----------------------------------------------------------------------------------------
-- The rows
-----------------------------------------------------------------------------------------

/-- Which rows are prepared does not depend on the disk, only how much of them arrives. -/
theorem writeRow_anyDisk (disk : Disk) {i : UInt32} {w next : Writing} (going : w.ok = true)
    (ideal : writeRow {} bgra width height stride flipVertically i w = some next)
    : writeRow disk bgra width height stride flipVertically i w
      = some {
          row := next.row
          file := (disk.fwrite w.file next.row).1
          ok := (disk.fwrite w.file next.row).2
        } := by
  have stay : ¬ (!w.ok) = true := by simp [going]
  unfold writeRow at ideal ⊢
  rw [if_neg stay] at ideal ⊢
  obtain ⟨row, copied, rest⟩ := Option.bind_eq_some_iff.mp ideal
  cases rest
  simp only [Option.bind_eq_bind, copied, Option.bind_some]
  rfl

/-- The first rows are the beginning of all of them, by induction on the number of the others. -/
theorem blocks_front {block : Nat → List UInt8} {few many : Nat} (less : few ≤ many)
    : blocks block few <+: blocks block many := by
  induction many, less using Nat.le_induction with
  | base => exact List.prefix_rfl
  | succ many less ih => exact ih.trans (List.prefix_append ..)

/-- After some rows: all of them are in the file, or it has ended too early. -/
def Reached (bgra : List UInt8) (width height stride : UInt32) (flipVertically : Bool)
    (header : List UInt8) (i : Nat) (w : Writing)
    : Prop :=
  let full := header ++ blocks (fileRow bgra width height stride flipVertically) height.toNat
  Written bgra width height stride flipVertically header i w
  ∨ w.ok = false ∧ w.file.bytes <+: full ∧ w.file.bytes.length < full.length

/-- The body of the outer loop appends what arrives of a row, or is done already. -/
theorem Reached.next (disk : Disk) (holds : Holds bgra width height stride)
    {header : List UInt8} {i : Nat} (below : i < height.toNat)
    {w : Writing} (reached : Reached bgra width height stride flipVertically header i w)
    : ∃ next,
        writeRow disk bgra width height stride flipVertically (UInt32.ofNat i) w = some next
        ∧ Reached bgra width height stride flipVertically header (i + 1) next := by
  rcases reached with written | ended
  · have perfect : Disk.Succeeds {} := ⟨rfl, fun _ _ => Nat.le_refl _, rfl⟩
    obtain ⟨ideal, ran, after⟩ := written.next perfect holds below
    have appended : ideal.file.bytes = w.file.bytes ++ ideal.row := by
      have same := ran.symm.trans (writeRow_anyDisk {} written.ok ran)
      rw [perfect.fwrite] at same
      exact congrArg (·.file.bytes) (Option.some.inj same)
    refine ⟨_, writeRow_anyDisk disk written.ok ran, ?_⟩
    have next : w.file.bytes ++ ideal.row
        <+: header ++ blocks (fileRow bgra width height stride flipVertically) height.toNat := by
      rw [← appended, after.bytes]
      exact (List.prefix_append_right_inj header).mpr (blocks_front below)
    obtain ⟨part, all, short⟩ := fwrite_begun disk rfl next
    cases outcome : (disk.fwrite w.file ideal.row).2 with
    | true =>
        refine .inl ⟨rfl, after.length, after.padding, ?_⟩
        rw [all outcome, ← appended, after.bytes]
    | false => exact .inr ⟨rfl, part, short outcome⟩
  · refine ⟨w, ?_, .inr ended⟩
    have stop : (!w.ok) = true := by simp [ended.1]
    rw [writeRow, if_pos stop]
    rfl

/-- For every disk, `write_bmp_bgra` uses no index out of range, and what it writes is the header
and all rows, or the beginning of them. By the invariant rule over the rows.
-/
theorem writeBmpBgra_reached (disk : Disk) (columns : width ≠ 0) (rows : height ≠ 0)
    (holds : Holds bgra width height (if stride = 0 then width * 4 else stride))
    : let full :=
        fileHeader width height (paddedRow width * height)
        ++ blocks
            (fileRow bgra width height (if stride = 0 then width * 4 else stride) flipVertically)
            height.toNat
      ∃ ok file,
        writeBmpBgra disk (some bgra) width height stride flipVertically = some (ok, file)
        ∧ (file.isSome = disk.opens)
        ∧ (∀ bytes, file = some bytes → bytes <+: full)
        ∧ (ok = true ↔ file = some full ∧ disk.flushes = true) := by
  have positive : 0 < height.toNat :=
    Nat.pos_of_ne_zero fun none_ => rows (UInt32.toNat_inj.mp none_)
  have narrow := holds.narrow positive
  have refused : ¬ (width = 0 || height = 0) = true := by simp [columns, rows]
  unfold writeBmpBgra
  dsimp only
  rw [if_neg refused]
  generalize (if stride = 0 then width * 4 else stride) = used at holds
  generalize fileHeader width height (paddedRow width * height) = header
  cases opened : disk.opens with
  | false => exact ⟨false, none, rfl, rfl, nofun, by simp⟩
  | true =>
      rw [if_neg (by decide)]
      let all := fileRow bgra width height used flipVertically
      have begins : [] ++ header <+: header ++ blocks all height.toNat := List.prefix_append ..
      have first := fwrite_begun disk (rfl : File.bytes {} = []) begins
      let row : List UInt8 := List.replicate (paddedRow width).toNat 0
      let start : Writing :=
        { row, file := (disk.fwrite {} header).1, ok := (disk.fwrite {} header).2 }
      have initially : Reached bgra width height used flipVertically header 0 start := by
        cases outcome : (disk.fwrite {} header).2 with
        | true =>
            refine .inl ⟨outcome, ?_, ?_, (first.all outcome).trans (List.append_nil header).symm⟩
            · rw [List.length_replicate, paddedRow_exact narrow]
            · rw [List.drop_replicate, paddedRow_exact narrow]
        | false => exact .inr ⟨outcome, first.part, first.short outcome⟩
      obtain ⟨final, run, reached⟩ :=
        loop_invariant (Reached bgra width height used flipVertically header)
          (fun i below w known => known.next disk holds below) initially
      refine ⟨final.ok && disk.flushes, some final.file.bytes, ?_, rfl, ?_, ?_⟩
      · rw [run]
        rfl
      · rintro bytes ⟨rfl⟩
        rcases reached with written | ended
        · exact written.bytes ▸ List.prefix_rfl
        · exact ended.2.1
      · rw [Bool.and_eq_true]
        refine and_congr_left fun _ => ⟨fun ok => ?_, fun whole => ?_⟩
        · rcases reached with written | ended
          · rw [written.bytes]
          · cases ok.symm.trans ended.1
        · rcases reached with written | ended
          · exact written.ok
          · have short := ended.2.2
            rw [Option.some.inj whole] at short
            exact absurd short (Nat.lt_irrefl _)

/-- For every frame of four bytes per pixel that is small enough, every stride, both orientations
and whatever the disk does: no index is out of range, the file is the beginning of one that
decodes back to the pixels of the source, and success is reported exactly if it is all of it and
has been flushed.
-/
theorem writeBmpBgra_truncated (disk : Disk) {width height : UInt32} (columns : 0 < width)
    (rows : 0 < height) (small : width.toNat * height.toNat * 4 < 2 ^ 31) {stride : UInt32}
    (wide : stride = 0 ∨ 4 * width.toNat ≤ stride.toNat) {bgra : List UInt8}
    (size
      : bgra.length = (if stride = 0 then 4 * width.toNat else stride.toNat) * height.toNat)
    (flipVertically : Bool)
    : ∃ full ok file,
        Decodes bgra width.toNat height.toNat
          (if stride = 0 then 4 * width.toNat else stride.toNat) flipVertically full
        ∧ writeBmpBgra disk (some bgra) width height stride flipVertically = some (ok, file)
        ∧ file.isSome = disk.opens
        ∧ (∀ bytes, file = some bytes → bytes <+: full)
        ∧ (ok = true ↔ file = some full ∧ disk.flushes = true) := by
  have positive : 0 < height.toNat := UInt32.lt_iff_toNat_lt.mp rows
  have once : width.toNat * 1 ≤ width.toNat * height.toNat := Nat.mul_le_mul_left _ positive
  have used
      : (if stride = 0 then width * 4 else stride).toNat
        = if stride = 0 then 4 * width.toNat else stride.toNat := by
    split
    · rw [UInt32.toNat_mul, Nat.mul_comm]
      exact Nat.mod_eq_of_lt (by simp only [UInt32.reduceToNat]; omega)
    · rfl
  rw [← used] at size ⊢
  have holds : Holds bgra width height (if stride = 0 then width * 4 else stride) := by
    refine ⟨small, ?_, size⟩
    rw [used]
    split
    · exact Nat.le_refl _
    · rename_i given
      exact wide.resolve_left given
  obtain ⟨ok, file, ran, rest⟩ := writeBmpBgra_reached disk (UInt32.pos_iff_ne_zero.mp columns)
    (UInt32.pos_iff_ne_zero.mp rows) holds
  exact ⟨_, ok, file, decodes_of_rows holds positive, ran, rest⟩

/-- A disk that is full after the first row of two. -/
theorem writeBmpBgra_truncated_full
    : ∃ full ok file,
        Decodes [1, 2, 3, 255, 4, 5, 6, 255] 1 2 4 false full
        ∧ writeBmpBgra { accepted := fun call size => if call < 2 then size else 0 }
            (some [1, 2, 3, 255, 4, 5, 6, 255]) 1 2 0 false = some (ok, file)
        ∧ file.isSome = true
        ∧ (∀ bytes, file = some bytes → bytes <+: full)
        ∧ (ok = true ↔ file = some full ∧ true = true) :=
  writeBmpBgra_truncated { accepted := fun call size => if call < 2 then size else 0 }
    (show (0 : UInt32) < 1 by decide) (show (0 : UInt32) < 2 by decide) (by decide) (Or.inl rfl) rfl
    false

end Rows
end ShmFrame.Bitmap
