import Mathlib.Tactic.IntervalCases
import ShmFrame.Bitmap.Dump

/-! What the loops of `write_bmp_bgra` put into the file: for each row of the source one block
of pixels and padding, with all indices in range.
-/

namespace ShmFrame.Bitmap

open ShmFrame.Foundation

/-- The bytes of a row, rounded up to a multiple of four. -/
def roundedRow (width : Nat) : Nat := (3 * width + 3) / 4 * 4

/-- A buffer of rows that are wide enough, and a frame that is small enough for the 32-bit
arithmetic of the source.
-/
structure Holds (bgra : List UInt8) (width height stride : UInt32) : Prop where
  small : width.toNat * height.toNat * 4 < 2 ^ 31
  wide : 4 * width.toNat ≤ stride.toNat
  size : bgra.length = stride.toNat * height.toNat

/-- Three bytes of a pixel of the source. -/
def pixelBlock (bgra : List UInt8) (first x : Nat) : List UInt8 :=
  [bgra.getD (first + 4 * x) 0, bgra.getD (first + 4 * x + 1) 0,
    bgra.getD (first + 4 * x + 2) 0]

/-- A row of the file: the pixels of a row of the source, and the padding. -/
def rowBlock (bgra : List UInt8) (width first : Nat) : List UInt8 :=
  blocks (pixelBlock bgra first) width
  ++ List.replicate (roundedRow width - 3 * width) 0

theorem pixelBlock_length (bgra : List UInt8) (first x : Nat)
    : (pixelBlock bgra first x).length = 3 :=
  rfl

/-- The padding fills a row up. -/
theorem rowBlock_length (bgra : List UInt8) (width first : Nat)
    : (rowBlock bgra width first).length = roundedRow width := by
  rw [rowBlock, List.length_append, blocks_length (pixelBlock_length bgra first),
    List.length_replicate, roundedRow]
  omega

-----------------------------------------------------------------------------------------
-- One row
-----------------------------------------------------------------------------------------

/-- A byte of the buffer is loaded. -/
theorem load_eq {bgra : List UInt8} {s : UInt64} {index : UInt32}
    (inside : s.toNat + index.toNat < bgra.length)
    : load bgra s index = some (bgra.getD (s.toNat + index.toNat) 0) := by
  rw [load, List.getD_eq_getElem?_getD, List.getElem?_eq_getElem inside, Option.getD_some]

/-- The byte behind some bytes of the row is replaced. -/
theorem store_behind {front rest : List UInt8} {old byte : UInt8} {index : UInt32}
    (place : index.toNat = front.length)
    : store (front ++ old :: rest) index byte = some (front ++ byte :: rest) := by
  have inside : index.toNat < (front ++ old :: rest).length := by
    rw [List.length_append, List.length_cons]
    omega
  rw [store, if_pos inside, place, List.set_append_right _ _ (Nat.le_refl _), Nat.sub_self,
    List.set_cons_zero]

section Row

variable {bgra : List UInt8} {s : UInt64} {width : Nat}

/-- The next three bytes of the row become those of the pixel. -/
theorem copyPixel_behind (narrow : 4 * width < 2 ^ 32) (inside : s.toNat + 4 * width ≤ bgra.length)
    {x : Nat} (below : x < width) {front rest : List UInt8} {b g r : UInt8}
    (place : front.length = x * 3)
    : copyPixel bgra s (UInt32.ofNat x) (front ++ b :: g :: r :: rest)
      = some (front ++ pixelBlock bgra s.toNat x ++ rest) := by
  have target (offset : Nat) (few : offset < 4)
      : (UInt32.ofNat x * 3 + UInt32.ofNat offset).toNat = x * 3 + offset := by
    simp only [UInt32.toNat_add, UInt32.toNat_mul, UInt32.toNat_ofNat', UInt32.reduceToNat]
    omega
  have source (offset : Nat) (few : offset < 4)
      : (UInt32.ofNat x * 4 + UInt32.ofNat offset).toNat = 4 * x + offset := by
    simp only [UInt32.toNat_add, UInt32.toNat_mul, UInt32.toNat_ofNat', UInt32.reduceToNat]
    omega
  have loaded (offset : Nat) (few : offset < 4)
      : load bgra s (UInt32.ofNat x * 4 + UInt32.ofNat offset)
        = some (bgra.getD (s.toNat + 4 * x + offset) 0) := by
    have place := source offset few
    rw [load_eq (by omega), place, Nat.add_assoc]
  have load0 : load bgra s (UInt32.ofNat x * 4 + 0) = _ := loaded 0 (by decide)
  have load1 : load bgra s (UInt32.ofNat x * 4 + 1) = _ := loaded 1 (by decide)
  have load2 : load bgra s (UInt32.ofNat x * 4 + 2) = _ := loaded 2 (by decide)
  have place0 : (UInt32.ofNat x * 3 + 0).toNat = front.length := by
    rw [place]
    exact target 0 (by decide)
  have place1 (v : UInt8) : (UInt32.ofNat x * 3 + 1).toNat = (front ++ [v]).length := by
    rw [List.length_append, place]
    exact target 1 (by decide)
  have place2 (v w : UInt8)
      : (UInt32.ofNat x * 3 + 2).toNat = (front ++ [v] ++ [w]).length := by
    rw [List.length_append, List.length_append, place]
    exact target 2 (by decide)
  simp only [copyPixel, load0, load1, load2, Option.bind_eq_bind, Option.bind_some]
  rw [store_behind place0, Option.bind_some, List.append_cons, store_behind (place1 _),
    Option.bind_some, List.append_cons, store_behind (place2 _ _)]
  simp [pixelBlock]

/-- The inner loop replaces all pixels of the row and keeps what is behind them. By the
invariant rule: the first pixels are there already.
-/
theorem copyRow_run (narrow : 4 * width < 2 ^ 32) (inside : s.toNat + 4 * width ≤ bgra.length)
    {row : List UInt8} (room : 3 * width ≤ row.length)
    : loop (fun x => copyPixel bgra s (UInt32.ofNat x)) width row
      = some (blocks (pixelBlock bgra s.toNat) width ++ row.drop (3 * width)) := by
  let invariant (x : Nat) (current : List UInt8) : Prop :=
    current = blocks (pixelBlock bgra s.toNat) x ++ row.drop (3 * x)
  have step (x : Nat) (below : x < width) (current : List UInt8) (known : invariant x current)
      : ∃ next,
          copyPixel bgra s (UInt32.ofNat x) current = some next ∧ invariant (x + 1) next := by
    have length : (row.drop (3 * x)).length = row.length - 3 * x := List.length_drop
    obtain ⟨b, g, r, rest, split_⟩
        : ∃ b g r rest, row.drop (3 * x) = b :: g :: r :: rest := by
      match row.drop (3 * x), length with
      | b :: g :: r :: rest, _ => exact ⟨b, g, r, rest, rfl⟩
      | [_, _], short | [_], short | [], short => simp at short; omega
    have place := blocks_length (pixelBlock_length bgra s.toNat) x
    have here : current = blocks (pixelBlock bgra s.toNat) x ++ b :: g :: r :: rest := by
      rw [← split_]
      exact known
    refine ⟨blocks (pixelBlock bgra s.toNat) (x + 1) ++ rest, ?_, ?_⟩
    · rw [here]
      exact copyPixel_behind narrow inside below place
    · have later : row.drop (3 * (x + 1)) = rest := by
        rw [Nat.mul_succ, ← List.drop_drop, split_]
        rfl
      simp only [invariant, blocks, later]
  obtain ⟨final, run, known⟩ :=
    loop_invariant invariant step (show invariant 0 row by simp [invariant, blocks])
  rw [run, known]

end Row

-----------------------------------------------------------------------------------------
-- All rows
-----------------------------------------------------------------------------------------

section Rows

variable {disk : Disk} {bgra : List UInt8} {width height stride : UInt32}

/-- The row of the source that a row of the file is filled from. -/
def sourceRow (height : UInt32) (flipVertically : Bool) (i : Nat) : Nat :=
  if flipVertically then height.toNat - 1 - i else i

/-- The rows of the file. -/
def fileRow (bgra : List UInt8) (width height stride : UInt32) (flipVertically : Bool) (i : Nat)
    : List UInt8 :=
  rowBlock bgra width.toNat (sourceRow height flipVertically i * stride.toNat)

theorem fileRow_length (bgra : List UInt8) (width height stride : UInt32)
    (flipVertically : Bool) (i : Nat)
    : (fileRow bgra width height stride flipVertically i).length = roundedRow width.toNat :=
  rowBlock_length ..

/-- A pixel takes at most four bytes of a padded row, so its size has 32 bits. -/
theorem paddedRow_exact (narrow : 4 * width.toNat < 2 ^ 31)
    : (paddedRow width).toNat = roundedRow width.toNat := by
  have bytes : (width * 3).toNat = width.toNat * 3 := by
    rw [UInt32.toNat_mul]
    exact Nat.mod_eq_of_lt (by simp only [UInt32.reduceToNat]; omega)
  have over_ : (width * 3 % 4).toNat = width.toNat * 3 % 4 := by
    rw [UInt32.toNat_mod, bytes]
    rfl
  have less : width * 3 % 4 ≤ 4 := by
    rw [UInt32.le_iff_toNat_le, over_]
    exact (Nat.mod_lt _ (by decide)).le
  have missing : (4 - width * 3 % 4).toNat = 4 - width.toNat * 3 % 4 := by
    rw [UInt32.toNat_sub_of_le _ _ less, over_]
    rfl
  simp only [paddedRow, UInt32.toNat_add, UInt32.toNat_mod, missing, bytes, UInt32.reduceToNat,
    roundedRow]
  -- The padding depends on the remainder of the pixel bytes only.
  have parts := Nat.div_add_mod (width.toNat * 3) 4
  have few : width.toNat * 3 % 4 < 4 := Nat.mod_lt _ (by decide)
  generalize width.toNat * 3 / 4 = words at parts
  generalize width.toNat * 3 % 4 = rest at parts few
  interval_cases rest <;> omega

/-- A frame that is small enough is narrow. -/
theorem Holds.narrow (holds : Holds bgra width height stride) (rows : 0 < height.toNat)
    : 4 * width.toNat < 2 ^ 31 := by
  have once : width.toNat * 1 ≤ width.toNat * height.toNat := Nat.mul_le_mul_left _ rows
  have small := holds.small
  omega

/-- The number of the source row is exact. -/
theorem sourceRow_exact {i : Nat} (below : i < height.toNat) (flipVertically : Bool)
    : (if flipVertically then height - 1 - UInt32.ofNat i else UInt32.ofNat i).toNat
        = sourceRow height flipVertically i
      ∧ sourceRow height flipVertically i < height.toNat := by
  have range := height.toNat_lt
  have index : (UInt32.ofNat i).toNat = i := by
    rw [UInt32.toNat_ofNat']
    exact Nat.mod_eq_of_lt (below.trans range)
  cases flipVertically with
  | false => exact ⟨index, below⟩
  | true =>
      have one : (1 : UInt32) ≤ height := UInt32.le_iff_toNat_le.mpr (by simp; omega)
      have last : (height - 1).toNat = height.toNat - 1 := UInt32.toNat_sub_of_le _ _ one
      have rest : UInt32.ofNat i ≤ height - 1 := by
        rw [UInt32.le_iff_toNat_le, last, index]
        omega
      simp only [if_true, sourceRow]
      rw [UInt32.toNat_sub_of_le _ _ rest, last, index]
      omega

/-- The pointer to the source row is exact, and all of its pixels are in the buffer. -/
theorem sourcePointer_exact (holds : Holds bgra width height stride) {i : Nat}
    (below : i < height.toNat) (flipVertically : Bool)
    : let y := if flipVertically then height - 1 - UInt32.ofNat i else UInt32.ofNat i
      (y.toUInt64 * stride.toUInt64).toNat = sourceRow height flipVertically i * stride.toNat
      ∧ sourceRow height flipVertically i * stride.toNat + 4 * width.toNat ≤ bgra.length := by
  obtain ⟨row, there⟩ := sourceRow_exact below flipVertically
  have product : sourceRow height flipVertically i * stride.toNat < 2 ^ 32 * 2 ^ 32 :=
    Nat.mul_lt_mul'' (there.trans height.toNat_lt) stride.toNat_lt
  have rows : (sourceRow height flipVertically i + 1) * stride.toNat ≤ bgra.length := by
    rw [holds.size, Nat.mul_comm stride.toNat]
    exact Nat.mul_le_mul_right _ there
  rw [Nat.succ_mul] at rows
  have wide := holds.wide
  refine ⟨?_, by omega⟩
  rw [UInt64.toNat_mul, UInt32.toNat_toUInt64, UInt32.toNat_toUInt64, row]
  exact Nat.mod_eq_of_lt product

/-- What the buffer and the file hold after some rows. -/
structure Written (bgra : List UInt8) (width height stride : UInt32) (flipVertically : Bool)
    (header : List UInt8) (i : Nat) (w : Writing)
    : Prop where
  ok : w.ok = true
  length : w.row.length = roundedRow width.toNat
  padding
    : w.row.drop (3 * width.toNat)
      = List.replicate (roundedRow width.toNat - 3 * width.toNat) 0
  bytes
    : w.file.bytes = header ++ blocks (fileRow bgra width height stride flipVertically) i

/-- The body of the outer loop appends one row. -/
theorem Written.next (succeeds : disk.Succeeds) (holds : Holds bgra width height stride)
    {flipVertically : Bool} {header : List UInt8} {i : Nat} (below : i < height.toNat)
    {w : Writing} (written : Written bgra width height stride flipVertically header i w)
    : ∃ next,
        writeRow disk bgra width height stride flipVertically (UInt32.ofNat i) w = some next
        ∧ Written bgra width height stride flipVertically header (i + 1) next := by
  obtain ⟨pointer, inside⟩ := sourcePointer_exact holds below flipVertically
  have narrow := holds.narrow (Nat.zero_lt_of_lt below)
  have room : 3 * width.toNat ≤ w.row.length := by
    rw [written.length, roundedRow]
    omega
  rw [← pointer] at inside
  have copied := copyRow_run (by omega) inside room
  rw [pointer, written.padding] at copied
  let row := fileRow bgra width height stride flipVertically i
  have length : row.length = roundedRow width.toNat := fileRow_length ..
  refine ⟨{
      row
      file := { bytes := w.file.bytes ++ row, writes := w.file.writes + 1 }
      ok := true
    }, ?_, rfl, length, ?_, ?_⟩
  · simp only [writeRow, written.ok, Bool.not_true, Bool.false_eq_true, if_false, copied,
      Option.bind_eq_bind, Option.bind_some, succeeds.fwrite]
    rfl
  · have pixels := blocks_length
      (pixelBlock_length bgra (sourceRow height flipVertically i * stride.toNat)) width.toNat
    simp only [row, fileRow, rowBlock]
    rw [List.drop_append_of_le_length (by omega), List.drop_eq_nil_of_le (by omega)]
    rfl
  · simp only [written.bytes, blocks, List.append_assoc, row]

/-- `write_bmp_bgra` never uses an index out of range, and writes a header and all rows. By
the invariant rule over the rows.
-/
theorem writeBmpBgra_run (succeeds : disk.Succeeds)
    (columns : width ≠ 0) (rows : height ≠ 0) (flipVertically : Bool)
    (holds : Holds bgra width height (if stride = 0 then width * 4 else stride))
    : writeBmpBgra disk (some bgra) width height stride flipVertically
      = some
          (true,
            some
              (fileHeader width height (paddedRow width * height)
              ++ blocks
                  (fileRow bgra width height (if stride = 0 then width * 4 else stride)
                    flipVertically)
                  height.toNat)) := by
  have positive : 0 < height.toNat :=
    Nat.pos_of_ne_zero fun none_ => rows (UInt32.toNat_inj.mp none_)
  have narrow := holds.narrow positive
  unfold writeBmpBgra
  dsimp only
  generalize (if stride = 0 then width * 4 else stride) = used at holds
  generalize fileHeader width height (paddedRow width * height) = header
  let start : Writing := {
    row := List.replicate (paddedRow width).toNat 0
    file := { bytes := header, writes := 1 }
    ok := true
  }
  have initially : Written bgra width height used flipVertically header 0 start := by
    refine ⟨rfl, ?_, ?_, (List.append_nil header).symm⟩
    · rw [List.length_replicate, paddedRow_exact narrow]
    · rw [List.drop_replicate, paddedRow_exact narrow]
  obtain ⟨final, run, written⟩ :=
    loop_invariant (Written bgra width height used flipVertically header)
      (fun i below w known => known.next succeeds holds below) initially
  have first : disk.fwrite {} header = (start.file, true) := by
    rw [succeeds.fwrite]
    rfl
  have refused : ¬ (width = 0 || height = 0) = true := by simp [columns, rows]
  have opened : ¬ (!disk.opens) = true := by simp [succeeds.opens]
  rw [if_neg refused, if_neg opened]
  rw [first]
  dsimp only
  rw [run]
  simp only [Option.bind_eq_bind, Option.bind_some, written.ok, succeeds.flushes, Bool.and_self,
    written.bytes]
  rfl

end Rows
end ShmFrame.Bitmap
