import Mathlib.Data.Nat.Digits.Defs
import ShmFrame.Bitmap.Rows

/-! What a reader of BMP files makes of a dumped frame: the pixels of the source, in the order
the caller asked for.
-/

namespace ShmFrame.Bitmap

open ShmFrame.Foundation

-----------------------------------------------------------------------------------------
-- Reading a BMP
-----------------------------------------------------------------------------------------

/-- The number that some bytes of a file say, the least significant one first. -/
def numberAt (file : List UInt8) (first count : Nat) : Nat :=
  Nat.ofDigits 256 (((file.drop first).take count).map UInt8.toNat)

structure Pixel where
  blue : UInt8
  green : UInt8
  red : UInt8
deriving DecidableEq

/-- The pixel whose three bytes begin somewhere. -/
def pixelAt (bytes : List UInt8) (first : Nat) : Option Pixel := do
  return { blue := ← bytes[first]?, green := ← bytes[first + 1]?, red := ← bytes[first + 2]? }

/-- The size of a row of 24-bit pixels, which ends on a four-byte boundary. -/
def bmpRowBytes (width : Nat) : Nat := (24 * width + 31) / 32 * 4

/-- Decodes one pixel of an uncompressed bottom-up 24-bit BMP, by its column and by its row
from the top.
-/
def decodeBmp (file : List UInt8) (x y : Nat) : Option Pixel :=
  let width := numberAt file 18 4
  let height := numberAt file 22 4
  if numberAt file 0 2 ≠ 0x4D42 || numberAt file 14 4 ≠ 40 || numberAt file 26 2 ≠ 1
      || numberAt file 28 2 ≠ 24 || numberAt file 30 4 ≠ 0 then none
  else if x ≥ width || y ≥ height then none
  else pixelAt file (numberAt file 10 4 + (height - 1 - y) * bmpRowBytes width + 3 * x)

/-- Three bytes that are the same in two buffers are the same pixel. -/
theorem pixelAt_same {left right : List UInt8} {first second : Nat}
    (same
      : ∀ offset < 3,
          left[first + offset]? = right[second + offset]? ∧ second + offset < right.length)
    : ∃ pixel, pixelAt left first = some pixel ∧ pixelAt right second = some pixel := by
  obtain ⟨blue, inside0⟩ := same 0 (by decide)
  obtain ⟨green, inside1⟩ := same 1 (by decide)
  obtain ⟨red, inside2⟩ := same 2 (by decide)
  refine ⟨{ blue := right[second], green := right[second + 1], red := right[second + 2] }, ?_, ?_⟩
  · simp only [Nat.add_zero] at blue inside0
    simp [pixelAt, blue, green, red, inside0, inside1, inside2]
  · simp only [Nat.add_zero] at inside0
    simp [pixelAt, inside0, inside1, inside2]

/-- The header of a dumped frame says what is there, its rows are padded with zero bytes, and
it decodes to the pixels of a source buffer.
-/
structure Decodes (bgra : List UInt8) (width height stride : Nat) (flipVertically : Bool)
    (file : List UInt8)
    : Prop where
  length : file.length = 54 + height * roundedRow width
  fileSize : numberAt file 2 4 = 54 + height * roundedRow width
  dataOffset : numberAt file 10 4 = 54
  columns : numberAt file 18 4 = width
  rows : numberAt file 22 4 = height
  planes : numberAt file 26 2 = 1
  bitDepth : numberAt file 28 2 = 24
  imageSize : numberAt file 34 4 = height * roundedRow width
  padding
    : ∀ row < height, ∀ place < roundedRow width,
        3 * width ≤ place → file[54 + row * roundedRow width + place]? = some 0
  pixels
    : ∀ x < width, ∀ y < height,
        let row := if flipVertically then y else height - 1 - y
        ∃ pixel,
          decodeBmp file x y = some pixel ∧ pixelAt bgra (row * stride + 4 * x) = some pixel

-----------------------------------------------------------------------------------------
-- The header
-----------------------------------------------------------------------------------------

/-- The four bytes that `put_u32` stores. -/
def bytesOf (v : UInt32) : List UInt8 :=
  [(v &&& 0xFF).toUInt8, ((v >>> 8) &&& 0xFF).toUInt8, ((v >>> 16) &&& 0xFF).toUInt8,
    ((v >>> 24) &&& 0xFF).toUInt8]

/-- They say the number. -/
theorem ofDigits_bytesOf (v : UInt32)
    : Nat.ofDigits 256 ((bytesOf v).map UInt8.toNat) = v.toNat := by
  have range := v.toNat_lt
  have low (n : Nat) : n &&& 255 = n % 256 := Nat.and_two_pow_sub_one_eq_mod n 8
  simp only [bytesOf, List.map_cons, List.map_nil, Nat.ofDigits_cons, Nat.ofDigits_nil,
    UInt32.toNat_toUInt8, UInt32.toNat_and, UInt32.toNat_shiftRight, UInt32.reduceToNat,
    Nat.reduceMod, Nat.shiftRight_eq_div_pow, low]
  omega

/-- The header, field by field. -/
theorem fileHeader_eq (width height pixels : UInt32)
    : fileHeader width height pixels
      = [0x42, 0x4D] ++ bytesOf (54 + pixels) ++ [0, 0, 0, 0] ++ bytesOf 54 ++ bytesOf 40
        ++ bytesOf width ++ bytesOf height ++ [1, 0] ++ [24, 0] ++ bytesOf 0 ++ bytesOf pixels
        ++ List.replicate 16 0 := by
  simp only [fileHeader, putU16, putU32, List.replicate_succ, List.replicate_zero,
    List.set_cons_succ, List.set_cons_zero, bytesOf, List.cons_append, List.nil_append]
  rfl

theorem fileHeader_length (width height pixels : UInt32)
    : (fileHeader width height pixels).length = 54 := by
  simp [fileHeader, putU16, putU32]

section Header

variable (width height pixels : UInt32) (rows : List UInt8)

/-- What the fields of the header say. -/
theorem numberAt_header
    : let file := fileHeader width height pixels ++ rows
      numberAt file 0 2 = 0x4D42
      ∧ numberAt file 2 4 = (54 + pixels).toNat
      ∧ numberAt file 10 4 = 54
      ∧ numberAt file 14 4 = 40
      ∧ numberAt file 18 4 = width.toNat
      ∧ numberAt file 22 4 = height.toNat
      ∧ numberAt file 26 2 = 1
      ∧ numberAt file 28 2 = 24
      ∧ numberAt file 30 4 = 0
      ∧ numberAt file 34 4 = pixels.toNat := by
  have fields := ofDigits_bytesOf
  simp only [bytesOf] at fields
  simp only [fileHeader_eq, numberAt, bytesOf, List.cons_append, List.nil_append,
    List.drop_succ_cons, List.drop_zero, List.take_succ_cons, List.take_zero, fields]
  exact ⟨by decide, trivial, by decide, by decide, trivial, trivial, by decide, by decide,
    by decide, trivial⟩

end Header

-----------------------------------------------------------------------------------------
-- The rows
-----------------------------------------------------------------------------------------

section Rows

variable {bgra : List UInt8} {width height stride : UInt32} {flipVertically : Bool}

/-- The formula of the format is the one of the source. -/
theorem bmpRowBytes_eq (width : Nat) : bmpRowBytes width = roundedRow width := by
  unfold bmpRowBytes roundedRow
  omega

/-- Where a byte of a row of the file is. -/
theorem file_row {header : List UInt8} {row place : Nat} (begins : header.length = 54)
    (below : row < height.toNat) (inside : place < roundedRow width.toNat)
    : (header
        ++ blocks (fileRow bgra width height stride flipVertically) height.toNat)[54
          + row * roundedRow width.toNat + place]?
      = (fileRow bgra width height stride flipVertically row)[place]? := by
  rw [List.getElem?_append_right (by omega), begins, Nat.add_assoc, Nat.add_sub_cancel_left]
  exact blocks_getElem? (fileRow_length bgra width height stride flipVertically) below inside

/-- The pixels of a row of the file are those of its source row. -/
theorem fileRow_pixel (holds : Holds bgra width height stride) (flipVertically : Bool)
    {row x : Nat} (below : row < height.toNat) (column : x < width.toNat) {offset : Nat}
    (few : offset < 3)
    : (fileRow bgra width height stride flipVertically row)[3 * x + offset]?
      = bgra[sourceRow height flipVertically row * stride.toNat + 4 * x + offset]?
      ∧ sourceRow height flipVertically row * stride.toNat + 4 * x + offset < bgra.length := by
  obtain ⟨-, inside⟩ := sourcePointer_exact holds below flipVertically
  have there
      : sourceRow height flipVertically row * stride.toNat + 4 * x + offset < bgra.length := by
    omega
  have known
      : bgra[sourceRow height flipVertically row * stride.toNat + 4 * x + offset]?
        = some (bgra.getD
            (sourceRow height flipVertically row * stride.toNat + 4 * x + offset) 0) := by
    rw [List.getD_eq_getElem?_getD, List.getElem?_eq_getElem there, Option.getD_some]
  refine ⟨?_, there⟩
  have pixels := pixelBlock_length bgra (sourceRow height flipVertically row * stride.toNat)
  have length := blocks_length pixels width.toNat
  rw [fileRow, rowBlock, List.getElem?_append_left (by omega), Nat.mul_comm 3 x,
    blocks_getElem? pixels column few, known]
  interval_cases offset <;> rfl

/-- All of a dumped frame can be decoded. -/
theorem decodes_of_rows (holds : Holds bgra width height stride) (rows : 0 < height.toNat)
    : Decodes bgra width.toNat height.toNat stride.toNat flipVertically
        (fileHeader width height (paddedRow width * height)
        ++ blocks (fileRow bgra width height stride flipVertically) height.toNat) := by
  have narrow := holds.narrow rows
  have small := holds.small
  have rounded : roundedRow width.toNat ≤ 4 * width.toNat := by
    unfold roundedRow
    omega
  have area : height.toNat * roundedRow width.toNat ≤ height.toNat * (4 * width.toNat) :=
    Nat.mul_le_mul_left _ rounded
  have product : height.toNat * (4 * width.toNat) = width.toNat * height.toNat * 4 := by ring
  have pixels : (paddedRow width * height).toNat = height.toNat * roundedRow width.toNat := by
    rw [UInt32.toNat_mul, paddedRow_exact narrow, Nat.mul_comm]
    exact Nat.mod_eq_of_lt (by omega)
  have total
      : (54 + paddedRow width * height).toNat = 54 + height.toNat * roundedRow width.toNat := by
    rw [UInt32.toNat_add, pixels]
    exact Nat.mod_eq_of_lt (by simp; omega)
  have begins := fileHeader_length width height (paddedRow width * height)
  have body :=
    blocks_length (fileRow_length bgra width height stride flipVertically) height.toNat
  obtain ⟨signature, size, offset, info, columns, lines, planes, depth, method, image⟩ :=
    numberAt_header width height (paddedRow width * height)
      (blocks (fileRow bgra width height stride flipVertically) height.toNat)
  refine ⟨by rw [List.length_append, begins, body], size.trans total, offset, columns, lines,
    planes, depth, image.trans pixels, fun row below place inside behind => ?_,
    fun x column y below => ?_⟩
  · have length := blocks_length
      (pixelBlock_length bgra (sourceRow height flipVertically row * stride.toNat)) width.toNat
    rw [file_row begins below inside, fileRow, rowBlock, List.getElem?_append_right (by omega),
      length, List.getElem?_replicate, if_pos (by omega)]
  · let row := height.toNat - 1 - y
    have there : row < height.toNat := by omega
    have decoded
        : decodeBmp
            (fileHeader width height (paddedRow width * height)
            ++ blocks (fileRow bgra width height stride flipVertically) height.toNat) x y
          = pixelAt
              (fileHeader width height (paddedRow width * height)
              ++ blocks (fileRow bgra width height stride flipVertically) height.toNat)
              (54 + row * roundedRow width.toNat + 3 * x) := by
      have outside : ¬ (width.toNat ≤ x ∨ height.toNat ≤ y) := by omega
      simp [decodeBmp, signature, offset, info, columns, lines, planes, depth, method, outside,
        bmpRowBytes_eq, row]
    have source
        : sourceRow height flipVertically row
          = if flipVertically then y else height.toNat - 1 - y := by
      unfold sourceRow
      split <;> omega
    dsimp only
    rw [decoded, ← source]
    refine pixelAt_same fun offset few => ?_
    obtain ⟨same, range⟩ := fileRow_pixel holds flipVertically there column few
    refine ⟨?_, range⟩
    rw [← same, Nat.add_assoc, file_row begins there (by unfold roundedRow; omega)]

/-- For every frame of four bytes per pixel that is small enough, every stride and both
orientations: when all writes succeed, `write_bmp_bgra` uses no index out of range, and the
file it writes decodes back to the pixels of the source.
-/
theorem writeBmpBgra_decodes {disk : Disk} (succeeds : disk.Succeeds) {width height : UInt32}
    (columns : 0 < width) (rows : 0 < height)
    (small : width.toNat * height.toNat * 4 < 2 ^ 31) {stride : UInt32}
    (wide : stride = 0 ∨ 4 * width.toNat ≤ stride.toNat) {bgra : List UInt8}
    (size
      : bgra.length = (if stride = 0 then 4 * width.toNat else stride.toNat) * height.toNat)
    (flipVertically : Bool)
    : ∃ file,
        writeBmpBgra disk (some bgra) width height stride flipVertically
          = some (true, some file)
        ∧ Decodes bgra width.toNat height.toNat
            (if stride = 0 then 4 * width.toNat else stride.toNat) flipVertically file := by
  have positive : 0 < height.toNat := UInt32.lt_iff_toNat_lt.mp rows
  have once : width.toNat * 1 ≤ width.toNat * height.toNat := Nat.mul_le_mul_left _ positive
  have used
      : (if stride = 0 then width * 4 else stride).toNat
        = if stride = 0 then 4 * width.toNat else stride.toNat := by
    split
    · rw [UInt32.toNat_mul, Nat.mul_comm]
      exact Nat.mod_eq_of_lt (by simp only [UInt32.reduceToNat]; omega)
    · rfl
  have holds : Holds bgra width height (if stride = 0 then width * 4 else stride) := by
    refine ⟨small, ?_, by rw [used, size]⟩
    rw [used]
    split
    · exact Nat.le_refl _
    · rename_i given
      exact wide.resolve_left given
  refine ⟨_, writeBmpBgra_run succeeds (UInt32.pos_iff_ne_zero.mp columns)
    (UInt32.pos_iff_ne_zero.mp rows) flipVertically holds, ?_⟩
  rw [← used]
  exact decodes_of_rows holds positive

/-- A frame of one column and two rows, upside down. -/
theorem writeBmpBgra_decodes_small
    : ∃ file,
        writeBmpBgra {} (some [1, 2, 3, 255, 4, 5, 6, 255]) 1 2 0 false = some (true, some file)
        ∧ Decodes [1, 2, 3, 255, 4, 5, 6, 255] 1 2 4 false file :=
  writeBmpBgra_decodes ⟨rfl, fun _ _ => Nat.le_refl _, rfl⟩ (by decide) (by decide) (by decide)
    (Or.inl rfl) rfl false

end Rows
end ShmFrame.Bitmap
