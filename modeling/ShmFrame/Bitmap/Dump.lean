import ShmFrame.Foundation.Loop

/-! `write_bmp_bgra`: a BGRA buffer is written out as a 24-bit BMP, row by row through one
buffer. An index out of range is none here, in the source it is undefined.
-/

namespace ShmFrame.Bitmap

open ShmFrame.Foundation

-----------------------------------------------------------------------------------------
-- The file
-----------------------------------------------------------------------------------------

/-- What the system does: whether the file can be opened, how many bytes it accepts of each
`fwrite`, and whether the last flush succeeds.
-/
structure Disk where
  opens : Bool := true
  accepted : Nat → Nat → Nat := fun _ size => size
  flushes : Bool := true

/-- Every single call succeeds. -/
structure Disk.Succeeds (disk : Disk) : Prop where
  opens : disk.opens = true
  accepted : ∀ call size, size ≤ disk.accepted call size
  flushes : disk.flushes = true

/-- A file that is being written. -/
structure File where
  bytes : List UInt8 := []
  writes : Nat := 0

/-- `fwrite(data, 1, size, f) == size`, and what the file holds then. -/
def Disk.fwrite (disk : Disk) (f : File) (data : List UInt8) : File × Bool :=
  let count := min (disk.accepted f.writes data.length) data.length
  ({ bytes := f.bytes ++ data.take count, writes := f.writes + 1 }, count = data.length)

/-- A write that succeeds appends its bytes. -/
theorem Disk.Succeeds.fwrite {disk : Disk} (succeeds : disk.Succeeds) (f : File)
    (data : List UInt8)
    : disk.fwrite f data = ({ bytes := f.bytes ++ data, writes := f.writes + 1 }, true) := by
  have all := succeeds.accepted f.writes data.length
  simp [Disk.fwrite, Nat.min_eq_right all]

-----------------------------------------------------------------------------------------
-- The header
-----------------------------------------------------------------------------------------

def putU16 (p : List UInt8) (first : Nat) (v : UInt16) : List UInt8 :=
  (p.set first (v &&& 0xFF).toUInt8).set (first + 1) ((v >>> 8) &&& 0xFF).toUInt8

def putU32 (p : List UInt8) (first : Nat) (v : UInt32) : List UInt8 :=
  let p := (p.set first (v &&& 0xFF).toUInt8).set (first + 1) ((v >>> 8) &&& 0xFF).toUInt8
  (p.set (first + 2) ((v >>> 16) &&& 0xFF).toUInt8).set (first + 3) ((v >>> 24) &&& 0xFF).toUInt8

/-- The header in front of the pixels. -/
def fileHeader (width height pixels : UInt32) : List UInt8 :=
  let offset : UInt32 := 54
  let hdr := ((List.replicate 54 0).set 0 'B'.toNat.toUInt8).set 1 'M'.toNat.toUInt8
  let hdr := putU32 hdr 2 (offset + pixels)
  let hdr := putU32 hdr 10 offset
  let hdr := putU32 hdr 14 40
  let hdr := putU32 hdr 18 width
  let hdr := putU32 hdr 22 height
  let hdr := putU16 hdr 26 1
  let hdr := putU16 hdr 28 24
  let hdr := putU32 hdr 30 0
  putU32 hdr 34 pixels

-----------------------------------------------------------------------------------------
-- The rows
-----------------------------------------------------------------------------------------

/-- `s[index]` for a pointer into the source buffer. -/
def load (bgra : List UInt8) (s : UInt64) (index : UInt32) : Option UInt8 :=
  bgra[s.toNat + index.toNat]?

/-- `row[index] = byte`. -/
def store (row : List UInt8) (index : UInt32) (byte : UInt8) : Option (List UInt8) :=
  if index.toNat < row.length then some (row.set index.toNat byte) else none

/-- The body of the inner loop: three bytes of a pixel, without its alpha. -/
def copyPixel (bgra : List UInt8) (s : UInt64) (x : UInt32) (row : List UInt8)
    : Option (List UInt8) := do
  let row ← store row (x * 3 + 0) (← load bgra s (x * 4 + 0))
  let row ← store row (x * 3 + 1) (← load bgra s (x * 4 + 1))
  store row (x * 3 + 2) (← load bgra s (x * 4 + 2))

/-- What the outer loop carries along: the row buffer, the file, and whether all writes have
succeeded so far.
-/
structure Writing where
  row : List UInt8
  file : File
  ok : Bool

/-- The body of the outer loop, which ends early after a write that failed. -/
def writeRow (disk : Disk) (bgra : List UInt8) (width height stride : UInt32)
    (flipVertically : Bool) (i : UInt32) (w : Writing)
    : Option Writing := do
  if !w.ok then return w
  let y := if flipVertically then height - 1 - i else i
  let s := y.toUInt64 * stride.toUInt64
  let row ← loop (fun x => copyPixel bgra s (UInt32.ofNat x)) width.toNat w.row
  let (file, ok) := disk.fwrite w.file row
  return { row, file, ok }

/-- The size of a row in the file, in the arithmetic of the source. -/
def paddedRow (width : UInt32) : UInt32 :=
  let rowBytes := width * 3
  let padding := (4 - rowBytes % 4) % 4
  rowBytes + padding

/-- `write_bmp_bgra`: what it returns, and the bytes in the file if one was opened. `bgra` is
none for a null pointer.
-/
def writeBmpBgra (disk : Disk) (bgra : Option (List UInt8)) (width height stride : UInt32)
    (flipVertically : Bool)
    : Option (Bool × Option (List UInt8)) := do
  let some bgra := bgra | return (false, none)
  if width = 0 || height = 0 then return (false, none)
  let stride := if stride = 0 then width * 4 else stride
  let pixels := paddedRow width * height
  if !disk.opens then return (false, none)
  let (file, ok) := disk.fwrite {} (fileHeader width height pixels)
  let row := List.replicate (paddedRow width).toNat 0
  let body (i : Nat) := writeRow disk bgra width height stride flipVertically (UInt32.ofNat i)
  let w ← loop body height.toNat { row, file, ok }
  return (w.ok && disk.flushes, some w.file.bytes)

end ShmFrame.Bitmap
