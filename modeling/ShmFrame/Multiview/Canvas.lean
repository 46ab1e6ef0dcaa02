import Mathlib.Algebra.Order.Group.Int
import Mathlib.Tactic.Tauto
import ShmFrame.Foundation.Loop

/-! The canvas of a view, BGRA: how it is filled with a checkerboard and how a mark is drawn on
it. An index out of range is none here, in the source it is undefined.
-/

namespace ShmFrame.Multiview

open ShmFrame.Foundation

inductive Color
  | red
  | green
  | blue
deriving DecidableEq

/-- `color_from_text`. -/
def colorFromText (s : List UInt8) : Color :=
  if s = "red".toUTF8.toList then .red
  else if s = "blue".toUTF8.toList then .blue
  else .green

/-- `random_color`, from a result of `std::rand`. -/
def randomColor (rand : Nat) : Color :=
  match rand % 3 with
  | 0 => .red
  | 1 => .green
  | _ => .blue

/-- The four bytes of a pixel in their order. -/
structure Pixel where
  b : UInt8
  g : UInt8
  r : UInt8
  a : UInt8
deriving DecidableEq

-----------------------------------------------------------------------------------------
-- The functions
-----------------------------------------------------------------------------------------

/-- `dst[offset] = byte` for a pointer into the canvas. -/
def storeByte (canvas : List UInt8) (dst : UInt64) (offset : Nat) (byte : UInt8)
    : Option (List UInt8) :=
  if dst.toNat + offset < canvas.length then some (canvas.set (dst.toNat + offset) byte) else none

def storePixel (canvas : List UInt8) (dst : UInt64) (px : Pixel) : Option (List UInt8) := do
  let canvas ← storeByte canvas dst 0 px.b
  let canvas ← storeByte canvas dst 1 px.g
  let canvas ← storeByte canvas dst 2 px.r
  storeByte canvas dst 3 px.a

/-- The three results of `std::rand` that a checkerboard depends on. -/
structure Rands where
  size : Nat
  first : Nat
  second : Nat

def checkerSize (rands : Rands) : UInt32 := 16 + UInt32.ofNat (rands.size % 64)

/-- A pixel in which one channel is set. -/
def shade (color : Color) (value : UInt8) : Pixel :=
  match color with
  | .red => ⟨0, 0, value, 255⟩
  | .green => ⟨0, value, 0, 255⟩
  | .blue => ⟨value, 0, 0, 255⟩

/-- The pixel of the checkerboard at some place. -/
def checker (color : Color) (rands : Rands) (x y : UInt32) : Pixel :=
  let size := checkerSize rands
  if (x / size + y / size) % 2 = 0 then shade color (UInt8.ofNat (32 + rands.first % 128))
  else shade color (UInt8.ofNat (96 + rands.second % 64))

/-- The inner loop of `regenerate`. -/
def regenerateRow (w : UInt32) (color : Color) (rands : Rands) (y : UInt32) (canvas : List UInt8)
    : Option (List UInt8) :=
  let body (x : UInt32) (canvas : List UInt8) :=
    storePixel canvas ((y.toUInt64 * w.toUInt64 + x.toUInt64) * 4) (checker color rands x y)
  loop (fun x => body (UInt32.ofNat x)) w.toNat canvas

/-- `regenerate`. -/
def regenerate (canvas : List UInt8) (w h : UInt32) (color : Color) (rands : Rands)
    : Option (List UInt8) :=
  loop (fun y => regenerateRow w color rands (UInt32.ofNat y)) h.toNat canvas

def kRadius : Int := 4

/-- The inner loop of `draw_mark`. -/
def markRow (w : UInt32) (x py : Int) (mark : Pixel) (canvas : List UInt8) : Option (List UInt8) :=
  let body (dx : Int) (canvas : List UInt8) :=
    let px := x + dx
    if px < 0 || px ≥ w.toNat then some canvas
    else
      storePixel canvas ((UInt64.ofNat py.toNat * w.toUInt64 + UInt64.ofNat px.toNat) * 4) mark
  loop (fun i => body (i - kRadius)) 9 canvas

/-- `draw_mark`. -/
def drawMark (canvas : List UInt8) (w h : UInt32) (x y : Int32) (r g b : UInt8)
    : Option (List UInt8) :=
  if x < 0 || y < 0 || x.toUInt32 ≥ w || y.toUInt32 ≥ h then some canvas
  else
    let body (dy : Int) (canvas : List UInt8) :=
      let py := y.toInt + dy
      if py < 0 || py ≥ h.toNat then some canvas else markRow w x.toInt py ⟨b, g, r, 255⟩ canvas
    loop (fun i => body (i - kRadius)) 9 canvas

-----------------------------------------------------------------------------------------
-- Canvases of a size
-----------------------------------------------------------------------------------------

/-- A canvas with four bytes for every pixel, and no more than there is memory for. -/
structure Sized (canvas : List UInt8) (w h : UInt32) : Prop where
  length : canvas.length = w.toNat * h.toNat * 4
  fits : w.toNat * h.toNat * 4 < 2 ^ 64

/-- The pixel with some number, row by row. -/
def pixelAt (canvas : List UInt8) (n : Nat) : Pixel :=
  ⟨canvas.getD (4 * n) 0, canvas.getD (4 * n + 1) 0, canvas.getD (4 * n + 2) 0,
    canvas.getD (4 * n + 3) 0⟩

/-- A byte that has been replaced, in range. -/
theorem getD_set {canvas : List UInt8} {index : Nat} (inside : index < canvas.length) (byte : UInt8)
    (other : Nat)
    : (canvas.set index byte).getD other 0
      = if other = index then byte else canvas.getD other 0 := by
  rw [List.getD_eq_getElem?_getD, List.getD_eq_getElem?_getD, List.getElem?_set]
  split
  · rename_i same
    subst same
    rw [if_pos rfl, Option.getD_some]
  · rename_i apart
    rw [if_neg fun same => apart same.symm]

/-- A pixel in range is stored and nothing else. -/
theorem storePixel_eq {canvas : List UInt8} {dst : UInt64} {n : Nat} (place : dst.toNat = 4 * n)
    (inside : 4 * n + 3 < canvas.length) (px : Pixel)
    : ∃ next, storePixel canvas dst px = some next
        ∧ next.length = canvas.length
        ∧ ∀ m, pixelAt next m = if m = n then px else pixelAt canvas m := by
  have stored {buffer : List UInt8} (size : buffer.length = canvas.length) {offset : Nat}
      (few : offset < 4) (byte : UInt8)
      : storeByte buffer dst offset byte = some (buffer.set (4 * n + offset) byte) := by
    rw [storeByte, if_pos (by omega), place]
  let one := canvas.set (4 * n + 0) px.b
  let two := one.set (4 * n + 1) px.g
  let three := two.set (4 * n + 2) px.r
  let four := three.set (4 * n + 3) px.a
  have oneSize : one.length = canvas.length := List.length_set
  have twoSize : two.length = canvas.length := List.length_set.trans oneSize
  have threeSize : three.length = canvas.length := List.length_set.trans twoSize
  refine ⟨four, ?_, List.length_set.trans threeSize, fun m => ?_⟩
  · rw [storePixel, stored rfl (by decide)]
    simp only [Option.bind_eq_bind, Option.bind_some]
    rw [stored oneSize (by decide), Option.bind_some, stored twoSize (by decide), Option.bind_some,
      stored threeSize (by decide)]
  · have byte (other : Nat)
        : four.getD other 0
          = if other = 4 * n + 3 then px.a
            else if other = 4 * n + 2 then px.r
            else if other = 4 * n + 1 then px.g
            else if other = 4 * n + 0 then px.b
            else canvas.getD other 0 := by
      rw [getD_set (by omega), getD_set (by omega), getD_set (by omega), getD_set (by omega)]
    by_cases same : m = n
    · subst same
      rw [if_pos rfl, pixelAt, byte, byte, byte, byte]
      simp
    · have kept (offset : Nat) (few : offset < 4)
          : four.getD (4 * m + offset) 0 = canvas.getD (4 * m + offset) 0 := by
        rw [byte, if_neg (by omega), if_neg (by omega), if_neg (by omega), if_neg (by omega)]
      have first : four.getD (4 * m) 0 = canvas.getD (4 * m) 0 := kept 0 (by decide)
      rw [if_neg same, pixelAt, pixelAt, first, kept 1 (by decide), kept 2 (by decide),
        kept 3 (by decide)]

/-- The number of a pixel, in the arithmetic of the source. -/
theorem place_toNat {w h : UInt32} (fits : w.toNat * h.toNat * 4 < 2 ^ 64) {x y : Nat}
    (column : x < w.toNat) (line : y < h.toNat)
    : ((UInt64.ofNat y * w.toUInt64 + UInt64.ofNat x) * 4).toNat = 4 * (y * w.toNat + x)
      ∧ 4 * (y * w.toNat + x) + 3 < w.toNat * h.toNat * 4 := by
  have below : y * w.toNat + x < w.toNat * h.toNat :=
    calc
      y * w.toNat + x < y * w.toNat + w.toNat := Nat.add_lt_add_left column _
      _ = (y + 1) * w.toNat := (Nat.succ_mul y w.toNat).symm
      _ ≤ h.toNat * w.toNat := Nat.mul_le_mul_right _ line
      _ = w.toNat * h.toNat := Nat.mul_comm ..
  have wide := w.toNat_lt
  have high := h.toNat_lt
  refine ⟨?_, by omega⟩
  simp only [UInt64.toNat_mul, UInt64.toNat_add, UInt64.toNat_ofNat', UInt32.toNat_toUInt64,
    UInt64.reduceToNat]
  rw [Nat.mod_eq_of_lt (by omega : y < 2 ^ 64), Nat.mod_eq_of_lt (by omega : x < 2 ^ 64),
    Nat.mod_eq_of_lt (by omega : y * w.toNat < 2 ^ 64), Nat.mod_eq_of_lt (by omega),
    Nat.mod_eq_of_lt (by omega)]
  omega

-----------------------------------------------------------------------------------------
-- The checkerboard
-----------------------------------------------------------------------------------------

/-- Pixels of different rows, and of different columns of a row, have different numbers. -/
theorem number_apart {w x x' y y' : Nat} (column : x < w) (column' : x' < w)
    (apart : y' ≠ y ∨ x' ≠ x)
    : y' * w + x' ≠ y * w + x := by
  intro same
  have row : y' = y := by
    have left : (y' * w + x') / w = y' := by
      rw [Nat.mul_comm, Nat.mul_add_div (by omega), Nat.div_eq_of_lt column', Nat.add_zero]
    have right : (y * w + x) / w = y := by
      rw [Nat.mul_comm, Nat.mul_add_div (by omega), Nat.div_eq_of_lt column, Nat.add_zero]
    rw [← left, same, right]
  rw [row] at same
  exact apart.elim (fun rows => rows row) fun columns => columns (Nat.add_left_cancel same)

/-- A pixel in range is stored, as a lemma about columns and rows. -/
theorem storePixel_at {canvas : List UInt8} {w h : UInt32} (sized : Sized canvas w h) {x y : Nat}
    (column : x < w.toNat) (line : y < h.toNat) (px : Pixel)
    : ∃ next,
        storePixel canvas ((UInt64.ofNat y * w.toUInt64 + UInt64.ofNat x) * 4) px = some next
        ∧ Sized next w h
        ∧ ∀ x' y',
            x' < w.toNat
            → pixelAt next (y' * w.toNat + x')
              = if y' = y ∧ x' = x then px else pixelAt canvas (y' * w.toNat + x') := by
  obtain ⟨place, inside⟩ := place_toNat sized.fits column line
  obtain ⟨next, stored, length, pixels⟩ := storePixel_eq place (sized.length ▸ inside) px
  refine ⟨next, stored, ⟨length.trans sized.length, sized.fits⟩, fun x' y' column' => ?_⟩
  rw [pixels]
  by_cases same : y' = y ∧ x' = x
  · rw [if_pos same, same.1, same.2, if_pos rfl]
  · rw [if_neg same, if_neg (number_apart column column' (by tauto))]

/-- One row is filled, pixel by pixel. -/
theorem regenerateRow_filled {canvas : List UInt8} {w h : UInt32} (sized : Sized canvas w h)
    (color : Color) (rands : Rands) {y : Nat} (line : y < h.toNat)
    : ∃ next, regenerateRow w color rands (UInt32.ofNat y) canvas = some next
        ∧ Sized next w h
        ∧ ∀ x y',
            x < w.toNat
            → pixelAt next (y' * w.toNat + x)
              = if y' = y then checker color rands (UInt32.ofNat x) (UInt32.ofNat y)
                else pixelAt canvas (y' * w.toNat + x) := by
  let shade (x : Nat) : Pixel := checker color rands (UInt32.ofNat x) (UInt32.ofNat y)
  let filled (count : Nat) (c : List UInt8) : Prop :=
    Sized c w h
    ∧ ∀ x y',
        x < w.toNat
        → pixelAt c (y' * w.toNat + x)
          = if y' = y ∧ x < count then shade x else pixelAt canvas (y' * w.toNat + x)
  have wide := w.toNat_lt
  have high := h.toNat_lt
  have row : ∃ next, regenerateRow w color rands (UInt32.ofNat y) canvas = some next
      ∧ filled w.toNat next := by
    refine loop_invariant filled (fun x column c ⟨sized, pixels⟩ => ?_) ⟨sized, by simp⟩
    have word : (UInt32.ofNat y).toUInt64 = UInt64.ofNat y := by
      refine UInt64.toNat_inj.mp ?_
      simp only [UInt32.toNat_toUInt64, UInt32.toNat_ofNat', UInt64.toNat_ofNat']
      omega
    have word' : (UInt32.ofNat x).toUInt64 = UInt64.ofNat x := by
      refine UInt64.toNat_inj.mp ?_
      simp only [UInt32.toNat_toUInt64, UInt32.toNat_ofNat', UInt64.toNat_ofNat']
      omega
    obtain ⟨next, stored, sized, after⟩ := storePixel_at sized column line (shade x)
    refine ⟨next, ?_, sized, fun x' y' column' => ?_⟩
    · dsimp only
      rw [word, word']
      exact stored
    rw [after x' y' column', pixels x' y' column']
    by_cases here : y' = y
    · subst here
      by_cases same : x' = x
      · subst same
        simp
      · have order : x' < x + 1 ↔ x' < x := by omega
        simp [same, order]
    · simp [here]
  obtain ⟨next, ran, sized, pixels⟩ := row
  refine ⟨next, ran, sized, fun x y' column => ?_⟩
  rw [pixels x y' column]
  exact if_congr (and_iff_left column) rfl rfl

/-- The whole canvas is filled, whatever was there before, row by row. -/
theorem regenerate_filled {canvas : List UInt8} {w h : UInt32} (sized : Sized canvas w h)
    (color : Color) (rands : Rands)
    : ∃ next, regenerate canvas w h color rands = some next
        ∧ Sized next w h
        ∧ ∀ x y,
            x < w.toNat
            → y < h.toNat
            → pixelAt next (y * w.toNat + x)
              = checker color rands (UInt32.ofNat x) (UInt32.ofNat y) := by
  let filled (count : Nat) (c : List UInt8) : Prop :=
    Sized c w h
    ∧ ∀ y < count,
        ∀ x < w.toNat,
          pixelAt c (y * w.toNat + x) = checker color rands (UInt32.ofNat x) (UInt32.ofNat y)
  obtain ⟨next, ran, sized, all⟩
      : ∃ next, regenerate canvas w h color rands = some next ∧ filled h.toNat next := by
    refine loop_invariant filled (fun y line c ⟨sized, above⟩ => ?_) ⟨sized, by simp⟩
    obtain ⟨next, ran, sized, pixels⟩ := regenerateRow_filled sized color rands line
    refine ⟨next, ran, sized, fun y' earlier x column => ?_⟩
    rw [pixels x y' column]
    split
    · rename_i same
      rw [same]
    · exact above y' (by omega) x column
  exact ⟨next, ran, sized, fun x y column line => all y line x column⟩

-----------------------------------------------------------------------------------------
-- The mark
-----------------------------------------------------------------------------------------

/-- Both coordinates of a point are coordinates of the canvas. -/
def Inside (w h : UInt32) (x y : Int32) : Prop :=
  0 ≤ x.toInt ∧ x.toInt < w.toNat ∧ 0 ≤ y.toInt ∧ y.toInt < h.toNat

instance {w h : UInt32} {x y : Int32} : Decidable (Inside w h x y) := by
  unfold Inside
  infer_instance

/-- What `draw_mark` tests first. -/
theorem inside_iff {w h : UInt32} {x y : Int32}
    : Inside w h x y ↔ ¬ (x < 0 || y < 0 || x.toUInt32 ≥ w || y.toUInt32 ≥ h) = true := by
  have unsigned (v : Int32) (positive : 0 ≤ v.toInt) : (v.toUInt32.toNat : Int) = v.toInt := by
    rw [Int32.toNat_toUInt32_of_le (Int32.le_iff_toInt_le.mpr positive)]
    exact Int.toNat_of_nonneg positive
  simp only [Bool.or_eq_true, decide_eq_true_eq, not_or, Int32.lt_iff_toInt_lt, Int32.toInt_zero,
    ge_iff_le, UInt32.le_iff_toNat_le, Inside]
  constructor
  · rintro ⟨left, right, top, bottom⟩
    have px := unsigned x left
    have py := unsigned y top
    omega
  · rintro ⟨⟨⟨left, top⟩, right⟩, bottom⟩
    have px := unsigned x (by omega)
    have py := unsigned y (by omega)
    omega

/-- One row of the mark, pixel by pixel. -/
theorem markRow_drawn {canvas : List UInt8} {w h : UInt32} (sized : Sized canvas w h) (x : Int)
    {py : Nat} (line : py < h.toNat) (mark : Pixel)
    : ∃ next, markRow w x py mark canvas = some next
        ∧ Sized next w h
        ∧ ∀ x' y',
            x' < w.toNat
            → pixelAt next (y' * w.toNat + x')
              = if y' = py ∧ x - 4 ≤ x' ∧ (x' : Int) ≤ x + 4 then mark
                else pixelAt canvas (y' * w.toNat + x') := by
  let drawn (count : Nat) (c : List UInt8) : Prop :=
    Sized c w h
    ∧ ∀ x' y',
        x' < w.toNat
        → pixelAt c (y' * w.toNat + x')
          = if y' = py ∧ x - 4 ≤ x' ∧ (x' : Int) < x - 4 + count then mark
            else pixelAt canvas (y' * w.toNat + x')
  obtain ⟨next, ran, sized, pixels⟩
      : ∃ next, markRow w x py mark canvas = some next ∧ drawn 9 next := by
    refine loop_invariant drawn (fun i few c ⟨sized, pixels⟩ => ?_) ⟨sized, fun x' y' column => ?_⟩
    · dsimp only
      split
      · rename_i outside
        simp only [Bool.or_eq_true, decide_eq_true_eq] at outside
        simp only [kRadius] at outside
        refine ⟨c, rfl, sized, fun x' y' column => ?_⟩
        rw [pixels x' y' column]
        exact if_congr (by omega) rfl rfl
      · rename_i inside
        simp only [Bool.or_eq_true, decide_eq_true_eq, not_or] at inside
        simp only [kRadius] at inside
        obtain ⟨px, at_⟩ := Int.eq_ofNat_of_zero_le (show 0 ≤ x + (i - kRadius) by
          simp only [kRadius]; omega)
        have column : px < w.toNat := by
          simp only [kRadius] at at_
          omega
        obtain ⟨next, stored, sized, after⟩ := storePixel_at sized column line mark
        refine ⟨next, ?_, sized, fun x' y' column' => ?_⟩
        · rw [at_, Int.toNat_natCast, Int.toNat_natCast]
          exact stored
        · rw [after x' y' column', pixels x' y' column']
          simp only [kRadius] at at_
          by_cases same : y' = py ∧ x' = px
          · rw [if_pos same, if_pos (by omega)]
          · rw [if_neg same]
            exact if_congr (by omega) rfl rfl
    · rw [if_neg (by omega)]
  refine ⟨next, ran, sized, fun x' y' column => ?_⟩
  rw [pixels x' y' column]
  exact if_congr (by omega) rfl rfl

/-- The mark covers a square around a point of the canvas, as far as that lies on the canvas;
around any other point there is none. Row by row.
-/
theorem drawMark_drawn {canvas : List UInt8} {w h : UInt32} (sized : Sized canvas w h)
    (x y : Int32) (r g b : UInt8)
    : ∃ next, drawMark canvas w h x y r g b = some next
        ∧ Sized next w h
        ∧ ∀ x' y',
            x' < w.toNat
            → y' < h.toNat
            → pixelAt next (y' * w.toNat + x')
              = if Inside w h x y ∧ |(x' : Int) - x.toInt| ≤ 4 ∧ |(y' : Int) - y.toInt| ≤ 4 then
                  ⟨b, g, r, 255⟩
                else pixelAt canvas (y' * w.toNat + x') := by
  by_cases within : Inside w h x y
  · let drawn (count : Nat) (c : List UInt8) : Prop :=
      Sized c w h
      ∧ ∀ x' y',
          x' < w.toNat
          → y' < h.toNat
          → pixelAt c (y' * w.toNat + x')
            = if (y.toInt - 4 ≤ y' ∧ (y' : Int) < y.toInt - 4 + count)
                  ∧ x.toInt - 4 ≤ x' ∧ (x' : Int) ≤ x.toInt + 4 then
                ⟨b, g, r, 255⟩
              else pixelAt canvas (y' * w.toNat + x')
    obtain ⟨next, ran, sized, pixels⟩
        : ∃ next, drawMark canvas w h x y r g b = some next ∧ drawn 9 next := by
      unfold drawMark
      rw [if_neg (inside_iff.mp within)]
      refine loop_invariant drawn (fun i few c ⟨sized, pixels⟩ => ?_)
        ⟨sized, fun x' y' column line => ?_⟩
      · dsimp only
        split
        · rename_i outside
          simp only [Bool.or_eq_true, decide_eq_true_eq] at outside
          simp only [kRadius] at outside
          refine ⟨c, rfl, sized, fun x' y' column line => ?_⟩
          rw [pixels x' y' column line]
          exact if_congr (by omega) rfl rfl
        · rename_i inside
          simp only [Bool.or_eq_true, decide_eq_true_eq, not_or] at inside
          simp only [kRadius] at inside
          obtain ⟨py, at_⟩ := Int.eq_ofNat_of_zero_le (show 0 ≤ y.toInt + (i - kRadius) by
            simp only [kRadius]; omega)
          have line : py < h.toNat := by
            simp only [kRadius] at at_
            omega
          obtain ⟨next, stored, sized, after⟩ := markRow_drawn sized x.toInt line ⟨b, g, r, 255⟩
          refine ⟨next, ?_, sized, fun x' y' column' line' => ?_⟩
          · rw [at_]
            exact stored
          · rw [after x' y' column', pixels x' y' column' line']
            simp only [kRadius] at at_
            by_cases same : y' = py ∧ x.toInt - 4 ≤ x' ∧ (x' : Int) ≤ x.toInt + 4
            · rw [if_pos same, if_pos (by omega)]
            · rw [if_neg same]
              exact if_congr (by omega) rfl rfl
      · rw [if_neg (by omega)]
    refine ⟨next, ran, sized, fun x' y' column line => ?_⟩
    rw [pixels x' y' column line]
    refine if_congr ?_ rfl rfl
    rw [and_iff_right within, abs_le', abs_le']
    omega
  · refine ⟨canvas, ?_, sized, fun x' y' column line => ?_⟩
    · unfold drawMark
      rw [if_pos (not_not.mp (mt inside_iff.mpr within))]
    · rw [if_neg fun marked => within marked.1]

-----------------------------------------------------------------------------------------
-- Marks on a checkerboard
-----------------------------------------------------------------------------------------

/-- A call of `draw_mark`. -/
structure Stroke where
  x : Int32
  y : Int32
  r : UInt8
  g : UInt8
  b : UInt8

def Stroke.draw (stroke : Stroke) (w h : UInt32) (canvas : List UInt8) : Option (List UInt8) :=
  drawMark canvas w h stroke.x stroke.y stroke.r stroke.g stroke.b

/-- A pixel lies in the square of a mark whose point is on the canvas. -/
def Stroke.Covers (stroke : Stroke) (w h : UInt32) (x y : Nat) : Prop :=
  Inside w h stroke.x stroke.y
  ∧ |(x : Int) - stroke.x.toInt| ≤ 4
  ∧ |(y : Int) - stroke.y.toInt| ≤ 4

instance {stroke : Stroke} {w h : UInt32} {x y : Nat} : Decidable (stroke.Covers w h x y) := by
  unfold Stroke.Covers
  infer_instance

/-- What is seen at a place after some marks: the last one that covers it, or what was there. -/
def seen (w h : UInt32) (x y : Nat) (ground : Pixel) (strokes : List Stroke) : Pixel :=
  strokes.foldl
    (fun below stroke =>
      if stroke.Covers w h x y then ⟨stroke.b, stroke.g, stroke.r, 255⟩ else below)
    ground

/-- All marks are drawn, by induction on them. -/
theorem strokes_drawn {w h : UInt32} (strokes : List Stroke) {canvas : List UInt8}
    (sized : Sized canvas w h)
    : ∃ next, strokes.foldlM (fun c stroke => stroke.draw w h c) canvas = some next
        ∧ Sized next w h
        ∧ ∀ x y,
            x < w.toNat
            → y < h.toNat
            → pixelAt next (y * w.toNat + x)
              = seen w h x y (pixelAt canvas (y * w.toNat + x)) strokes := by
  induction strokes generalizing canvas with
  | nil => exact ⟨canvas, rfl, sized, fun _ _ _ _ => rfl⟩
  | cons stroke rest ih =>
      obtain ⟨marked, drawn, size, pixels⟩ :=
        drawMark_drawn sized stroke.x stroke.y stroke.r stroke.g stroke.b
      obtain ⟨next, ran, still, after⟩ := ih size
      refine ⟨next, ?_, still, fun x y column line => ?_⟩
      · rw [List.foldlM_cons, Stroke.draw, drawn]
        exact ran
      · rw [after x y column line, pixels x y column line]
        rfl

/-- A canvas that is filled anew and then marked: nothing is out of range, nothing is seen of what
was there before, and every pixel is that of the last mark that covers it or of the checkerboard.
-/
theorem canvas_painted {canvas : List UInt8} {w h : UInt32} (sized : Sized canvas w h)
    (color : Color) (rands : Rands) (strokes : List Stroke)
    : ∃ next,
        (do
          let filled ← regenerate canvas w h color rands
          strokes.foldlM (fun c stroke => stroke.draw w h c) filled) = some next
        ∧ Sized next w h
        ∧ ∀ x y,
            x < w.toNat
            → y < h.toNat
            → pixelAt next (y * w.toNat + x)
              = seen w h x y (checker color rands (UInt32.ofNat x) (UInt32.ofNat y)) strokes := by
  obtain ⟨filled, ran, size, pixels⟩ := regenerate_filled sized color rands
  obtain ⟨next, drawn, still, after⟩ := strokes_drawn strokes size
  refine ⟨next, ?_, still, fun x y column line => ?_⟩
  · rw [ran]
    exact drawn
  · rw [after x y column line, pixels x y column line]

/-- Two marks on a canvas of two pixels, both cut off at its borders. -/
theorem canvas_painted_twice
    : ∃ next,
        (do
          let filled ← regenerate [7, 7, 7, 7, 7, 7, 7, 7] 2 1 .red ⟨0, 1, 2⟩
          [⟨0, 0, 255, 255, 0⟩, ⟨1, 0, 255, 255, 255⟩].foldlM
            (fun c (stroke : Stroke) => stroke.draw 2 1 c) filled) = some next
        ∧ Sized next 2 1
        ∧ ∀ x y,
            x < (2 : UInt32).toNat
            → y < (1 : UInt32).toNat
            → pixelAt next (y * (2 : UInt32).toNat + x)
              = seen 2 1 x y (checker .red ⟨0, 1, 2⟩ (UInt32.ofNat x) (UInt32.ofNat y))
                  [⟨0, 0, 255, 255, 0⟩, ⟨1, 0, 255, 255, 255⟩] :=
  canvas_painted ⟨rfl, by decide⟩ .red ⟨0, 1, 2⟩ _

end ShmFrame.Multiview
