import Mathlib.Data.Nat.Bitwise

/-! The application protocol of the multiview example: names and sizes that producer and consumers
share, the opcodes of their commands, and how command payloads are packed.
-/

namespace ShmFrame.Multiview

-----------------------------------------------------------------------------------------
-- What both sides agree on
-----------------------------------------------------------------------------------------

def kSlotCount : Nat := 32
def kChannelPrefix : String := "llshmframe_multiview_"
def kDefaultWidth : UInt32 := 960
def kDefaultHeight : UInt32 := 540
def kMaxWidth : UInt32 := 1920
def kMaxHeight : UInt32 := 1080
def kControlChannelName : String := "llshmframe_multiview_control"

inductive Opcode
  | kSetUrl
  | kMouseMove
  | kMouseButton
  | kResize
  | kRequestSlot
  | kSlotAssigned
  | kSlotUnavailable
deriving DecidableEq

def Opcode.code : Opcode → UInt32
  | .kSetUrl => 1
  | .kMouseMove => 2
  | .kMouseButton => 3
  | .kResize => 4
  | .kRequestSlot => 5
  | .kSlotAssigned => 6
  | .kSlotUnavailable => 7

-----------------------------------------------------------------------------------------
-- Payloads
-----------------------------------------------------------------------------------------

/-- The bytes of a signed word, by arithmetic shifts. -/
def putI32 (v : Int32) : List UInt8 :=
  [v.toUInt32.toUInt8, (v >>> 8).toUInt32.toUInt8, (v >>> 16).toUInt32.toUInt8,
    (v >>> 24).toUInt32.toUInt8]

/-- The bytes of an unsigned word. -/
def putU32 (v : UInt32) : List UInt8 :=
  [v.toUInt8, (v >>> 8).toUInt8, (v >>> 16).toUInt8, (v >>> 24).toUInt8]

/-- The word at some offset; a byte that is not there is never asked for. -/
def getU32 (d : List UInt8) (off : Nat) : UInt32 :=
  let byte (i : Nat) : UInt32 := (d.getD (off + i) 0).toUInt32
  byte 0 ||| (byte 1 <<< 8) ||| (byte 2 <<< 16) ||| (byte 3 <<< 24)

def getI32 (d : List UInt8) (off : Nat) : Int32 := (getU32 d off).toInt32

/-- What each of the functions writes to its buffer, whose length it returns. -/
def packI32x2 (x y : Int32) : List UInt8 := putI32 x ++ putI32 y

def unpackI32x2 (d : List UInt8) : Option (Int32 × Int32) :=
  if d.length < 8 then none else some (getI32 d 0, getI32 d 4)

def packMouseButton (x y : Int32) (button action : UInt8) : List UInt8 :=
  packI32x2 x y ++ [button, action]

def unpackMouseButton (d : List UInt8) : Option (Int32 × Int32 × UInt8 × UInt8) := do
  if d.length < 10 then none
  let (x, y) ← unpackI32x2 d
  return (x, y, d.getD 8 0, d.getD 9 0)

def packSize (w h : UInt32) : List UInt8 := putU32 w ++ putU32 h

def unpackSize (d : List UInt8) : Option (UInt32 × UInt32) :=
  if d.length < 8 then none else some (getU32 d 0, getU32 d 4)

def packU32 (v : UInt32) : List UInt8 := putU32 v

def unpackU32 (d : List UInt8) : Option UInt32 :=
  if d.length < 4 then none else some (getU32 d 0)

-----------------------------------------------------------------------------------------
-- Packing and unpacking undo each other
-----------------------------------------------------------------------------------------

/-- Four bytes, combined by shifts, are the digits of the word. -/
theorem combine_toNat (a b c d : UInt8)
    : (a.toUInt32 ||| (b.toUInt32 <<< 8) ||| (c.toUInt32 <<< 16) ||| (d.toUInt32 <<< 24)).toNat
      = a.toNat + 2 ^ 8 * b.toNat + 2 ^ 16 * c.toNat + 2 ^ 24 * d.toNat := by
  have aSmall := a.toNat_lt
  have bSmall := b.toNat_lt
  have cSmall := c.toNat_lt
  have dSmall := d.toNat_lt
  have shifted (v : UInt8) (bits : Nat) (few : bits ≤ 24)
      : v.toNat <<< bits % 2 ^ 32 = 2 ^ bits * v.toNat := by
    have small := v.toNat_lt
    have bound : 2 ^ bits * v.toNat < 2 ^ 32 :=
      calc
        2 ^ bits * v.toNat < 2 ^ bits * 2 ^ 8 :=
          Nat.mul_lt_mul_of_pos_left small (Nat.two_pow_pos bits)
        _ ≤ 2 ^ 24 * 2 ^ 8 := Nat.mul_le_mul_right _ (Nat.pow_le_pow_right (by decide) few)
        _ = 2 ^ 32 := by decide
    rw [Nat.shiftLeft_eq, Nat.mul_comm, Nat.mod_eq_of_lt bound]
  -- Bits that lie above those there are already are added.
  have joined {low : Nat} (v : UInt8) (bits : Nat) (below : low < 2 ^ bits)
      : low ||| 2 ^ bits * v.toNat = low + 2 ^ bits * v.toNat := by
    have added := Nat.shiftLeft_add_eq_or_of_lt below v.toNat
    rw [Nat.shiftLeft_eq, Nat.mul_comm] at added
    rw [Nat.or_comm, ← added, Nat.add_comm]
  have one : (b.toUInt32 <<< 8).toNat = 2 ^ 8 * b.toNat := shifted b 8 (by decide)
  have two : (c.toUInt32 <<< 16).toNat = 2 ^ 16 * c.toNat := shifted c 16 (by decide)
  have three : (d.toUInt32 <<< 24).toNat = 2 ^ 24 * d.toNat := shifted d 24 (by decide)
  rw [UInt32.toNat_or, UInt32.toNat_or, UInt32.toNat_or, one, two, three, UInt8.toNat_toUInt32,
    joined b 8 (by omega), joined c 16 (by omega), joined d 24 (by omega)]

/-- The bytes of a word give the word. -/
theorem getU32_putU32 (v : UInt32) (front rest : List UInt8)
    : getU32 (front ++ putU32 v ++ rest) front.length = v := by
  have byte (i : Nat) : (front ++ putU32 v ++ rest).getD (front.length + i) 0
      = (putU32 v ++ rest).getD i 0 := by
    rw [List.append_assoc, List.getD_append_right _ _ _ _ (Nat.le_add_right _ _),
      Nat.add_sub_cancel_left]
  have whole := v.toNat_lt
  refine UInt32.toNat_inj.mp ?_
  simp only [getU32, byte]
  refine (combine_toNat ..).trans ?_
  change v.toUInt8.toNat + 2 ^ 8 * (v >>> 8).toUInt8.toNat + 2 ^ 16 * (v >>> 16).toUInt8.toNat
    + 2 ^ 24 * (v >>> 24).toUInt8.toNat = v.toNat
  simp only [UInt32.toNat_toUInt8, UInt32.toNat_shiftRight, Nat.shiftRight_eq_div_pow]
  change v.toNat % 2 ^ 8 + 2 ^ 8 * (v.toNat / 2 ^ 8 % 2 ^ 8)
    + 2 ^ 16 * (v.toNat / 2 ^ 16 % 2 ^ 8) + 2 ^ 24 * (v.toNat / 2 ^ 24 % 2 ^ 8) = v.toNat
  omega

/-- The word of four bytes gives the bytes. -/
theorem putU32_combine (a b c d : UInt8)
    : putU32
        (a.toUInt32 ||| (b.toUInt32 <<< 8) ||| (c.toUInt32 <<< 16) ||| (d.toUInt32 <<< 24))
      = [a, b, c, d] := by
  have value := combine_toNat a b c d
  have aSmall := a.toNat_lt
  have bSmall := b.toNat_lt
  have cSmall := c.toNat_lt
  have dSmall := d.toNat_lt
  generalize
    a.toUInt32 ||| (b.toUInt32 <<< 8) ||| (c.toUInt32 <<< 16) ||| (d.toUInt32 <<< 24) = v
    at value ⊢
  have digit (bits : UInt32) (e : UInt8)
      (same : v.toNat / 2 ^ (bits.toNat % 32) % 2 ^ 8 = e.toNat)
      : (v >>> bits).toUInt8 = e := by
    refine UInt8.toNat_inj.mp ?_
    rw [UInt32.toNat_toUInt8, UInt32.toNat_shiftRight, Nat.shiftRight_eq_div_pow]
    exact same
  have first : v.toUInt8 = a := by
    refine UInt8.toNat_inj.mp ?_
    rw [UInt32.toNat_toUInt8, value]
    omega
  have second : (v >>> 8).toUInt8 = b :=
    digit 8 b (show v.toNat / 2 ^ 8 % 2 ^ 8 = b.toNat by rw [value]; omega)
  have third : (v >>> 16).toUInt8 = c :=
    digit 16 c (show v.toNat / 2 ^ 16 % 2 ^ 8 = c.toNat by rw [value]; omega)
  have fourth : (v >>> 24).toUInt8 = d :=
    digit 24 d (show v.toNat / 2 ^ 24 % 2 ^ 8 = d.toNat by rw [value]; omega)
  rw [putU32, first, second, third, fourth]

/-- An arithmetic shift has the same low bytes as a logical one. -/
theorem low_sshiftRight (v : BitVec 32) {bits : Nat} (few : bits ≤ 24)
    : (v.sshiftRight bits).setWidth 8 = (v >>> bits).setWidth 8 := by
  ext i below
  have inside : ¬ 32 ≤ i := by omega
  have low : bits + i < 32 := by omega
  simp [BitVec.getLsbD_sshiftRight, inside, low]

/-- Signed words are packed like unsigned ones. -/
theorem putI32_eq (v : Int32) : putI32 v = putU32 v.toUInt32 := by
  have second : (v >>> 8).toUInt32.toUInt8 = (v.toUInt32 >>> 8).toUInt8 :=
    UInt8.toBitVec_inj.mp (low_sshiftRight v.toBitVec (by decide))
  have third : (v >>> 16).toUInt32.toUInt8 = (v.toUInt32 >>> 16).toUInt8 :=
    UInt8.toBitVec_inj.mp (low_sshiftRight v.toBitVec (by decide))
  have fourth : (v >>> 24).toUInt32.toUInt8 = (v.toUInt32 >>> 24).toUInt8 :=
    UInt8.toBitVec_inj.mp (low_sshiftRight v.toBitVec (by decide))
  rw [putI32, putU32, second, third, fourth]

theorem getI32_putI32 (v : Int32) (front rest : List UInt8)
    : getI32 (front ++ putI32 v ++ rest) front.length = v := by
  rw [putI32_eq, getI32, getU32_putU32]
  rfl

/-- The bytes at some offset are those of the word there. -/
theorem take_putU32 {d : List UInt8} {off : Nat} (room : off + 4 ≤ d.length)
    : (d.drop off).take 4 = putU32 (getU32 d off) := by
  have byte (i : Nat) : d.getD (off + i) 0 = (d.drop off).getD i 0 := by
    rw [List.getD_eq_getElem?_getD, List.getD_eq_getElem?_getD, List.getElem?_drop]
  have enough : 4 ≤ (d.drop off).length := by
    rw [List.length_drop]
    omega
  simp only [getU32, byte]
  match d.drop off, enough with
  | a :: b :: c :: e :: rest, _ => exact (putU32_combine a b c e).symm

/-- Two words in a row. -/
theorem take_putU32_putU32 {d : List UInt8} (room : 8 ≤ d.length)
    : d.take 8 = putU32 (getU32 d 0) ++ putU32 (getU32 d 4) := by
  have first : (d.drop 0).take 4 = _ := take_putU32 (by omega)
  have second : (d.drop 4).take 4 = _ := take_putU32 (by omega)
  rw [← first, ← second, List.drop_zero, ← List.take_add]

/-- Payloads of some kind: packing takes so many bytes, unpacking undoes it and does not look at
what follows, what unpacks was packed, and only what is too short does not unpack.
-/
structure Codec {Value : Type} (pack : Value → List UInt8)
    (unpack : List UInt8 → Option Value) (size : Nat)
    : Prop where
  length : ∀ value, (pack value).length = size
  unpack_pack : ∀ value rest, unpack (pack value ++ rest) = some value
  pack_unpack : ∀ d value, unpack d = some value → d.take size = pack value
  short : ∀ d, unpack d = none ↔ d.length < size

/-- Two signed words. -/
theorem codec_i32x2 : Codec (fun (x, y) => packI32x2 x y) unpackI32x2 8 := by
  refine {
    length := fun _ => rfl
    unpack_pack := fun (x, y) rest => ?_
    pack_unpack := fun d (x, y) unpacked => ?_
    short := fun d => ?_
  }
  · have enough : ¬ (packI32x2 x y ++ rest).length < 8 := by
      rw [List.length_append]
      exact Nat.not_lt.mpr (Nat.le_add_right 8 _)
    have first : getI32 (packI32x2 x y ++ rest) 0 = x := by
      rw [packI32x2, List.append_assoc]
      exact getI32_putI32 x [] _
    have second : getI32 (packI32x2 x y ++ rest) 4 = y := getI32_putI32 y (putI32 x) rest
    rw [unpackI32x2, if_neg enough, first, second]
  · unfold unpackI32x2 at unpacked
    split at unpacked
    · cases unpacked
    · cases unpacked
      dsimp only
      rw [packI32x2, putI32_eq, putI32_eq]
      exact take_putU32_putU32 (by omega)
  · unfold unpackI32x2
    split <;> simp_all

/-- Two signed words, a button and an action. -/
theorem codec_mouseButton
    : Codec (fun (x, y, button, action) => packMouseButton x y button action)
        unpackMouseButton 10 := by
  refine {
    length := fun _ => rfl
    unpack_pack := fun (x, y, button, action) rest => ?_
    pack_unpack := fun d (x, y, button, action) unpacked => ?_
    short := fun d => ?_
  }
  · have enough : ¬ (packMouseButton x y button action ++ rest).length < 10 := by
      rw [List.length_append]
      exact Nat.not_lt.mpr (Nat.le_add_right 10 _)
    have words : unpackI32x2 (packMouseButton x y button action ++ rest) = some (x, y) := by
      rw [packMouseButton, List.append_assoc]
      exact codec_i32x2.unpack_pack (x, y) _
    rw [unpackMouseButton, if_neg enough, words]
    rfl
  · unfold unpackMouseButton at unpacked
    split at unpacked
    · cases unpacked
    rename_i enough
    obtain ⟨⟨x', y'⟩, words, rest⟩ := Option.bind_eq_some_iff.mp unpacked
    cases rest
    have front := codec_i32x2.pack_unpack d (x, y) words
    have last (i : Nat) (inside : i < d.length) : d[i]? = some (d.getD i 0) := by
      rw [List.getD_eq_getElem?_getD, List.getElem?_eq_getElem inside, Option.getD_some]
    rw [show (10 : Nat) = 8 + 1 + 1 from rfl, List.take_add_one, List.take_add_one, front,
      last 8 (by omega), last (8 + 1) (by omega), List.append_assoc]
    rfl
  · unfold unpackMouseButton
    split
    · simp_all
    · rename_i enough
      have words : unpackI32x2 d ≠ none := fun none_ =>
        absurd ((codec_i32x2.short d).mp none_) (by omega)
      cases unpacked : unpackI32x2 d with
      | none => exact absurd unpacked words
      | some value => simp_all

/-- Two unsigned words. -/
theorem codec_size : Codec (fun (w, h) => packSize w h) unpackSize 8 := by
  refine {
    length := fun _ => rfl
    unpack_pack := fun (w, h) rest => ?_
    pack_unpack := fun d (w, h) unpacked => ?_
    short := fun d => ?_
  }
  · have enough : ¬ (packSize w h ++ rest).length < 8 := by
      rw [List.length_append]
      exact Nat.not_lt.mpr (Nat.le_add_right 8 _)
    have first : getU32 (packSize w h ++ rest) 0 = w := by
      rw [packSize, List.append_assoc]
      exact getU32_putU32 w [] _
    have second : getU32 (packSize w h ++ rest) 4 = h := getU32_putU32 h (putU32 w) rest
    rw [unpackSize, if_neg enough, first, second]
  · unfold unpackSize at unpacked
    split at unpacked
    · cases unpacked
    · cases unpacked
      exact take_putU32_putU32 (by omega)
  · unfold unpackSize
    split <;> simp_all

/-- One unsigned word. -/
theorem codec_u32 : Codec packU32 unpackU32 4 := by
  refine {
    length := fun _ => rfl
    unpack_pack := fun v rest => ?_
    pack_unpack := fun d v unpacked => ?_
    short := fun d => ?_
  }
  · have enough : ¬ (packU32 v ++ rest).length < 4 := by
      rw [List.length_append]
      exact Nat.not_lt.mpr (Nat.le_add_right 4 _)
    rw [unpackU32, if_neg enough]
    exact congrArg some (getU32_putU32 v [] rest)
  · unfold unpackU32 at unpacked
    split at unpacked
    · cases unpacked
    · rename_i enough
      cases unpacked
      have word : (d.drop 0).take 4 = _ := take_putU32 (by omega)
      exact word
  · unfold unpackU32
    split <;> simp_all

/-- All four kinds of payloads. -/
theorem payloads_roundTrip
    : Codec (fun (x, y) => packI32x2 x y) unpackI32x2 8
      ∧ Codec (fun (x, y, button, action) => packMouseButton x y button action)
          unpackMouseButton 10
      ∧ Codec (fun (w, h) => packSize w h) unpackSize 8
      ∧ Codec packU32 unpackU32 4 :=
  ⟨codec_i32x2, codec_mouseButton, codec_size, codec_u32⟩

end ShmFrame.Multiview
