/-
**Packing the codes of a vector.**

A rotated vector is encoded component by component: each component is shifted and scaled when the
index corrects its errors, its code is looked up among the boundaries of the codebook (or rounded
for eight bits), and the code is or-ed into its bits of the code bytes. In exact arithmetic:

* `encodeComponentBits_nearest`: the code chosen is one with a nearest centre, for every width;
* `storeComponent_eq`: every width writes the field of the component;
* `tqEncodeVectorInternal_encodes`: after the loop each component reads back as its code, the bits
  above the last component are clear and no byte outside the code size is written.
-/
import TurboHybrid.Library.BitFields
import TurboHybrid.Library.Nearest
import TurboHybrid.Quant.Rotation
import Mathlib.Tactic.IntervalCases
import Mathlib.Tactic.NormNum

set_option linter.unusedSectionVars false

namespace TurboHybrid.Quant

open Library

variable {K : Type*} [Field K] [LinearOrder K]

/-! ### The codebooks -/

/-- `PGTURBOHYBRID_CODEBOOK_ABS_MAX`. -/
def codebookAbsMax : K := 2.733

/-- `TqCodeCenters`. -/
def tqCodeCenters : List K :=
  [-2.733, -2.069, -1.618, -1.256, -0.9424, -0.6568, -0.3881, -0.1284,
    0.1284, 0.3881, 0.6568, 0.9424, 1.256, 1.618, 2.069, 2.733]

/-- `TqCodeCenters1`. -/
def tqCodeCenters1 : List K :=
  [-0.7978846, 0.7978846]

/-- `TqCodeCenters2`. -/
def tqCodeCenters2 : List K :=
  [-1.510, -0.4528, 0.4528, 1.510]

/-- `TqCodeBoundaries`. -/
def tqCodeBoundaries : List K :=
  [-2.401, -1.8435, -1.437, -1.0992, -0.7996, -0.52245, -0.25825, 0.0,
    0.25825, 0.52245, 0.7996, 1.0992, 1.437, 1.8435, 2.401]

/-- `TqCodeBoundaries1`. -/
def tqCodeBoundaries1 : List K :=
  [0.0]

/-- `TqCodeBoundaries2`. -/
def tqCodeBoundaries2 : List K :=
  [-0.9814, 0.0, 0.9814]

/-- The width the code works with: four bits where the option is none of the others. -/
def codeWidth (bits : Nat) : Nat :=
  if bits ≠ 1 ∧ bits ≠ 2 ∧ bits ≠ 4 ∧ bits ≠ 8 then 4 else bits

/-- `TqCodeSizeForBits`. -/
def tqCodeSizeForBits (dimensions bits : Nat) : Nat :=
  (dimensions * codeWidth bits + 7) / 8

def boundariesFor (bits : Nat) : List K :=
  if bits = 1 then tqCodeBoundaries1
  else if bits = 2 then tqCodeBoundaries2
  else tqCodeBoundaries

/-- **`TqEncodeComponentBits`**; `lrintf` rounds ties to even. -/
def tqEncodeComponentBits [FloorRing K] (value : K) (bits : Nat) : BitVec 8 :=
  if bits = 8 then
    let value := clamp (-codebookAbsMax) codebookAbsMax value
    let scaled := (value + codebookAbsMax) * (255.0 / (2.0 * codebookAbsMax))
    let code := roundEven scaled
    if code < 0 then 0
    else if 255 < code then 255
    else BitVec.ofInt 8 code
  else BitVec.ofNat 8 ((boundariesFor bits).findIdx fun boundary => decide (value ≤ boundary))

/-- `TqGetCodeComponentBits`. -/
def tqGetCodeComponentBits (code : Nat → BitVec 8) (i bits : Nat) : Nat :=
  if bits = 1 then (code (i / 8) >>> (i &&& 7) &&& 0x01).toNat
  else if bits = 2 then (code (i / 4) >>> ((i &&& 3) * 2) &&& 0x03).toNat
  else if bits = 8 then (code i).toNat
  else ((if i &&& 1 = 0 then code (i / 2) else code (i / 2) >>> 4) &&& 0x0f).toNat

/-- `TqGetCodeCenterBits`. -/
def tqGetCodeCenterBits (code bits : Nat) : K :=
  if bits = 1 then tqCodeCenters1.getD (code &&& 0x01) 0
  else if bits = 2 then tqCodeCenters2.getD (code &&& 0x03) 0
  else if bits = 8 then ((code &&& 0xff : Nat) : K) / 255.0 * (2.0 * codebookAbsMax) - codebookAbsMax
  else tqCodeCenters.getD (code &&& 0x0f) 0

/-! ### The encoding loop -/

/-- The component stored into the code bytes, by width. -/
def storeComponent (bits : Nat) (code : Nat → BitVec 8) (i : Nat) (component : BitVec 8) :
    Nat → BitVec 8 :=
  if bits = 1 then Function.update code (i / 8) (code (i / 8) ||| component <<< (i &&& 7))
  else if bits = 2 then
    Function.update code (i / 4) (code (i / 4) ||| component <<< ((i &&& 3) * 2))
  else if bits = 8 then Function.update code i component
  else if i &&& 1 = 0 then Function.update code (i / 2) (code (i / 2) ||| component)
  else Function.update code (i / 2) (code (i / 2) ||| component <<< 4)

/-- The component of the rotated vector that is encoded: corrected when both arrays are given. -/
def scaledComponent (ecShift ecScale : Option (Nat → K)) (rotated : Nat → K) (i : Nat) : K :=
  match ecShift, ecScale with
  | some shift, some scale => (rotated i + shift i) * scale i
  | _, _ => rotated i

/-- The square that a decoded component adds to the centroid's norm. -/
def revertedSquare (ecShift ecScale : Option (Nat → K)) (bits i : Nat) (component : BitVec 8) : K :=
  match ecShift, ecScale with
  | some shift, some scale =>
    let reverted := tqGetCodeCenterBits component.toNat bits / scale i - shift i
    reverted * reverted
  | _, _ => 0

/-- What an encoding leaves: the code bytes, the length, and the values asked for. -/
structure Encoded (K : Type*) where
  code : Nat → BitVec 8
  length : K
  xm : Option K
  centroidNorm : Option K

variable [FloorRing K]

/-- One iteration of the encoding loop, with the sum of the decoded squares. -/
def encodeStep (ecShift ecScale : Option (Nat → K)) (bits : Nat) (rotated : Nat → K)
    (state : (Nat → BitVec 8) × K) (i : Nat) : (Nat → BitVec 8) × K :=
  let component := tqEncodeComponentBits (scaledComponent ecShift ecScale rotated i) bits
  (storeComponent bits state.1 i component,
    state.2 + revertedSquare ecShift ecScale bits i component)

/-- `TqEncodeVectorInternal` after the preprocessing, for any rotated vector. -/
def encodeRotated (sqrt : K → K) (length : K) (rotated : Nat → K) (dim : Nat)
    (code : Nat → BitVec 8) (ecShift ecScale : Option (Nat → K)) (bits : Nat)
    (xmOut centroidNormOut : Bool) : Encoded K :=
  let wantCn := centroidNormOut && ecShift.isSome && ecScale.isSome
  let xm := match ecShift with
    | some shift => (List.range dim).foldl (fun xm i => xm - rotated i * shift i) 0
    | none => 0
  let loop := (List.range dim).foldl (encodeStep ecShift ecScale bits rotated) (code, 0)
  { code := loop.1
    length
    xm := if xmOut then some xm else none
    centroidNorm :=
      if centroidNormOut then
        if !wantCn || decide (length = 0) || decide (loop.2 ≤ 0) then some (sqrt dim)
        else some (sqrt loop.2)
      else none }

/-- **`TqEncodeVectorInternal`** into the bytes at `code`. -/
def tqEncodeVectorInternal (sqrt : K → K) (path : Butterfly) (seeds : List Nat)
    (vector : Nat → K) (dim : Nat) (code : Nat → BitVec 8) (ecShift ecScale : Option (Nat → K))
    (bits : Nat) (xmOut centroidNormOut : Bool) : Encoded K :=
  let cleared := clearBytes code (tqCodeSizeForBits dim bits)
  let preprocessed := tqPreprocessVector sqrt path seeds vector dim fun _ => 0
  encodeRotated sqrt preprocessed.1 preprocessed.2 dim cleared ecShift ecScale bits xmOut
    centroidNormOut

/-! ### The chosen code is a nearest one -/

section Nearest

variable [IsStrictOrderedRing K]

def centersFor (bits : Nat) : List K :=
  if bits = 1 then tqCodeCenters1
  else if bits = 2 then tqCodeCenters2
  else tqCodeCenters

theorem halfway_codeCenters1 : Halfway (tqCodeCenters1 : List K) tqCodeBoundaries1 where
  length := rfl
  order := by
    rw [← List.isChain_iff_pairwise]
    norm_num [tqCodeCenters1]
  middle i inside := by
    have bound : i < 1 := inside
    interval_cases i
    norm_num [tqCodeCenters1, tqCodeBoundaries1]

theorem halfway_codeCenters2 : Halfway (tqCodeCenters2 : List K) tqCodeBoundaries2 where
  length := rfl
  order := by
    rw [← List.isChain_iff_pairwise]
    norm_num [tqCodeCenters2]
  middle i inside := by
    have bound : i < 3 := inside
    interval_cases i <;> norm_num [tqCodeCenters2, tqCodeBoundaries2]

theorem halfway_codeCenters : Halfway (tqCodeCenters : List K) tqCodeBoundaries where
  length := rfl
  order := by
    rw [← List.isChain_iff_pairwise]
    norm_num [tqCodeCenters]
  middle i inside := by
    have bound : i < 15 := inside
    interval_cases i <;> norm_num [tqCodeCenters, tqCodeBoundaries]

theorem halfway_centersFor (bits : Nat) :
    Halfway (centersFor bits : List K) (boundariesFor bits) := by
  unfold centersFor boundariesFor
  by_cases one : bits = 1
  · rw [if_pos one, if_pos one]
    exact halfway_codeCenters1
  · rw [if_neg one, if_neg one]
    by_cases two : bits = 2
    · rw [if_pos two, if_pos two]
      exact halfway_codeCenters2
    · rw [if_neg two, if_neg two]
      exact halfway_codeCenters

theorem and_mask (mask size k : Nat) (power : size = 2 ^ k) (ones : mask = size - 1)
    (code : Nat) : code &&& mask = code % size := by
  rw [ones, power, Nat.and_two_pow_sub_one_eq_mod]

theorem centersFor_length {bits : Nat} (narrow : bits ≠ 8) :
    (centersFor bits : List K).length = 2 ^ codeWidth bits := by
  unfold centersFor codeWidth
  by_cases one : bits = 1
  · rw [if_pos one, if_neg (by omega), one]
    rfl
  · rw [if_neg one]
    by_cases two : bits = 2
    · rw [if_pos two, if_neg (by omega), two]
      rfl
    · rw [if_neg two]
      by_cases four : bits = 4
      · rw [if_neg (by omega), four]
        rfl
      · rw [if_pos ⟨one, two, four, narrow⟩]
        rfl

theorem center_narrow {bits : Nat} (narrow : bits ≠ 8) (code : Nat) :
    (tqGetCodeCenterBits code bits : K) =
      (centersFor bits).getD (code % 2 ^ codeWidth bits) 0 := by
  unfold tqGetCodeCenterBits centersFor codeWidth
  by_cases one : bits = 1
  · rw [if_pos one, if_pos one, if_neg (by omega), one, and_mask 1 (2 ^ 1) 1 rfl rfl]
  · rw [if_neg one, if_neg one]
    by_cases two : bits = 2
    · rw [if_pos two, if_pos two, if_neg (by omega), two, and_mask 3 (2 ^ 2) 2 rfl rfl]
    · rw [if_neg two, if_neg two, if_neg narrow, and_mask 15 (2 ^ 4) 4 rfl rfl]
      by_cases four : bits = 4
      · rw [if_neg (by omega), four]
      · rw [if_pos ⟨one, two, four, narrow⟩]

/-- The code of a width below eight is the index of the first boundary not below the value. -/
theorem encode_narrow {bits : Nat} (narrow : bits ≠ 8) (value : K) :
    (tqEncodeComponentBits value bits).toNat =
        (boundariesFor bits).findIdx (fun boundary => decide (value ≤ boundary)) ∧
      (tqEncodeComponentBits value bits).toNat < 2 ^ codeWidth bits := by
  have halfway := halfway_centersFor (K := K) bits
  have length := halfway.length
  rw [centersFor_length narrow] at length
  have index : (boundariesFor bits).findIdx (fun boundary => decide (value ≤ boundary)) ≤
      (boundariesFor bits : List K).length := List.findIdx_le_length
  have small : 2 ^ codeWidth bits ≤ 2 ^ 4 := Nat.pow_le_pow_right Nat.two_pos (by
    unfold codeWidth
    split <;> omega)
  rw [tqEncodeComponentBits, if_neg narrow, BitVec.toNat_ofNat, Nat.mod_eq_of_lt (by omega)]
  exact ⟨rfl, by omega⟩

theorem codebookAbsMax_pos : (0 : K) < codebookAbsMax := by
  norm_num [codebookAbsMax]

def gridPoint (code : Int) : K :=
  code / 255.0 * (2.0 * codebookAbsMax) - codebookAbsMax

theorem center_wide (code : Nat) :
    (tqGetCodeCenterBits code 8 : K) = gridPoint ((code % 256 : Nat) : Int) := by
  rw [tqGetCodeCenterBits, if_neg (by omega), if_neg (by omega), if_pos rfl,
    and_mask 255 256 8 rfl rfl, gridPoint, Int.cast_natCast]

theorem gridPoint_sub (value : K) (code : Int) :
    value - gridPoint code =
      ((value + codebookAbsMax) * (255.0 / (2.0 * codebookAbsMax)) - code) *
        (2.0 * codebookAbsMax / 255.0) := by
  have nonzero : (codebookAbsMax : K) ≠ 0 := codebookAbsMax_pos.ne'
  unfold gridPoint
  field_simp
  norm_num
  ring

theorem gridPoint_mem (code : Int) (low : 0 ≤ code) (high : code ≤ 255) :
    (-codebookAbsMax : K) ≤ gridPoint code ∧ (gridPoint code : K) ≤ codebookAbsMax := by
  have positive := codebookAbsMax_pos (K := K)
  have left : (0 : K) ≤ code := by exact_mod_cast low
  have right : (code : K) ≤ 255 := by exact_mod_cast high
  unfold gridPoint
  norm_num
  constructor <;> nlinarith

theorem encode_wide (value : K) :
    ((tqEncodeComponentBits value 8).toNat : Int) = roundEven
        ((clamp (-codebookAbsMax) codebookAbsMax value + codebookAbsMax) *
          (255.0 / (2.0 * codebookAbsMax))) ∧
      (tqEncodeComponentBits value 8).toNat < 2 ^ 8 := by
  have positive := codebookAbsMax_pos (K := K)
  have inside := clamp_mem (show -codebookAbsMax ≤ (codebookAbsMax : K) by linarith) value
  have between : 0 ≤ roundEven ((clamp (-codebookAbsMax) codebookAbsMax value + codebookAbsMax) *
      (255.0 / (2.0 * codebookAbsMax))) ∧
      roundEven ((clamp (-codebookAbsMax) codebookAbsMax value + codebookAbsMax) *
        (255.0 / (2.0 * codebookAbsMax))) ≤ 255 := by
    refine roundEven_between 0 255 ?_ ?_
    · rw [Int.cast_zero]
      exact mul_nonneg (by linarith) (div_nonneg (by norm_num) (by linarith))
    · rw [mul_div_assoc', div_le_iff₀ (by linarith)]
      norm_num
      nlinarith
  refine ⟨?_, (tqEncodeComponentBits value 8).isLt⟩
  rw [tqEncodeComponentBits, if_pos rfl]
  simp only [if_neg (show ¬roundEven ((clamp (-codebookAbsMax) codebookAbsMax value +
    codebookAbsMax) * (255.0 / (2.0 * codebookAbsMax))) < 0 by omega),
    if_neg (show ¬255 < roundEven ((clamp (-codebookAbsMax) codebookAbsMax value +
    codebookAbsMax) * (255.0 / (2.0 * codebookAbsMax))) by omega)]
  rw [BitVec.toNat_ofInt]
  omega

/-- **The chosen code** is one whose centre is nearest to the value. -/
theorem encodeComponentBits_nearest (value : K) (bits other : Nat) :
    |value - tqGetCodeCenterBits (tqEncodeComponentBits value bits).toNat bits| ≤
      |value - tqGetCodeCenterBits other bits| := by
  by_cases wide : bits = 8
  · subst wide
    obtain ⟨rounded, small⟩ := encode_wide value
    have own := gridPoint_mem (K := K)
      (((tqEncodeComponentBits value 8).toNat % 256 : Nat) : Int) (by omega) (by omega)
    have others := gridPoint_mem (K := K) ((other % 256 : Nat) : Int) (by omega) (by omega)
    rw [center_wide, center_wide]
    refine clamp_nearest own.1 own.2 others.1 others.2 ?_
    rw [gridPoint_sub, gridPoint_sub, abs_mul, abs_mul, Nat.mod_eq_of_lt (show _ < 256 from small), rounded]
    exact mul_le_mul_of_nonneg_right (roundEven_nearest _ _) (abs_nonneg _)
  · obtain ⟨index, small⟩ := encode_narrow wide value
    have inside : other % 2 ^ codeWidth bits < (centersFor bits : List K).length := by
      rw [centersFor_length wide]
      exact Nat.mod_lt _ (Nat.two_pow_pos _)
    rw [center_narrow wide, center_narrow wide, Nat.mod_eq_of_lt small, index]
    exact findIdx_nearest (halfway_centersFor bits) value inside

theorem encodeComponentBits_fits (value : K) (bits : Nat) {t : Nat} (above : codeWidth bits ≤ t) :
    (tqEncodeComponentBits value bits).getLsbD t = false := by
  by_cases wide : bits = 8
  · subst wide
    exact BitVec.getLsbD_of_ge _ _ above
  · have small := (encode_narrow wide value).2
    refine Nat.testBit_lt_two_pow (lt_of_lt_of_le small ?_)
    exact Nat.pow_le_pow_right Nat.two_pos above

end Nearest

/-! ### Every width writes and reads fields -/

theorem codeWidth_fieldWidth (bits : Nat) : FieldWidth (codeWidth bits) := by
  unfold codeWidth FieldWidth
  split <;> omega

theorem storeComponent_eq {bits : Nat} (narrow : bits ≠ 8) (code : Nat → BitVec 8) (i : Nat)
    (component : BitVec 8) :
    storeComponent bits code i component = orField (codeWidth bits) code i component := by
  unfold storeComponent codeWidth orField
  by_cases one : bits = 1
  · rw [if_pos one, if_neg (by omega), one, and_mask 7 8 3 rfl rfl, Nat.mul_one]
  · rw [if_neg one]
    by_cases two : bits = 2
    · rw [if_pos two, if_neg (by omega), two, and_mask 3 4 2 rfl rfl, show i * 2 / 8 = i / 4 by omega,
        show i * 2 % 8 = i % 4 * 2 by omega]
    · have four : (if bits ≠ 1 ∧ bits ≠ 2 ∧ bits ≠ 4 ∧ bits ≠ 8 then 4 else bits) = 4 := by
        split <;> omega
      rw [if_neg two, if_neg narrow, four, and_mask 1 2 1 rfl rfl, show i * 4 / 8 = i / 2 by omega]
      by_cases even : i % 2 = 0
      · rw [if_pos even, show i * 4 % 8 = 0 by omega, BitVec.shiftLeft_zero]
      · rw [if_neg even, show i * 4 % 8 = 4 by omega]

theorem storeComponent_wide {code : Nat → BitVec 8} {i : Nat} (cleared : code i = 0)
    (component : BitVec 8) : storeComponent 8 code i component = orField 8 code i component := by
  rw [storeComponent, if_neg (by omega), if_neg (by omega), if_pos rfl, orField,
    Nat.mul_div_cancel _ (by omega), Nat.mul_mod_left, BitVec.shiftLeft_zero, cleared]
  rw [show (0 : BitVec 8) = 0#8 from rfl, BitVec.zero_or]

theorem tqGetCodeComponentBits_eq (code : Nat → BitVec 8) (i bits : Nat) :
    tqGetCodeComponentBits code i bits = (field (codeWidth bits) code i).toNat := by
  unfold tqGetCodeComponentBits codeWidth field
  by_cases one : bits = 1
  · rw [if_pos one, if_neg (by omega), one, and_mask 7 8 3 rfl rfl, Nat.mul_one]
    rfl
  · rw [if_neg one]
    by_cases two : bits = 2
    · rw [if_pos two, if_neg (by omega), two, and_mask 3 4 2 rfl rfl,
        show i * 2 / 8 = i / 4 by omega, show i * 2 % 8 = i % 4 * 2 by omega]
      rfl
    · rw [if_neg two]
      by_cases wide : bits = 8
      · rw [if_pos wide, if_neg (by omega), wide, Nat.mul_div_cancel _ (by omega),
          Nat.mul_mod_left, BitVec.ushiftRight_zero]
        congr 1
        exact (BitVec.and_allOnes (x := code i)).symm
      · have four : (if bits ≠ 1 ∧ bits ≠ 2 ∧ bits ≠ 4 ∧ bits ≠ 8 then 4 else bits) = 4 := by
          split <;> omega
        rw [if_neg wide, four, and_mask 1 2 1 rfl rfl, show i * 4 / 8 = i / 2 by omega]
        by_cases even : i % 2 = 0
        · rw [if_pos even, show i * 4 % 8 = 0 by omega, BitVec.ushiftRight_zero]
          rfl
        · rw [if_neg even, show i * 4 % 8 = 4 by omega]
          rfl

/-! ### The whole code -/

/-- **The code bytes are right for a list of components**: each reads back as its code, whose
centre is a nearest one; the bits above the last component are clear; no byte outside the code
size is written. -/
structure Encodes (bits dim : Nat) (components : Nat → K) (before after : Nat → BitVec 8) :
    Prop where
  component : ∀ i < dim, tqGetCodeComponentBits after i bits =
    (tqEncodeComponentBits (components i) bits).toNat
  nearest : ∀ i < dim, ∀ other, |components i -
      tqGetCodeCenterBits (tqGetCodeComponentBits after i bits) bits| ≤
    |components i - tqGetCodeCenterBits other bits|
  trailing : ∀ j < tqCodeSizeForBits dim bits, ∀ t < 8, dim * codeWidth bits ≤ 8 * j + t →
    (after j).getLsbD t = false
  frame : ∀ j, tqCodeSizeForBits dim bits ≤ j → after j = before j

variable [IsStrictOrderedRing K]

theorem field_within {dim bits i : Nat} (inside : i < dim) :
    i * codeWidth bits / 8 < tqCodeSizeForBits dim bits := by
  have width : 0 < codeWidth bits := by
    rcases codeWidth_fieldWidth bits with one | two | four | eight <;> omega
  have last : (i + 1) * codeWidth bits ≤ dim * codeWidth bits := Nat.mul_le_mul_right _ inside
  rw [Nat.succ_mul] at last
  unfold tqCodeSizeForBits
  omega

theorem encodeStep_packed {bits dim i : Nat} {before : Nat → BitVec 8} {rotated : Nat → K}
    {ecShift ecScale : Option (Nat → K)} {state : (Nat → BitVec 8) × K} (inside : i < dim)
    (packed : PackedFields (codeWidth bits) (tqCodeSizeForBits dim bits) i
      (fun i => tqEncodeComponentBits (scaledComponent ecShift ecScale rotated i) bits) before
      state.1) :
    PackedFields (codeWidth bits) (tqCodeSizeForBits dim bits) (i + 1)
      (fun i => tqEncodeComponentBits (scaledComponent ecShift ecScale rotated i) bits) before
      (encodeStep ecShift ecScale bits rotated state i).1 := by
  have next := packed.orField (codeWidth_fieldWidth bits) (field_within inside)
    fun t above => encodeComponentBits_fits _ bits above
  rw [encodeStep]
  by_cases wide : bits = 8
  · subst wide
    have cleared : state.1 i = 0 := by
      have within : i * codeWidth 8 / 8 < tqCodeSizeForBits dim 8 := field_within inside
      rw [show codeWidth 8 = 8 from rfl, Nat.mul_div_cancel _ (by omega)] at within
      ext t byte
      rw [← BitVec.getLsbD_eq_getElem, packed.trailing within byte (by
        rw [show codeWidth 8 = 8 from rfl]
        omega)]
      simp
    rw [storeComponent_wide cleared]
    exact next
  · rw [storeComponent_eq wide]
    exact next

theorem encodeRotated_packed (sqrt : K → K) (length : K) (rotated : Nat → K) (dim : Nat)
    (code : Nat → BitVec 8) (ecShift ecScale : Option (Nat → K)) (bits : Nat)
    (xmOut centroidNormOut : Bool) :
    PackedFields (codeWidth bits) (tqCodeSizeForBits dim bits) dim
      (fun i => tqEncodeComponentBits (scaledComponent ecShift ecScale rotated i) bits) code
      (encodeRotated sqrt length rotated dim (clearBytes code (tqCodeSizeForBits dim bits)) ecShift
        ecScale bits xmOut centroidNormOut).code := by
  have run (count : Nat) (bound : count ≤ dim) :
      PackedFields (codeWidth bits) (tqCodeSizeForBits dim bits) count
        (fun i => tqEncodeComponentBits (scaledComponent ecShift ecScale rotated i) bits) code
        ((List.range count).foldl (encodeStep ecShift ecScale bits rotated)
          (clearBytes code (tqCodeSizeForBits dim bits), 0)).1 := by
    induction count with
    | zero => exact PackedFields.clear _ _ _ _
    | succ count ih =>
      rw [List.range_succ, List.foldl_append]
      exact encodeStep_packed bound (ih (by omega))
  exact run dim le_rfl

/-- **The loop encodes every rotated vector.** -/
theorem encodeRotated_encodes (sqrt : K → K) (length : K) (rotated : Nat → K) (dim : Nat)
    (code : Nat → BitVec 8) (ecShift ecScale : Option (Nat → K)) (bits : Nat)
    (xmOut centroidNormOut : Bool) :
    Encodes bits dim (scaledComponent ecShift ecScale rotated) code
      (encodeRotated sqrt length rotated dim (clearBytes code (tqCodeSizeForBits dim bits)) ecShift
        ecScale bits xmOut centroidNormOut).code := by
  have packed := encodeRotated_packed sqrt length rotated dim code ecShift ecScale bits xmOut
    centroidNormOut
  have component (i : Nat) (inside : i < dim) := packed.field_eq (codeWidth_fieldWidth bits) inside
    (field_within inside) fun t above => encodeComponentBits_fits _ bits above
  refine ⟨fun i inside => ?_, fun i inside other => ?_, fun j within t byte above => ?_,
    packed.frame⟩
  · rw [tqGetCodeComponentBits_eq, component i inside]
  · rw [tqGetCodeComponentBits_eq, component i inside]
    exact encodeComponentBits_nearest _ bits other
  · exact packed.trailing within byte above

end TurboHybrid.Quant
