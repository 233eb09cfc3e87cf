/-
**The weighted kernels between two codes.**

The distance of two encoded nodes multiplies the codebook values of each component with a weight of
the component. The vector kernels take the values of the codebook rounded to bytes and weights
rounded to sixteen bits, sixteen or thirty-two components at a time; the scalar kernel takes the
centres and the scales of the correction themselves.

* `expandPacked4_eq`, `expandPacked2_eq`: the expanded bytes are the codebook values;
* `Loaded.exact`: no lane of sixteen or thirty-two bits overflows, for any weights;
* `CcKernel.Fits.rawAvx2_eq`, `rawAvx512_eq`: a vector kernel gives the sum over the components;
* `weightedKernels_exact`: all of it for every dimension and both widths of a code;
* `weightedKernels_scalar`: the scalar kernel gives another sum.
-/
import TurboHybrid.Quant.SplitKernels
import Mathlib.Data.Int.ModEq

namespace TurboHybrid.Quant

open Finset Library TurboHybrid.Library.Lanes

/-! ### The codebook of two bits -/

/-- `PgturbohybridGraphCodebook2I8`. -/
def codebook2I8 : List Int := [-127, -38, 38, 127, 0, 0, 0, 0, 0, 0, 0, 0, 0, 0, 0, 0]

/-- `PgturbohybridGraphCodebook2PairEvenI8`: the lower component of a half byte. -/
def codebook2PairEvenI8 : List Int :=
  [-127, -38, 38, 127, -127, -38, 38, 127, -127, -38, 38, 127, -127, -38, 38, 127]

/-- `PgturbohybridGraphCodebook2PairOddI8`: the upper component of a half byte. -/
def codebook2PairOddI8 : List Int :=
  [-127, -127, -127, -127, -38, -38, -38, -38, 38, 38, 38, 38, 127, 127, 127, 127]

/-- The width of a component; the weighted scorer has two of them. -/
inductive CodeBits where
  | two
  | four
  deriving DecidableEq, Repr

def CodeBits.bits : CodeBits → Nat
  | two => 2
  | four => 4

def CodeBits.centreI8 (width : CodeBits) (code : Nat → BitVec 8) (i : Nat) : Int :=
  match width with
  | .two => codebook2I8.getD (tqGetCodeComponentBits code i 2) 0
  | .four => codeI8 code i

/-! ### Registers -/

def mullo16 (one other : Register) : Register := fun lane => wrap 16 (one lane * other lane)

def add64 (one other : Register) : Register := fun lane => wrap 64 (one lane + other lane)

/-- `PgturbohybridGraphExpandPacked4Avx2`. -/
def expandPacked4 (code : Nat → BitVec 8) : Register := fun lane =>
  codebookI8.getD (unpack code lane).toNat 0

/-- `PgturbohybridGraphExpandPacked2Avx2`: each half byte gives two components. -/
def expandPacked2 (code : Nat → BitVec 8) : Register := fun lane =>
  let pairIdx := (unpack code (lane / 2)).toNat
  if lane % 2 = 0 then codebook2PairEvenI8.getD pairIdx 0 else codebook2PairOddI8.getD pairIdx 0

/-- What a kernel is compiled for: its components to a chunk, the expansion of a chunk's bytes, and
the constants of its tail. -/
structure CcKernel where
  lanes : Nat
  expand : (Nat → BitVec 8) → Register
  stride : Nat
  tailAdd : Nat
  tailDiv : Nat

/-- `PgturbohybridGraphCodeCodeWeightedRawAvx2` and `…CodeCode2WeightedRawAvx2`. -/
def CodeBits.avx2 : CodeBits → CcKernel
  | two => ⟨16, expandPacked2, 4, 3, 4⟩
  | four => ⟨16, expandPacked4, 8, 1, 2⟩

/-- `PgturbohybridGraphExpandPacked4x32Avx512` and `…Packed2x32Avx512`: two expansions side by
side. -/
def expandPair (expand : (Nat → BitVec 8) → Register) (stride : Nat) (code : Nat → BitVec 8) :
    Register := fun lane =>
  if lane < 16 then expand code lane else expand (fun i => code (stride + i)) (lane - 16)

/-- `PgturbohybridGraphCodeCodeWeightedRawAvx512` and `…CodeCode2WeightedRawAvx512`. -/
def CodeBits.avx512 : CodeBits → CcKernel
  | two => ⟨32, expandPair expandPacked2 4, 8, 3, 4⟩
  | four => ⟨32, expandPair expandPacked4 8, 16, 1, 2⟩

/-! ### The kernels -/

structure Loaded where
  ca : Register
  cb : Register
  w : Register

/-- The first entries of an array, copied into zeros. -/
def scratch {E : Type*} (empty : E) (count : Nat) (source : Nat → E) : Nat → E := fun i =>
  if i < count then source i else empty

section Kernel

variable (kernel : CcKernel) (a b : Nat → BitVec 8) (weights : Nat → BitVec 16)

def CcKernel.chunk (chunk : Nat) : Loaded :=
  { ca := kernel.expand fun i => a (chunk * kernel.stride + i)
    cb := kernel.expand fun i => b (chunk * kernel.stride + i)
    w := fun lane => (weights (chunk * kernel.lanes + lane)).toInt }

/-- The components after the whole chunks, by way of the scratch arrays. -/
def CcKernel.tail (dim : Nat) : Loaded :=
  let chunks := dim / kernel.lanes
  let tailDims := dim - chunks * kernel.lanes
  let tailBytes := (tailDims + kernel.tailAdd) / kernel.tailDiv
  { ca := kernel.expand (scratch 0 tailBytes fun i => a (chunks * kernel.stride + i))
    cb := kernel.expand (scratch 0 tailBytes fun i => b (chunks * kernel.stride + i))
    w := fun lane => (scratch 0 tailDims (fun lane => weights (chunks * kernel.lanes + lane))
      lane).toInt }

/-- The products of the codebook values and the weights, added in pairs. -/
def Loaded.products (loaded : Loaded) : Register := madd16 (mullo16 loaded.ca loaded.cb) loaded.w

/-- `PgturbohybridGraphWeightedDotI8x16Avx2`. -/
def weightedDotI8x16 (loaded : Loaded) : Register :=
  let pw := loaded.products
  add64 pw fun lane => pw (4 + lane)

/-- `PgturbohybridGraphHorizontalSumI64Avx2`. -/
def horizontalSumI64 (v : Register) : Int :=
  wrap 64 (wrap 64 (wrap 64 (v 0 + v 1) + v 2) + v 3)

/-- **The AVX2 kernel.** -/
def CcKernel.rawAvx2 (dim : Nat) : Int :=
  let acc := (List.range (dim / kernel.lanes)).foldl (fun acc chunk =>
    add64 acc (weightedDotI8x16 (kernel.chunk a b weights chunk))) zero
  let acc := if dim - dim / kernel.lanes * kernel.lanes ≠ 0 then
      add64 acc (weightedDotI8x16 (kernel.tail a b weights dim))
    else acc
  horizontalSumI64 acc

/-- `PgturbohybridGraphWeightedDotI8x32Avx512`, with
`PgturbohybridGraphHorizontalSumI32x16Avx512`. -/
def weightedDotI8x32 (loaded : Loaded) : Int :=
  (List.range 16).foldl (fun sum i => wrap 64 (sum + loaded.products i)) 0

/-- **The AVX-512 kernel.** -/
def CcKernel.rawAvx512 (dim : Nat) : Int :=
  let acc := (List.range (dim / kernel.lanes)).foldl (fun acc chunk =>
    wrap 64 (acc + weightedDotI8x32 (kernel.chunk a b weights chunk))) 0
  if dim - dim / kernel.lanes * kernel.lanes ≠ 0 then
    wrap 64 (acc + weightedDotI8x32 (kernel.tail a b weights dim))
  else acc

end Kernel

/-! ### The scalar kernel and the weights -/

section Scalar

variable {K : Type*} [Field K] [LinearOrder K]

/-- **`PgturbohybridGraphCodeCodeWeightedRawScalar`**; `epsilon` is `FLT_EPSILON`. -/
def codeCodeWeightedRawScalar (epsilon : K) (a b : Nat → BitVec 8) (dimensions bits : Nat)
    (ecScale : Option (Nat → K)) : K :=
  match ecScale with
  | none => 0
  | some ecScale => (List.range dimensions).foldl (fun acc i =>
      let centerA := tqGetCodeCenterBits (tqGetCodeComponentBits a i bits) bits
      let centerB := tqGetCodeCenterBits (tqGetCodeComponentBits b i bits) bits
      let s := ecScale i
      if |s| ≤ epsilon then acc else acc + centerA * centerB * (1 / (s * s))) 0

def dPrimeSq (epsilon : K) (ecScale : Nat → K) (i : Nat) : K :=
  if epsilon < |ecScale i| then 1 / (ecScale i * ecScale i) else 0

def dPrimeSqMax (epsilon : K) (ecScale : Nat → K) (dimensions : Nat) : K :=
  (List.range dimensions).foldl (fun largest i =>
    if epsilon < |ecScale i| ∧ largest < 1 / (ecScale i * ecScale i) then
      1 / (ecScale i * ecScale i) else largest) 0

/-- `state->weightScale`. -/
def weightScale (epsilon : K) (ecScale : Nat → K) (dimensions : Nat) : K :=
  if epsilon < dPrimeSqMax epsilon ecScale dimensions then
    ((32767 : Nat) - 1) / dPrimeSqMax epsilon ecScale dimensions
  else 1

/-- `round`: to the nearest integer, halves away from zero. -/
def roundAway [FloorRing K] (value : K) : Int :=
  if 0 ≤ value then ⌊value + 1 / (2 : Nat)⌋ else ⌈value - 1 / (2 : Nat)⌉

/-- `state->dPrimeSqI16`. -/
def dPrimeSqI16 [FloorRing K] (epsilon : K) (ecScale : Nat → K) (dimensions i : Nat) : BitVec 16 :=
  let q := roundAway (dPrimeSq epsilon ecScale i * weightScale epsilon ecScale dimensions)
  let q := if q < 0 then 0 else q
  BitVec.ofInt 16 (if 32767 - 1 < q then 32767 - 1 else q)

end Scalar

/-! ### Sums in two's complement -/

theorem wrap_modEq (bits : Nat) (value : Int) : wrap bits value ≡ value [ZMOD 2 ^ bits] := by
  have whole := wrap_add_overflow bits value
  exact (Int.modEq_iff_add_fac.mpr ⟨overflow bits value, whole.symm⟩)

theorem wrap_congr {bits : Nat} {one other : Int} (same : one ≡ other [ZMOD 2 ^ bits]) :
    wrap bits one = wrap bits other := by
  have same : one % ((2 ^ bits : Nat) : Int) = other % ((2 ^ bits : Nat) : Int) := by
    push_cast
    exact same
  rw [wrap, wrap, ← Int.emod_bmod, same, Int.emod_bmod]

theorem foldl_modEq {bits : Nat} (step : Int → Nat → Int) (terms : Nat → Int)
    (adds : ∀ acc i, step acc i ≡ acc + terms i [ZMOD 2 ^ bits]) (start : Int) (count : Nat) :
    (List.range count).foldl step start ≡ start + ∑ i ∈ range count, terms i [ZMOD 2 ^ bits] := by
  induction count with
  | zero => rw [List.range_zero, List.foldl_nil, sum_range_zero, add_zero]
  | succ count ih =>
    rw [List.range_succ, List.foldl_append, List.foldl_cons, List.foldl_nil, sum_range_succ,
      ← add_assoc]
    exact (adds _ _).trans (ih.add_right _)

theorem wrap_foldl (terms : Nat → Int) (count : Nat) :
    wrap 64 ((List.range count).foldl (fun acc i => wrap 64 (acc + terms i)) 0) =
      (List.range count).foldl (fun acc i => wrap 64 (acc + terms i)) 0 := by
  cases count with
  | zero => rfl
  | succ count =>
    rw [List.range_succ, List.foldl_append, List.foldl_cons, List.foldl_nil, wrap_wrap]

theorem sum_modEq {bits count : Nat} {one other : Nat → Int}
    (same : ∀ i < count, one i ≡ other i [ZMOD 2 ^ bits]) :
    ∑ i ∈ range count, one i ≡ ∑ i ∈ range count, other i [ZMOD 2 ^ bits] := by
  induction count with
  | zero => rfl
  | succ count ih =>
    rw [sum_range_succ, sum_range_succ]
    exact (ih fun i before => same i (before.trans_le (Nat.le_succ _))).add
      (same count (Nat.lt_succ_self _))

theorem foldl_lane (step : Register → Nat → Register) (lane : Nat) (stepLane : Int → Nat → Int)
    (reads : ∀ acc i, step acc i lane = stepLane (acc lane) i) (start : Register) (count : Nat) :
    (List.range count).foldl step start lane =
      (List.range count).foldl stepLane (start lane) := by
  induction count with
  | zero => rfl
  | succ count ih =>
    rw [List.range_succ, List.foldl_append, List.foldl_append, List.foldl_cons, List.foldl_cons,
      List.foldl_nil, List.foldl_nil, reads, ih]

/-! ### No lane overflows -/

theorem weight_bound (weight : BitVec 16) : |weight.toInt| ≤ 32768 := by
  have low := BitVec.le_toInt weight
  have high := BitVec.toInt_lt (x := weight)
  rw [abs_le]
  omega

def Loaded.term (loaded : Loaded) (i : Nat) : Int := loaded.ca i * loaded.cb i * loaded.w i

/-- **No overflow**: the products fit lanes of sixteen bits, and the pairs of weighted products
lanes of thirty-two. -/
def Loaded.Exact (loaded : Loaded) : Prop :=
  ∀ lane, mullo16 loaded.ca loaded.cb lane = loaded.ca lane * loaded.cb lane ∧
    loaded.products lane = loaded.term (2 * lane) + loaded.term (2 * lane + 1)

structure Loaded.Bounded (loaded : Loaded) : Prop where
  ca : ∀ i, |loaded.ca i| ≤ 127
  cb : ∀ i, |loaded.cb i| ≤ 127
  w : ∀ i, |loaded.w i| ≤ 32768

section Exact

variable {loaded : Loaded}

theorem centres_bound {one other : Int} (first : |one| ≤ 127) (second : |other| ≤ 127) :
    |one * other| ≤ 16129 := by
  rw [abs_mul]
  exact mul_le_mul first second (abs_nonneg _) (by decide)

theorem weighted_bound {product weight : Int} (first : |product| ≤ 16129)
    (second : |weight| ≤ 32768) : |product * weight| ≤ 528515072 := by
  rw [abs_mul]
  exact mul_le_mul first second (abs_nonneg _) (by decide)

theorem Loaded.Bounded.term (bounded : loaded.Bounded) (i : Nat) :
    |loaded.term i| ≤ 528515072 :=
  weighted_bound (centres_bound (bounded.ca i) (bounded.cb i)) (bounded.w i)

/-- **No lane overflows** on codebook bytes and weights. -/
theorem Loaded.exact (bounded : loaded.Bounded) : loaded.Exact := by
  have product (lane : Nat) :
      mullo16 loaded.ca loaded.cb lane = loaded.ca lane * loaded.cb lane :=
    wrap_eq_of_abs (by decide)
      ((centres_bound (bounded.ca lane) (bounded.cb lane)).trans_lt (by decide))
  intro lane
  refine ⟨product lane, ?_⟩
  rw [Loaded.products, madd16, product, product]
  have pair : |loaded.term (2 * lane) + loaded.term (2 * lane + 1)| ≤ 528515072 + 528515072 :=
    (abs_add_le _ _).trans (add_le_add (bounded.term _) (bounded.term _))
  exact wrap_eq_of_abs (by decide) (pair.trans_lt (by decide))

theorem products_sum (exact_ : loaded.Exact) (count : Nat) :
    ∑ lane ∈ range count, loaded.products lane = ∑ i ∈ range (2 * count), loaded.term i := by
  rw [← sum_blocks loaded.term 2 count]
  refine sum_congr rfl fun lane _ => ?_
  rw [(exact_ lane).2, sum_range_succ, sum_range_one]
  rfl

theorem weightedDotI8x16_sum (exact_ : loaded.Exact) :
    ∑ lane ∈ range 4, (loaded.products lane + loaded.products (4 + lane)) =
      ∑ i ∈ range 16, loaded.term i := by
  rw [sum_add_distrib, ← sum_range_add]
  exact products_sum exact_ 8

theorem weightedDotI8x32_sum (exact_ : loaded.Exact) :
    weightedDotI8x32 loaded ≡ ∑ i ∈ range 32, loaded.term i [ZMOD 2 ^ 64] := by
  have loop := foldl_modEq (fun sum i => wrap 64 (sum + loaded.products i)) loaded.products
    (fun _ _ => wrap_modEq _ _) 0 16
  rw [zero_add, products_sum exact_ 16] at loop
  exact loop

end Exact

/-! ### The expanded bytes -/

theorem getD_bound {codebook : List Int} (all : ∀ value ∈ codebook, |value| ≤ 127) (i : Nat) :
    |codebook.getD i 0| ≤ 127 := by
  rcases Nat.lt_or_ge i codebook.length with inside | outside
  · rw [List.getD_eq_getElem _ _ inside]
    exact all _ (List.getElem_mem inside)
  · rw [List.getD_eq_default _ _ outside]
    decide

theorem codebookI8_bound (i : Nat) : |codebookI8.getD i 0| ≤ 127 := getD_bound (by decide) i

theorem codebook2I8_bound (i : Nat) : |codebook2I8.getD i 0| ≤ 127 := getD_bound (by decide) i

theorem expandPacked4_bound (code : Nat → BitVec 8) (lane : Nat) :
    |expandPacked4 code lane| ≤ 127 :=
  codebookI8_bound _

theorem expandPacked2_bound (code : Nat → BitVec 8) (lane : Nat) :
    |expandPacked2 code lane| ≤ 127 := by
  simp only [expandPacked2]
  split_ifs
  · exact getD_bound (by decide) _
  · exact getD_bound (by decide) _

theorem CodeBits.centreI8_bound (width : CodeBits) (code : Nat → BitVec 8) (i : Nat) :
    |width.centreI8 code i| ≤ 127 := by
  cases width with
  | two => exact codebook2I8_bound _
  | four => exact codebookI8_bound _

/-- **Four bits**: each half byte is a component. -/
theorem expandPacked4_eq (code : Nat → BitVec 8) (lane : Nat) :
    expandPacked4 code lane = CodeBits.four.centreI8 code lane := by
  rw [expandPacked4, unpack_eq]
  rfl

theorem pair_tables : ∀ nibble < 16,
    codebook2PairEvenI8.getD nibble 0 = codebook2I8.getD (nibble % 4) 0 ∧
      codebook2PairOddI8.getD nibble 0 = codebook2I8.getD (nibble / 4) 0 := by
  decide

theorem component_four (code : Nat → BitVec 8) (i : Nat) :
    tqGetCodeComponentBits code i 4 =
      ((if i % 2 = 0 then code (i / 2) else code (i / 2) >>> 4) &&& 0x0f).toNat := by
  rw [tqGetCodeComponentBits, if_neg (by decide), if_neg (by decide), if_neg (by decide),
    Nat.and_one_is_mod]

theorem component_shift (code : Nat → BitVec 8) (i : Nat) :
    tqGetCodeComponentBits code i 2 = (code (i / 4) >>> (i % 4 * 2) &&& 0x03).toNat := by
  rw [tqGetCodeComponentBits, if_neg (by decide), if_pos rfl,
    show i &&& 3 = i % 4 from Nat.and_two_pow_sub_one_eq_mod i 2]

theorem component_two (code : Nat → BitVec 8) (i : Nat) :
    tqGetCodeComponentBits code i 2 =
      if i % 2 = 0 then tqGetCodeComponentBits code (i / 2) 4 % 4
      else tqGetCodeComponentBits code (i / 2) 4 / 4 := by
  have byte : i / 2 / 2 = i / 4 := by omega
  have halves : ∀ value : BitVec 8, (value >>> 0 &&& 0x03).toNat = (value &&& 0x0f).toNat % 4 ∧
      (value >>> 2 &&& 0x03).toNat = (value &&& 0x0f).toNat / 4 ∧
      (value >>> 4 &&& 0x03).toNat = (value >>> 4 &&& 0x0f).toNat % 4 ∧
      (value >>> 6 &&& 0x03).toNat = (value >>> 4 &&& 0x0f).toNat / 4 := by
    decide +kernel
  obtain ⟨first, second, third, fourth⟩ := halves (code (i / 4))
  have which : i % 4 = 0 ∨ i % 4 = 1 ∨ i % 4 = 2 ∨ i % 4 = 3 := by omega
  rw [component_shift, component_four, byte]
  rcases which with place | place | place | place
  · rw [place, if_pos (show i % 2 = 0 by omega), if_pos (show i / 2 % 2 = 0 by omega)]
    exact first
  · rw [place, if_neg (show ¬i % 2 = 0 by omega), if_pos (show i / 2 % 2 = 0 by omega)]
    exact second
  · rw [place, if_pos (show i % 2 = 0 by omega), if_neg (show ¬i / 2 % 2 = 0 by omega)]
    exact third
  · rw [place, if_neg (show ¬i % 2 = 0 by omega), if_neg (show ¬i / 2 % 2 = 0 by omega)]
    exact fourth

/-- **Two bits**: each half byte is a pair of components. -/
theorem expandPacked2_eq (code : Nat → BitVec 8) (lane : Nat) :
    expandPacked2 code lane = CodeBits.two.centreI8 code lane := by
  have tables := pair_tables _ (codeComponent_lt code (lane / 2))
  simp only [expandPacked2, unpack_eq, CodeBits.centreI8, component_two code lane]
  split_ifs
  · exact tables.1
  · exact tables.2

/-! ### Where the components stand -/

def CodeBits.perByte : CodeBits → Nat
  | two => 4
  | four => 2

theorem CodeBits.centreI8_congr (width : CodeBits) {one other : Nat → BitVec 8} {i j : Nat}
    (place : i % width.perByte = j % width.perByte)
    (same : one (i / width.perByte) = other (j / width.perByte)) :
    width.centreI8 one i = width.centreI8 other j := by
  cases width with
  | two =>
    simp only [perByte] at place same
    rw [centreI8, centreI8, component_shift, component_shift, place, same]
  | four =>
    simp only [perByte] at place same
    rw [centreI8, centreI8, codeI8, codeI8, component_four, component_four, place, same]

/-- **A kernel fits a width** when its chunk is whole bytes and its expansion gives the codebook
values. -/
structure CcKernel.Fits (kernel : CcKernel) (width : CodeBits) : Prop where
  lanes : kernel.lanes = width.perByte * kernel.stride
  lanes_pos : 0 < kernel.lanes
  div : kernel.tailDiv = width.perByte
  add : kernel.tailAdd + 1 = width.perByte
  bound : ∀ code lane, |kernel.expand code lane| ≤ 127
  expand : ∀ code, ∀ lane < kernel.lanes, kernel.expand code lane = width.centreI8 code lane

theorem CodeBits.perByte_pos (width : CodeBits) : 0 < width.perByte := by
  cases width <;> decide

theorem CodeBits.avx2_fits (width : CodeBits) : width.avx2.Fits width := by
  cases width with
  | two => exact ⟨rfl, by decide, rfl, rfl, expandPacked2_bound, fun code lane _ =>
      expandPacked2_eq code lane⟩
  | four => exact ⟨rfl, by decide, rfl, rfl, expandPacked4_bound, fun code lane _ =>
      expandPacked4_eq code lane⟩

theorem expandPair_eq {width : CodeBits} {expand : (Nat → BitVec 8) → Register} {stride : Nat}
    (half : 16 = width.perByte * stride)
    (single : ∀ code lane, expand code lane = width.centreI8 code lane)
    (code : Nat → BitVec 8) (lane : Nat) :
    expandPair expand stride code lane = width.centreI8 code lane := by
  rw [expandPair]
  split_ifs with low
  · exact single code lane
  · rw [single]
    have split : lane = lane - 16 + width.perByte * stride := by omega
    refine width.centreI8_congr ?_ ?_
    · conv_rhs => rw [split]
      rw [Nat.add_mul_mod_self_left]
    · conv_rhs => rw [split]
      rw [Nat.add_mul_div_left _ _ width.perByte_pos, Nat.add_comm]

theorem expandPair_bound {expand : (Nat → BitVec 8) → Register} {stride : Nat}
    (bound : ∀ code lane, |expand code lane| ≤ 127) (code : Nat → BitVec 8) (lane : Nat) :
    |expandPair expand stride code lane| ≤ 127 := by
  rw [expandPair]
  split_ifs <;> exact bound _ _

theorem CodeBits.avx512_fits (width : CodeBits) : width.avx512.Fits width := by
  cases width with
  | two => exact ⟨rfl, by decide, rfl, rfl, expandPair_bound expandPacked2_bound,
      fun code lane _ => expandPair_eq rfl expandPacked2_eq code lane⟩
  | four => exact ⟨rfl, by decide, rfl, rfl, expandPair_bound expandPacked4_bound,
      fun code lane _ => expandPair_eq rfl expandPacked4_eq code lane⟩

/-! ### The whole sum -/

/-- **The sum of the components**: codebook values of both codes times the weight. -/
def CodeBits.weightedSum (width : CodeBits) (a b : Nat → BitVec 8) (weights : Nat → BitVec 16)
    (dim : Nat) : Int :=
  ∑ i ∈ range dim, width.centreI8 a i * width.centreI8 b i * (weights i).toInt

section Whole

variable {kernel : CcKernel} {width : CodeBits} (a b : Nat → BitVec 8) (weights : Nat → BitVec 16)

theorem CcKernel.Fits.chunk_exact (fits : kernel.Fits width) (chunk : Nat) :
    (kernel.chunk a b weights chunk).Exact :=
  Loaded.exact ⟨fun i => fits.bound _ i, fun i => fits.bound _ i, fun _ => weight_bound _⟩

theorem CcKernel.Fits.tail_exact (fits : kernel.Fits width) (dim : Nat) :
    (kernel.tail a b weights dim).Exact :=
  Loaded.exact ⟨fun i => fits.bound _ i, fun i => fits.bound _ i, fun _ => weight_bound _⟩

theorem CcKernel.Fits.centre_chunk (fits : kernel.Fits width) (code : Nat → BitVec 8)
    (chunk : Nat) {lane : Nat} (inside : lane < kernel.lanes) :
    kernel.expand (fun i => code (chunk * kernel.stride + i)) lane =
      width.centreI8 code (kernel.lanes * chunk + lane) := by
  have place : kernel.lanes * chunk + lane =
      lane + width.perByte * (chunk * kernel.stride) := by
    rw [fits.lanes]
    ring
  rw [fits.expand _ lane inside]
  refine width.centreI8_congr ?_ ?_
  · rw [place, Nat.add_mul_mod_self_left]
  · rw [place, Nat.add_mul_div_left _ _ width.perByte_pos, Nat.add_comm]

theorem CcKernel.Fits.centre_tail (fits : kernel.Fits width) (code : Nat → BitVec 8)
    {tailDims lane : Nat} (small : tailDims < kernel.lanes) (inside : lane < tailDims) :
    kernel.expand (scratch 0 ((tailDims + kernel.tailAdd) / kernel.tailDiv) code) lane =
      width.centreI8 code lane := by
  have add := fits.add
  have positive := width.perByte_pos
  have copied : lane / width.perByte < (tailDims + kernel.tailAdd) / kernel.tailDiv := by
    rw [fits.div, Nat.lt_div_iff_mul_lt positive]
    have whole := Nat.div_mul_le_self lane width.perByte
    omega
  rw [fits.expand _ lane (inside.trans small)]
  refine width.centreI8_congr rfl ?_
  rw [scratch, if_pos copied]

theorem CcKernel.Fits.term_chunk (fits : kernel.Fits width) (chunk : Nat) {lane : Nat}
    (inside : lane < kernel.lanes) :
    (kernel.chunk a b weights chunk).term lane =
      width.centreI8 a (kernel.lanes * chunk + lane) *
        width.centreI8 b (kernel.lanes * chunk + lane) *
        (weights (kernel.lanes * chunk + lane)).toInt := by
  simp only [Loaded.term, CcKernel.chunk]
  rw [fits.centre_chunk a chunk inside, fits.centre_chunk b chunk inside, Nat.mul_comm chunk]

theorem CcKernel.Fits.term_tail (fits : kernel.Fits width) (dim lane : Nat) :
    (kernel.tail a b weights dim).term lane = if lane < dim % kernel.lanes then
      width.centreI8 a (kernel.lanes * (dim / kernel.lanes) + lane) *
        width.centreI8 b (kernel.lanes * (dim / kernel.lanes) + lane) *
        (weights (kernel.lanes * (dim / kernel.lanes) + lane)).toInt else 0 := by
  have rest : dim - dim / kernel.lanes * kernel.lanes = dim % kernel.lanes := by
    have whole := Nat.div_add_mod' dim kernel.lanes
    omega
  have small : dim % kernel.lanes < kernel.lanes := Nat.mod_lt _ fits.lanes_pos
  simp only [Loaded.term, CcKernel.tail, rest]
  split_ifs with inside
  · have chunk (code : Nat → BitVec 8) :=
      fits.centre_chunk code (dim / kernel.lanes) (inside.trans small)
    have tail (code : Nat → BitVec 8) := fits.centre_tail
      (fun i => code (dim / kernel.lanes * kernel.stride + i)) small inside
    have same (code : Nat → BitVec 8) := fits.expand
      (fun i => code (dim / kernel.lanes * kernel.stride + i)) lane (inside.trans small)
    rw [tail a, tail b, ← same a, ← same b, chunk a, chunk b, scratch, if_pos inside,
      Nat.mul_comm (dim / kernel.lanes) kernel.lanes]
  · rw [scratch, if_neg inside]
    exact mul_zero _

theorem CcKernel.Fits.total (fits : kernel.Fits width) (dim : Nat) :
    ∑ chunk ∈ range (dim / kernel.lanes),
        ∑ lane ∈ range kernel.lanes, (kernel.chunk a b weights chunk).term lane +
      ∑ lane ∈ range kernel.lanes, (kernel.tail a b weights dim).term lane =
      width.weightedSum a b weights dim := by
  have small : dim % kernel.lanes < kernel.lanes := Nat.mod_lt _ fits.lanes_pos
  rw [CodeBits.weightedSum, ← sum_blocks_tail _ kernel.lanes dim]
  congr 1
  · refine sum_congr rfl fun chunk _ => sum_congr rfl fun lane inside => ?_
    exact fits.term_chunk a b weights chunk (mem_range.mp inside)
  · rw [sum_congr rfl fun lane _ => fits.term_tail a b weights dim lane, ← sum_filter]
    refine sum_congr ?_ fun _ _ => rfl
    ext lane
    rw [mem_filter, mem_range, mem_range]
    omega

theorem CcKernel.Fits.tail_zero (fits : kernel.Fits width) {dim : Nat}
    (whole : ¬dim - dim / kernel.lanes * kernel.lanes ≠ 0) :
    ∑ lane ∈ range kernel.lanes, (kernel.tail a b weights dim).term lane = 0 := by
  have divides := Nat.div_add_mod' dim kernel.lanes
  refine sum_eq_zero fun lane _ => ?_
  rw [fits.term_tail, if_neg (by omega)]

/-- **The sum fits sixty-four bits** for every dimension of the code. -/
theorem CodeBits.weightedSum_bound (width : CodeBits) {dim : Nat} (int : dim < 2 ^ 31) :
    |width.weightedSum a b weights dim| < 2 ^ 63 := by
  have term (i : Nat) :
      |width.centreI8 a i * width.centreI8 b i * (weights i).toInt| ≤ 528515072 :=
    weighted_bound (centres_bound (width.centreI8_bound a i) (width.centreI8_bound b i))
      (weight_bound _)
  have all := (abs_sum_le_sum_abs _ _).trans (sum_le_sum fun i (_ : i ∈ range dim) => term i)
  rw [sum_const, card_range, nsmul_eq_mul] at all
  refine all.trans_lt ?_
  have small : (dim : Int) < 2 ^ 31 := by exact_mod_cast int
  norm_num at small ⊢
  omega

/-- **The AVX2 kernel** gives the sum. -/
theorem CcKernel.Fits.rawAvx2_eq (fits : kernel.Fits width) (sixteen : kernel.lanes = 16)
    {dim : Nat} (int : dim < 2 ^ 31) :
    kernel.rawAvx2 a b weights dim = width.weightedSum a b weights dim := by
  have dot (loaded : Loaded) (lane : Nat) : weightedDotI8x16 loaded lane ≡
      loaded.products lane + loaded.products (4 + lane) [ZMOD 2 ^ 64] := wrap_modEq _ _
  have chunks (lane : Nat) :
      (List.range (dim / kernel.lanes)).foldl (fun acc chunk =>
        add64 acc (weightedDotI8x16 (kernel.chunk a b weights chunk))) zero lane ≡
      ∑ chunk ∈ range (dim / kernel.lanes), ((kernel.chunk a b weights chunk).products lane +
        (kernel.chunk a b weights chunk).products (4 + lane)) [ZMOD 2 ^ 64] := by
    rw [foldl_lane _ lane (fun acc chunk =>
      wrap 64 (acc + weightedDotI8x16 (kernel.chunk a b weights chunk) lane)) fun _ _ => rfl]
    have loop := foldl_modEq (fun acc chunk =>
        wrap 64 (acc + weightedDotI8x16 (kernel.chunk a b weights chunk) lane))
      (fun chunk => (kernel.chunk a b weights chunk).products lane +
        (kernel.chunk a b weights chunk).products (4 + lane))
      (fun acc chunk => (wrap_modEq 64 _).trans ((dot _ lane).add_left acc)) 0
      (dim / kernel.lanes)
    rw [zero_add] at loop
    exact loop
  have lanes (acc : Register) : horizontalSumI64 acc = wrap 64 (∑ lane ∈ range 4, acc lane) := by
    rw [horizontalSumI64, wrap_add, add_assoc, wrap_add]
    simp only [sum_range_succ, sum_range_zero, zero_add, add_assoc]
  have chunkSum : ∑ lane ∈ range 4, ∑ chunk ∈ range (dim / kernel.lanes),
      ((kernel.chunk a b weights chunk).products lane +
        (kernel.chunk a b weights chunk).products (4 + lane)) =
      ∑ chunk ∈ range (dim / kernel.lanes), ∑ lane ∈ range kernel.lanes,
        (kernel.chunk a b weights chunk).term lane := by
    rw [sum_comm, sixteen]
    exact sum_congr rfl fun chunk _ =>
      weightedDotI8x16_sum (fits.chunk_exact a b weights chunk)
  have tailSum : ∑ lane ∈ range 4, ((kernel.tail a b weights dim).products lane +
      (kernel.tail a b weights dim).products (4 + lane)) =
      ∑ lane ∈ range kernel.lanes, (kernel.tail a b weights dim).term lane := by
    rw [sixteen]
    exact weightedDotI8x16_sum (fits.tail_exact a b weights dim)
  have fits64 := width.weightedSum_bound a b weights int
  rw [← wrap_eq_of_abs (by decide : 0 < 64) fits64, ← fits.total, ← chunkSum]
  simp only [CcKernel.rawAvx2]
  rw [lanes]
  refine wrap_congr ?_
  split_ifs with rest
  · rw [← tailSum, ← sum_add_distrib]
    exact sum_modEq fun lane _ => (wrap_modEq 64 _).trans ((chunks lane).add (dot _ lane))
  · rw [fits.tail_zero a b weights rest, add_zero]
    exact sum_modEq fun lane _ => chunks lane

/-- **The AVX-512 kernel** gives the sum. -/
theorem CcKernel.Fits.rawAvx512_eq (fits : kernel.Fits width) (wide : kernel.lanes = 32)
    {dim : Nat} (int : dim < 2 ^ 31) :
    kernel.rawAvx512 a b weights dim = width.weightedSum a b weights dim := by
  have dot (loaded : Loaded) (exact_ : loaded.Exact) : weightedDotI8x32 loaded ≡
      ∑ lane ∈ range kernel.lanes, loaded.term lane [ZMOD 2 ^ 64] := by
    rw [wide]
    exact weightedDotI8x32_sum exact_
  have chunks : (List.range (dim / kernel.lanes)).foldl (fun acc chunk =>
        wrap 64 (acc + weightedDotI8x32 (kernel.chunk a b weights chunk))) 0 ≡
      ∑ chunk ∈ range (dim / kernel.lanes), ∑ lane ∈ range kernel.lanes,
        (kernel.chunk a b weights chunk).term lane [ZMOD 2 ^ 64] := by
    have loop := foldl_modEq (fun acc chunk =>
        wrap 64 (acc + weightedDotI8x32 (kernel.chunk a b weights chunk)))
      (fun chunk => ∑ lane ∈ range kernel.lanes, (kernel.chunk a b weights chunk).term lane)
      (fun acc chunk => (wrap_modEq 64 _).trans
        ((dot _ (fits.chunk_exact a b weights chunk)).add_left acc)) 0 (dim / kernel.lanes)
    rw [zero_add] at loop
    exact loop
  have fits64 := width.weightedSum_bound a b weights int
  rw [← wrap_eq_of_abs (by decide : 0 < 64) fits64, ← fits.total]
  simp only [CcKernel.rawAvx512]
  split_ifs with rest
  · exact wrap_congr (chunks.add (dot _ (fits.tail_exact a b weights dim)))
  · rw [fits.tail_zero a b weights rest, add_zero, ← wrap_congr chunks]
    exact (wrap_foldl _ _).symm

end Whole

/-! ### All the kernels -/

section Kernels

variable {K : Type*} [Field K] [LinearOrder K]

/-- The centre of a component, as the scalar kernel reads it. -/
def CodeBits.centre (width : CodeBits) (code : Nat → BitVec 8) (i : Nat) : K :=
  tqGetCodeCenterBits (tqGetCodeComponentBits code i width.bits) width.bits

theorem codeCodeWeightedRawScalar_eq (width : CodeBits) (epsilon : K) (a b : Nat → BitVec 8)
    (dim : Nat) (ecScale : Nat → K) :
    codeCodeWeightedRawScalar epsilon a b dim width.bits (some ecScale) =
      ∑ i ∈ range dim, width.centre a i * width.centre b i * dPrimeSq epsilon ecScale i := by
  have step (acc : K) (i : Nat) :
      (if |ecScale i| ≤ epsilon then acc
        else acc + width.centre a i * width.centre b i * (1 / (ecScale i * ecScale i))) =
      acc + width.centre a i * width.centre b i * dPrimeSq epsilon ecScale i := by
    rw [dPrimeSq]
    split_ifs with small large
    · exact absurd small (not_le_of_gt large)
    · rw [mul_zero, add_zero]
    · rfl
    · exact absurd (not_le.mp small) (by assumption)
  have loop := foldl_add (fun i => width.centre a i * width.centre b i *
    dPrimeSq epsilon ecScale i) 0 dim
  rw [zero_add] at loop
  rw [← loop, codeCodeWeightedRawScalar]
  congr 1
  funext acc i
  exact step acc i

/-- **The weighted kernels.** For every dimension, every two codes and all weights of sixteen bits,
both vector kernels return the sum over the components of the codebook bytes times the weight, and
no lane of sixteen or thirty-two bits overflows on the way. The scalar kernel takes no integer
weights: it returns the sum of the centres times the weights before they are rounded. -/
theorem weightedKernels_exact (width : CodeBits) (a b : Nat → BitVec 8) {dim : Nat}
    (int : dim < 2 ^ 31) :
    (∀ weights : Nat → BitVec 16,
      width.avx2.rawAvx2 a b weights dim = width.weightedSum a b weights dim ∧
      width.avx512.rawAvx512 a b weights dim = width.weightedSum a b weights dim ∧
      (∀ chunk, (width.avx2.chunk a b weights chunk).Exact ∧
        (width.avx512.chunk a b weights chunk).Exact) ∧
      (width.avx2.tail a b weights dim).Exact ∧ (width.avx512.tail a b weights dim).Exact) ∧
    ∀ (epsilon : K) (ecScale : Nat → K),
      codeCodeWeightedRawScalar epsilon a b dim width.bits (some ecScale) =
        ∑ i ∈ range dim, width.centre a i * width.centre b i * dPrimeSq epsilon ecScale i := by
  have narrow := width.avx2_fits
  have wide := width.avx512_fits
  refine ⟨fun weights => ⟨?_, ?_, fun chunk => ⟨?_, ?_⟩, ?_, ?_⟩, fun epsilon ecScale =>
    codeCodeWeightedRawScalar_eq width epsilon a b dim ecScale⟩
  · exact narrow.rawAvx2_eq a b weights (by cases width <;> rfl) int
  · exact wide.rawAvx512_eq a b weights (by cases width <;> rfl) int
  · exact narrow.chunk_exact a b weights chunk
  · exact wide.chunk_exact a b weights chunk
  · exact narrow.tail_exact a b weights dim
  · exact wide.tail_exact a b weights dim

end Kernels

def fourteens : Nat → BitVec 8 := fun _ => 0xEE

def unitWeights : Nat → BitVec 16 := dPrimeSqI16 (1 / 2 ^ 23 : Rat) (fun _ => 1) 33

theorem weightedKernels_exact_fourteens :
    CodeBits.four.avx512.rawAvx512 fourteens fourteens unitWeights 33 =
      CodeBits.four.weightedSum fourteens fourteens unitWeights 33 :=
  ((weightedKernels_exact (K := Rat) .four fourteens fourteens (by decide : 33 < 2 ^ 31)).1
    unitWeights).2.1

/-- **The scalar kernel returns something else**, before and after the integer is scaled back. -/
theorem weightedKernels_scalar :
    unitWeights 0 = 32766 ∧
    codeCodeWeightedRawScalar (1 / 2 ^ 23 : Rat) fourteens fourteens 1 4 (some fun _ => 1) ≠
      CodeBits.four.avx2.rawAvx2 fourteens fourteens unitWeights 1 ∧
    codeCodeWeightedRawScalar (1 / 2 ^ 23 : Rat) fourteens fourteens 1 4 (some fun _ => 1) ≠
      CodeBits.four.avx2.rawAvx2 fourteens fourteens unitWeights 1 /
        (weightScale (1 / 2 ^ 23 : Rat) (fun _ => 1) 33 * (127 / 2.733) ^ 2) := by
  refine ⟨?_, ?_, ?_⟩
  · decide +kernel
  · decide +kernel
  · decide +kernel

end TurboHybrid.Quant
