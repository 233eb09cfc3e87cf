/-
**Scoring one-bit codes against bit planes.**

A query is rounded to integers of eight, twelve or sixteen bits. For each block of 128 components
every bit of the integers has its own sixteen bytes, a plane; a code is scored by the number of its
bits that lie in each plane, the plane of the sign counted negatively.

* `queryPlanes_bit`: the planes hold the bits of the integers, and nothing after the last component;
* `weights_sum`: the weighted bits of an integer give the integer back;
* `AsymKernel.pop_eq`: every kernel counts the bits of a block;
* `asymBit1Score_eq`: the score is that of the sum of the integers, each with the sign of its bit.
-/
import TurboHybrid.Library.Lanes
import TurboHybrid.Quant.Codes

namespace TurboHybrid.Quant

open Finset TurboHybrid.Library.Lanes

/-! ### The query -/

/-- `TqQueryAsymSupportedBits`. -/
def tqQueryAsymSupportedBits (bits : Int) : Nat :=
  if bits ≤ 8 then 8
  else if bits ≤ 12 then 12
  else 16

def asymIntMax (bits : Nat) : Int := 2 ^ (bits - 1) - 1

def asymQueryInt (bits : Nat) (rounded : Int) : Int :=
  if asymIntMax bits < rounded then asymIntMax bits
  else if rounded < -asymIntMax bits then -asymIntMax bits
  else rounded

def asymQueryBits (bits : Nat) (value : Int) : BitVec 32 :=
  BitVec.ofInt 32 value &&& (if 32 ≤ bits then 0xFFFFFFFF else (1 <<< bits) - 1 : BitVec 32)

def planeCell (bits block plane byte : Nat) : Nat := block * bits * 16 + plane * 16 + byte

/-- The bits of one component, each or-ed into its plane. -/
def orPlanes (bits block byteInBlock bitInByte : Nat) (value : BitVec 32) (count : Nat)
    (planes : Nat → BitVec 8) : Nat → BitVec 8 :=
  (List.range count).foldl (fun planes plane =>
    let cell := planeCell bits block plane byteInBlock
    Function.update planes cell
      (planes cell ||| (value >>> plane &&& 1).setWidth 8 <<< bitInByte)) planes

def queryPlanes (bits : Nat) (values : Nat → Int) (dim : Nat) : Nat → BitVec 8 :=
  (List.range dim).foldl (fun planes i =>
    let block := i / 128
    let inBlock := i - block * 128
    orPlanes bits block (inBlock / 8) (inBlock &&& 7) (asymQueryBits bits (values i)) bits planes)
    fun _ => 0

/-- `tq->bit1`. -/
structure Bit1 (K : Type*) where
  planes : Nat → BitVec 8
  numFullBlocks : Nat
  tailBytes : Nat
  bits : Nat
  sumSigned : Int
  scale : K

/-- What the preparation reads of a query and of the options. -/
structure AsymQuery (K : Type*) where
  enabled : Bool
  bits : Nat
  dimensions : Nat
  queryValues : Nat → K

section Prepare

variable {K : Type*} [Field K] [LinearOrder K] (epsilon : K) (roundf : K → Int)

/-- The largest absolute value of a query, at least `FLT_EPSILON`. -/
def asymAbsMax (tq : AsymQuery K) : K :=
  (List.range tq.dimensions).foldl (fun largest i =>
    if largest < |tq.queryValues i| then |tq.queryValues i| else largest) epsilon

def asymScale (bits : Nat) (tq : AsymQuery K) : K := (asymIntMax bits : K) / asymAbsMax epsilon tq

def asymComponent (bits : Nat) (tq : AsymQuery K) (i : Nat) : Int :=
  asymQueryInt bits (roundf (tq.queryValues i * asymScale epsilon bits tq))

/-- **`TqPrepareQueryAsymBit1`**; `none` leaves the query without planes. -/
def tqPrepareQueryAsymBit1 (asymmetric : Bool) (asymmetricBits : Int) (tq : AsymQuery K) :
    Option (Bit1 K) :=
  if ¬asymmetric ∨ ¬tq.enabled ∨ tq.bits ≠ 1 ∨ tq.dimensions = 0 then none
  else
    let dim := tq.dimensions
    let bits := tqQueryAsymSupportedBits asymmetricBits
    let numFullBlocks := dim / 128
    let fullDims := numFullBlocks * 128
    let tailDims := dim - fullDims
    some
      { planes := queryPlanes bits (asymComponent epsilon roundf bits tq) dim
        numFullBlocks := numFullBlocks
        tailBytes := (tailDims + 7) / 8
        bits := bits
        sumSigned := (List.range dim).foldl
          (fun sum i => sum + asymComponent epsilon roundf bits tq i) 0
        scale := tqCodeCenters1.getD 1 0 / asymScale epsilon bits tq }

end Prepare

/-! ### The scorer -/

/-- `PgturbohybridGraphPopcount8`. -/
def popcount8 (value : BitVec 8) : Nat :=
  let value := value - (value >>> 1 &&& 0x55)
  let value := (value &&& 0x33) + (value >>> 2 &&& 0x33)
  (value + value >>> 4 &&& 0x0F).toNat

/-- The kernels that can be selected at run time. -/
inductive AsymKernel where
  | scalar
  | avx2
  | avx512
  | neon
  deriving DecidableEq, Repr

def bitCount (value : BitVec 8) : Nat := ∑ j ∈ range 8, (value.getLsbD j).toNat

def nibblePopLut : List Nat := [0, 1, 1, 2, 1, 2, 2, 3, 1, 2, 2, 3, 2, 3, 3, 4]

/-- A byte of a register shifted right by four in lanes of sixteen bits. -/
def shiftedByte (register : Nat → BitVec 8) (byte : Nat) : BitVec 8 :=
  let lane := (register (2 * (byte / 2) + 1) ++ register (2 * (byte / 2))) >>> 4
  (lane >>> (8 * (byte % 2))).setWidth 8

/-- The count of a byte from the counts of its halves. -/
def nibblePop (register : Nat → BitVec 8) (byte : Nat) : Nat :=
  nibblePopLut.getD (register byte &&& 0x0F).toNat 0 +
    nibblePopLut.getD (shiftedByte register byte &&& 0x0F).toNat 0

/-- The set bits of sixteen bytes: byte by byte, from a table of nibbles and in two sums of eight
bytes, in lanes of 64 bits, and byte by byte with a sum of eight bits. -/
def AsymKernel.pop (kernel : AsymKernel) (register : Nat → BitVec 8) : Nat :=
  match kernel with
  | .scalar => (List.range 16).foldl (fun pop i => pop + popcount8 (register i)) 0
  | .avx2 =>
    ∑ byte ∈ range 8, nibblePop register byte + ∑ byte ∈ range 8, nibblePop register (8 + byte)
  | .avx512 =>
    ∑ lane ∈ range 2, ∑ bit ∈ range 64, ((register (8 * lane + bit / 8)).getLsbD (bit % 8)).toNat
  | .neon => (∑ byte ∈ range 16, bitCount (register byte)) % 256

/-- The planes of one block, scored against sixteen bytes of a code. -/
def asymBlock (kernel : AsymKernel) (bits : Nat) (planes data : Nat → BitVec 8) (vDotQ : Int) :
    Int :=
  (List.range bits).foldl (fun vDotQ plane =>
    let pop : Int := kernel.pop fun i => data i &&& planes (plane * 16 + i)
    if plane = bits - 1 then vDotQ - 2 ^ (bits - 1) * pop
    else vDotQ + 2 ^ plane * pop) vDotQ

def asymDot {K : Type*} (kernel : AsymKernel) (bit1 : Bit1 K) (code : Nat → BitVec 8) : Int :=
  let vDotQ := (List.range bit1.numFullBlocks).foldl (fun vDotQ block =>
    asymBlock kernel bit1.bits (fun i => bit1.planes (block * bit1.bits * 16 + i))
      (fun i => code (block * 16 + i)) vDotQ) 0
  if 0 < bit1.tailBytes then
    let dataScratch : Nat → BitVec 8 := fun i =>
      if i < bit1.tailBytes then code (bit1.numFullBlocks * 16 + i) else 0
    asymBlock kernel bit1.bits (fun i => bit1.planes (bit1.numFullBlocks * bit1.bits * 16 + i))
      dataScratch vDotQ
  else vDotQ

/-- **`PgturbohybridGraphAsymBit1ScalarRawScore`** and its vector variants. -/
def asymBit1RawScore {K : Type*} [Mul K] (toFloat : Int → K) (kernel : AsymKernel) (bit1 : Bit1 K)
    (code : Nat → BitVec 8) : K :=
  let signedDot := 2 * asymDot kernel bit1 code - bit1.sumSigned
  bit1.scale * toFloat signedDot

/-! ### The bits of the planes -/

theorem tqQueryAsymSupportedBits_cases (bits : Int) :
    tqQueryAsymSupportedBits bits = 8 ∨ tqQueryAsymSupportedBits bits = 12 ∨
      tqQueryAsymSupportedBits bits = 16 := by
  unfold tqQueryAsymSupportedBits
  split_ifs
  · exact .inl rfl
  · exact .inr (.inl rfl)
  · exact .inr (.inr rfl)

theorem planeCell_inj {bits block plane byte block' plane' byte' : Nat} (inside : plane < bits)
    (small : byte < 16) (inside' : plane' < bits) (small' : byte' < 16) :
    planeCell bits block plane byte = planeCell bits block' plane' byte' ↔
      block = block' ∧ plane = plane' ∧ byte = byte' := by
  constructor
  · intro same
    unfold planeCell at same
    have sameByte : byte = byte' := by omega
    have sameRow : bits * block + plane = bits * block' + plane' := by
      rw [Nat.mul_comm bits block, Nat.mul_comm bits block']
      omega
    have positive : 0 < bits := by omega
    have sameBlock := congrArg (· / bits) sameRow
    simp only [Nat.mul_add_div positive, Nat.div_eq_of_lt inside, Nat.div_eq_of_lt inside',
      add_zero] at sameBlock
    subst sameBlock
    exact ⟨rfl, by omega, sameByte⟩
  · rintro ⟨rfl, rfl, rfl⟩
    rfl

theorem shiftedBit_getLsbD (value : BitVec 32) (plane bitInByte j : Nat) (small : j < 8) :
    ((value >>> plane &&& 1).setWidth 8 <<< bitInByte).getLsbD j =
      (decide (j = bitInByte) && value.getLsbD plane) := by
  have one : (1 : BitVec 32) = 1#32 := rfl
  rw [BitVec.getLsbD_shiftLeft, BitVec.getLsbD_setWidth, BitVec.getLsbD_and,
    BitVec.getLsbD_ushiftRight, one, BitVec.getLsbD_one]
  by_cases before : j < bitInByte
  · have different : j ≠ bitInByte := by omega
    simp [before, different]
  · by_cases same : j = bitInByte
    · subst same
      simp [small]
    · have later : j - bitInByte ≠ 0 := by omega
      simp [same, later]

theorem orPlanes_bit (bits block byteInBlock bitInByte : Nat) (value : BitVec 32)
    (planes : Nat → BitVec 8) {count : Nat} (most : count ≤ bits) (byteSmall : byteInBlock < 16)
    {block' plane byte j : Nat} (inside : plane < bits) (small : byte < 16) (bit : j < 8) :
    (orPlanes bits block byteInBlock bitInByte value count planes
        (planeCell bits block' plane byte)).getLsbD j =
      ((planes (planeCell bits block' plane byte)).getLsbD j ||
        (decide (plane < count ∧ block' = block ∧ byte = byteInBlock ∧ j = bitInByte) &&
          value.getLsbD plane)) := by
  induction count with
  | zero => simp [orPlanes]
  | succ count ih =>
    have step : orPlanes bits block byteInBlock bitInByte value (count + 1) planes =
        let before := orPlanes bits block byteInBlock bitInByte value count planes
        let cell := planeCell bits block count byteInBlock
        Function.update before cell
          (before cell ||| (value >>> count &&& 1).setWidth 8 <<< bitInByte) := by
      rw [orPlanes, List.range_succ, List.foldl_append]
      rfl
    have old := ih (Nat.le_of_succ_le most)
    rw [step]
    by_cases here : planeCell bits block' plane byte = planeCell bits block count byteInBlock
    · obtain ⟨rfl, rfl, rfl⟩ := (planeCell_inj inside small most byteSmall).mp here
      simp only [Function.update_self, BitVec.getLsbD_or, shiftedBit_getLsbD _ _ _ _ bit, old]
      simp
    · have other : ¬(plane = count ∧ block' = block ∧ byte = byteInBlock) := fun same =>
        here ((planeCell_inj inside small most byteSmall).mpr ⟨same.2.1, same.1, same.2.2⟩)
      simp only [Function.update_of_ne here, old]
      congr 2
      refine decide_eq_decide.mpr ?_
      omega

/-- **The planes** hold the bits of the integers, and nothing after the last component. -/
theorem queryPlanes_bit (bits : Nat) (values : Nat → Int) (dim : Nat) {block plane byte j : Nat}
    (inside : plane < bits) (small : byte < 16) (bit : j < 8) :
    (queryPlanes bits values dim (planeCell bits block plane byte)).getLsbD j =
      (decide (128 * block + 8 * byte + j < dim) &&
        (asymQueryBits bits (values (128 * block + 8 * byte + j))).getLsbD plane) := by
  induction dim with
  | zero => simp [queryPlanes]
  | succ dim ih =>
    have step : queryPlanes bits values (dim + 1) =
        orPlanes bits (dim / 128) ((dim - dim / 128 * 128) / 8) ((dim - dim / 128 * 128) &&& 7)
          (asymQueryBits bits (values dim)) bits (queryPlanes bits values dim) := by
      rw [queryPlanes, List.range_succ, List.foldl_append]
      rfl
    have byteSmall : (dim - dim / 128 * 128) / 8 < 16 := by omega
    have low : (dim - dim / 128 * 128) &&& 7 = dim % 8 := by
      rw [show (7 : Nat) = 2 ^ 3 - 1 from rfl, Nat.and_two_pow_sub_one_eq_mod]
      omega
    rw [step, orPlanes_bit _ _ _ _ _ _ le_rfl byteSmall inside small bit, ih, low]
    by_cases here : 128 * block + 8 * byte + j = dim
    · have place : plane < bits ∧ block = dim / 128 ∧ byte = (dim - dim / 128 * 128) / 8 ∧
          j = dim % 8 := by omega
      rw [here, decide_eq_true place]
      simp
    · have place : ¬(plane < bits ∧ block = dim / 128 ∧ byte = (dim - dim / 128 * 128) / 8 ∧
          j = dim % 8) := by omega
      have same : 128 * block + 8 * byte + j < dim + 1 ↔ 128 * block + 8 * byte + j < dim := by
        omega
      rw [decide_eq_false place, Bool.false_and, Bool.or_false, decide_eq_decide.mpr same]

/-! ### The weights -/

/-- The weight of a plane: the last one has the sign. -/
def planeWeight (bits plane : Nat) : Int := if plane = bits - 1 then -2 ^ (bits - 1) else 2 ^ plane

theorem bits_sum (value count : Nat) :
    ∑ plane ∈ range count, 2 ^ plane * (value.testBit plane).toNat = value % 2 ^ count := by
  induction count with
  | zero => rw [sum_range_zero, pow_zero, Nat.mod_one]
  | succ count ih => rw [sum_range_succ, ih, Nat.toNat_testBit, pow_succ, Nat.mod_mul]

theorem asymQueryBits_getLsbD {bits : Nat} (width : bits = 8 ∨ bits = 12 ∨ bits = 16) (value : Int)
    {plane : Nat} (inside : plane < bits) :
    (asymQueryBits bits value).getLsbD plane = (value % 2 ^ 32).toNat.testBit plane := by
  have mask : (if 32 ≤ bits then 0xFFFFFFFF else (1 <<< bits) - 1 : BitVec 32) =
      BitVec.ofNat 32 (2 ^ bits - 1) := by
    rcases width with rfl | rfl | rfl <;> rfl
  have small : plane < 32 := by omega
  rw [asymQueryBits, mask, BitVec.getLsbD_and, BitVec.getLsbD_ofNat, Nat.testBit_two_pow_sub_one]
  simp [inside, small, BitVec.getLsbD, BitVec.toNat_ofInt]

/-- **The weighted bits of an integer** give the integer back. -/
theorem weights_sum {bits : Nat} (width : bits = 8 ∨ bits = 12 ∨ bits = 16) {value : Int}
    (low : -asymIntMax bits ≤ value) (high : value ≤ asymIntMax bits) :
    ∑ plane ∈ range bits,
      planeWeight bits plane * ((asymQueryBits bits value).getLsbD plane).toNat = value := by
  have whole : ∑ plane ∈ range bits,
      planeWeight bits plane * ((asymQueryBits bits value).getLsbD plane).toNat =
        ∑ plane ∈ range bits,
          planeWeight bits plane * ((value % 2 ^ 32).toNat.testBit plane).toNat :=
    sum_congr rfl fun plane member => by
      rw [asymQueryBits_getLsbD width value (mem_range.mp member)]
  obtain ⟨last, rfl⟩ : ∃ last, bits = last + 1 := ⟨bits - 1, by omega⟩
  have below : ∑ plane ∈ range last,
      planeWeight (last + 1) plane * ((value % 2 ^ 32).toNat.testBit plane).toNat =
        (((value % 2 ^ 32).toNat % 2 ^ last : Nat) : Int) := by
    rw [← bits_sum, Nat.cast_sum]
    refine sum_congr rfl fun plane member => ?_
    have different : plane ≠ last := (mem_range.mp member).ne
    rw [planeWeight, Nat.add_sub_cancel, if_neg different]
    push_cast
    rfl
  rw [whole, sum_range_succ, below, planeWeight, Nat.add_sub_cancel, if_pos rfl, Nat.toNat_testBit]
  have most : asymIntMax (last + 1) = 2 ^ last - 1 := rfl
  rw [most] at low high
  have powers : last = 7 ∨ last = 11 ∨ last = 15 := by omega
  rcases powers with rfl | rfl | rfl <;> push_cast <;> omega

/-! ### Counting bits -/

theorem popcount8_eq (value : BitVec 8) : popcount8 value = bitCount value := by
  have all : ∀ value : BitVec 8, popcount8 value = bitCount value := by decide +kernel
  exact all value

theorem shiftedByte_low (register : Nat → BitVec 8) (byte : Nat) :
    shiftedByte register byte &&& (0x0F : BitVec 8) = register byte >>> 4 := by
  have mask : ∀ j < 8, (0x0F : BitVec 8).getLsbD j = decide (j < 4) := by decide
  have lane (high low : BitVec 8) (j : Nat) :
      (high ++ low).getLsbD j = if j < 8 then low.getLsbD j else high.getLsbD (j - 8) :=
    BitVec.getLsbD_append
  rcases Nat.mod_two_eq_zero_or_one byte with even | odd
  · have place : byte = 2 * (byte / 2) := by omega
    refine BitVec.eq_of_getLsbD_eq fun j bound => ?_
    rw [shiftedByte, even, ← place, BitVec.getLsbD_and, mask j bound]
    by_cases low : j < 4
    · have inside : 4 + j < 8 := by omega
      simp [bound, low, lane, inside]
    · have outside : 8 ≤ 4 + j := by omega
      simp [low, BitVec.getLsbD_of_ge _ _ outside]
  · have place : byte = 2 * (byte / 2) + 1 := by omega
    refine BitVec.eq_of_getLsbD_eq fun j bound => ?_
    rw [shiftedByte, odd, ← place, BitVec.getLsbD_and, mask j bound]
    by_cases low : j < 4
    · have outside : ¬12 + j < 8 := by omega
      have index : 12 + j - 8 = 4 + j := by omega
      simp [bound, low, lane, outside, index]
    · have outside : 8 ≤ 4 + j := by omega
      simp [low, BitVec.getLsbD_of_ge _ _ outside]

theorem nibblePop_eq (register : Nat → BitVec 8) (byte : Nat) :
    nibblePop register byte = bitCount (register byte) := by
  have all : ∀ value : BitVec 8, nibblePopLut.getD (value &&& (0x0F : BitVec 8)).toNat 0 +
      nibblePopLut.getD (value >>> 4).toNat 0 = bitCount value := by decide +kernel
  rw [nibblePop, shiftedByte_low, all]

theorem bitCount_le (value : BitVec 8) : bitCount value ≤ 8 := by
  have all : ∀ value : BitVec 8, bitCount value ≤ 8 := by decide +kernel
  exact all value

/-- **Every kernel** counts the bits of sixteen bytes. -/
theorem AsymKernel.pop_eq (kernel : AsymKernel) (register : Nat → BitVec 8) :
    kernel.pop register = ∑ byte ∈ range 16, bitCount (register byte) := by
  cases kernel with
  | scalar =>
    rw [AsymKernel.pop, foldl_add, zero_add]
    exact sum_congr rfl fun byte _ => popcount8_eq _
  | avx2 =>
    have halves := sum_range_add (fun byte => bitCount (register byte)) 8 8
    simp only [AsymKernel.pop, nibblePop_eq]
    exact halves.symm
  | avx512 =>
    have lanes (lane : Nat) :
        ∑ bit ∈ range 64, ((register (8 * lane + bit / 8)).getLsbD (bit % 8)).toNat =
          ∑ byte ∈ range 8, bitCount (register (8 * lane + byte)) := by
      rw [← sum_blocks (fun bit => ((register (8 * lane + bit / 8)).getLsbD (bit % 8)).toNat) 8 8]
      refine sum_congr rfl fun byte _ => sum_congr rfl fun j member => ?_
      have small : j < 8 := mem_range.mp member
      have place : (8 * byte + j) / 8 = byte ∧ (8 * byte + j) % 8 = j := by omega
      rw [place.1, place.2]
    rw [AsymKernel.pop, sum_congr rfl fun lane _ => lanes lane]
    exact sum_blocks (fun byte => bitCount (register byte)) 8 2
  | neon =>
    have bound : ∑ byte ∈ range 16, bitCount (register byte) ≤ 128 :=
      sum_le_card_nsmul _ _ 8 fun byte _ => bitCount_le _
    rw [AsymKernel.pop, Nat.mod_eq_of_lt (by omega)]

/-! ### The score -/

theorem asymBlock_eq (kernel : AsymKernel) (bits : Nat) (planes data : Nat → BitVec 8)
    (vDotQ : Int) :
    asymBlock kernel bits planes data vDotQ =
      vDotQ + ∑ plane ∈ range bits, planeWeight bits plane *
        (∑ byte ∈ range 16, bitCount (data byte &&& planes (plane * 16 + byte)) : Nat) := by
  rw [← foldl_add, asymBlock]
  refine congrFun (congrFun (congrArg List.foldl (funext fun vDotQ => funext fun plane => ?_)) _) _
  rw [AsymKernel.pop_eq, planeWeight]
  split_ifs
  · rw [neg_mul, sub_eq_add_neg]
  · rfl

/-- What a component adds: its integer where the bit of the code is set. -/
def chosen (values : Nat → Int) (dim : Nat) (data : Nat → BitVec 8) (start i : Nat) : Int :=
  if start + i < dim ∧ (data (i / 8)).getLsbD (i % 8) then values (start + i) else 0

variable {bits dim : Nat} {values : Nat → Int}

/-- **One block** adds the integers of the set bits. -/
theorem asymBlock_queryPlanes (kernel : AsymKernel) (width : bits = 8 ∨ bits = 12 ∨ bits = 16)
    (range_ : ∀ i, -asymIntMax bits ≤ values i ∧ values i ≤ asymIntMax bits)
    (data : Nat → BitVec 8) (block : Nat) (vDotQ : Int) :
    asymBlock kernel bits (fun i => queryPlanes bits values dim (block * bits * 16 + i)) data
        vDotQ =
      vDotQ + ∑ i ∈ range 128, chosen values dim data (128 * block) i := by
  have blocks := sum_blocks (chosen values dim data (128 * block)) 8 16
  rw [asymBlock_eq, ← blocks]
  refine congrArg (vDotQ + ·) ?_
  simp only [bitCount, Nat.cast_sum, mul_sum]
  rw [sum_comm]
  refine sum_congr rfl fun byte small => ?_
  rw [sum_comm]
  refine sum_congr rfl fun j bit => ?_
  rw [mem_range] at small bit
  have place : (8 * byte + j) / 8 = byte ∧ (8 * byte + j) % 8 = j := by omega
  have planesBit (plane : Nat) (inside : plane < bits) :
      (data byte &&& queryPlanes bits values dim (block * bits * 16 + (plane * 16 + byte))).getLsbD
          j =
        ((data byte).getLsbD j && (decide (128 * block + 8 * byte + j < dim) &&
          (asymQueryBits bits (values (128 * block + 8 * byte + j))).getLsbD plane)) := by
    rw [BitVec.getLsbD_and, ← Nat.add_assoc, ← queryPlanes_bit bits values dim inside small bit]
    rfl
  rw [sum_congr rfl fun plane member => by rw [planesBit plane (mem_range.mp member)], chosen,
    place.1, place.2, ← Nat.add_assoc]
  by_cases set : 128 * block + 8 * byte + j < dim ∧ (data byte).getLsbD j
  · rw [if_pos set, set.2, decide_eq_true set.1]
    simp only [Bool.true_and]
    exact weights_sum width (range_ _).1 (range_ _).2
  · rw [if_neg set]
    refine sum_eq_zero fun plane _ => ?_
    have clear : ((data byte).getLsbD j && (decide (128 * block + 8 * byte + j < dim) &&
        (asymQueryBits bits (values (128 * block + 8 * byte + j))).getLsbD plane)) = false := by
      by_cases inside : 128 * block + 8 * byte + j < dim
      · have off : (data byte).getLsbD j = false :=
          Bool.eq_false_iff.mpr fun on => set ⟨inside, on⟩
        rw [off, Bool.false_and]
      · rw [decide_eq_false inside, Bool.false_and, Bool.and_false]
    rw [clear]
    exact mul_zero _

def codeBit (code : Nat → BitVec 8) (i : Nat) : Bool := (code (i / 8)).getLsbD (i % 8)

theorem chosen_full (code : Nat → BitVec 8) {block i : Nat} (full : block < dim / 128)
    (inside : i < 128) :
    chosen values dim (fun byte => code (block * 16 + byte)) (128 * block) i =
      if codeBit code (128 * block + i) then values (128 * block + i) else 0 := by
  have before : 128 * block + i < dim := by omega
  have byte : (128 * block + i) / 8 = block * 16 + i / 8 := by omega
  have bit : (128 * block + i) % 8 = i % 8 := by omega
  rw [chosen, codeBit, byte, bit]
  simp only [before, true_and]

theorem chosen_tail (code : Nat → BitVec 8) {block : Nat} (i : Nat) (last : block = dim / 128) :
    chosen values dim
        (fun byte => if byte < (dim - block * 128 + 7) / 8 then code (block * 16 + byte) else 0)
        (128 * block) i =
      if i < dim % 128 then
        if codeBit code (128 * block + i) then values (128 * block + i) else 0
      else 0 := by
  have before : 128 * block + i < dim ↔ i < dim % 128 := by omega
  simp only [chosen]
  by_cases within : i < dim % 128
  · have stored : i / 8 < (dim - block * 128 + 7) / 8 := by omega
    have byte : (128 * block + i) / 8 = block * 16 + i / 8 := by omega
    have bit : (128 * block + i) % 8 = i % 8 := by omega
    rw [if_pos within, codeBit, byte, bit]
    simp only [stored, before, within, if_true, true_and]
  · rw [if_neg within, if_neg fun both => within (before.mp both.1)]

/-- **The product with a code** is the sum of the integers whose bit is set. -/
theorem asymDot_eq {K : Type*} (kernel : AsymKernel) (width : bits = 8 ∨ bits = 12 ∨ bits = 16)
    (range_ : ∀ i, -asymIntMax bits ≤ values i ∧ values i ≤ asymIntMax bits) (sumSigned : Int)
    (scale : K) (code : Nat → BitVec 8) :
    asymDot kernel
        { planes := queryPlanes bits values dim, numFullBlocks := dim / 128,
          tailBytes := (dim - dim / 128 * 128 + 7) / 8, bits := bits, sumSigned := sumSigned,
          scale := scale } code =
      ∑ i ∈ range dim, if codeBit code i then values i else 0 := by
  have blocks : (List.range (dim / 128)).foldl (fun vDotQ block =>
      asymBlock kernel bits (fun i => queryPlanes bits values dim (block * bits * 16 + i))
        (fun i => code (block * 16 + i)) vDotQ) 0 =
      ∑ block ∈ range (dim / 128), ∑ i ∈ range 128,
        if codeBit code (128 * block + i) then values (128 * block + i) else 0 := by
    simp only [asymBlock_queryPlanes kernel width range_, foldl_add, zero_add]
    refine sum_congr rfl fun block full => sum_congr rfl fun i inside => ?_
    exact chosen_full code (mem_range.mp full) (mem_range.mp inside)
  have tail : ∑ i ∈ range 128, chosen values dim
      (fun byte => if byte < (dim - dim / 128 * 128 + 7) / 8 then code (dim / 128 * 16 + byte)
        else 0) (128 * (dim / 128)) i =
      ∑ i ∈ range (dim % 128),
        if codeBit code (128 * (dim / 128) + i) then values (128 * (dim / 128) + i) else 0 := by
    rw [sum_congr rfl fun i _ => chosen_tail code i rfl, ← sum_filter]
    refine sum_congr ?_ fun _ _ => rfl
    ext i
    rw [mem_filter, mem_range, mem_range]
    omega
  have whole := sum_blocks_tail (fun i => if codeBit code i then values i else 0) 128 dim
  rw [asymDot, blocks, ← whole]
  split_ifs with remains
  · rw [asymBlock_queryPlanes kernel width range_, tail]
  · have none_ : dim % 128 = 0 := by
      simp only at remains
      omega
    rw [none_, sum_range_zero, add_zero]

theorem asymQueryInt_range (bits : Nat) (rounded : Int) :
    -asymIntMax bits ≤ asymQueryInt bits rounded ∧ asymQueryInt bits rounded ≤ asymIntMax bits := by
  have positive : 0 ≤ asymIntMax bits :=
    sub_nonneg.mpr (Int.add_one_le_of_lt (Int.pow_pos (by decide)))
  unfold asymQueryInt
  split_ifs <;> omega

/-- **The score of a code.** A query that is prepared for one-bit codes gives each code the sum of
its integers, with the sign of the code's bit, by every kernel. -/
theorem asymBit1Score_eq {K : Type*} [Field K] [LinearOrder K] (epsilon : K) (roundf : K → Int)
    (toFloat : Int → K) (asymmetric : Bool) (asymmetricBits : Int) (tq : AsymQuery K)
    (kernel : AsymKernel) (code : Nat → BitVec 8) :
    (tqPrepareQueryAsymBit1 epsilon roundf asymmetric asymmetricBits tq).map
        (fun bit1 => asymBit1RawScore toFloat kernel bit1 code) =
      if ¬asymmetric ∨ ¬tq.enabled ∨ tq.bits ≠ 1 ∨ tq.dimensions = 0 then none
      else
        let bits := tqQueryAsymSupportedBits asymmetricBits
        let scale := tqCodeCenters1.getD 1 0 / asymScale epsilon bits tq
        some (scale * toFloat (∑ i ∈ range tq.dimensions,
          if codeBit code i then asymComponent epsilon roundf bits tq i
          else -asymComponent epsilon roundf bits tq i)) := by
  have width := tqQueryAsymSupportedBits_cases asymmetricBits
  have inRange : ∀ i, -asymIntMax (tqQueryAsymSupportedBits asymmetricBits) ≤
      asymComponent epsilon roundf (tqQueryAsymSupportedBits asymmetricBits) tq i ∧
        asymComponent epsilon roundf (tqQueryAsymSupportedBits asymmetricBits) tq i ≤
          asymIntMax (tqQueryAsymSupportedBits asymmetricBits) := fun i =>
    asymQueryInt_range _ _
  unfold tqPrepareQueryAsymBit1
  split_ifs with skipped
  · rfl
  · have signs (i : Nat) (value : Int) :
        2 * (if codeBit code i then value else 0) - value =
          if codeBit code i then value else -value := by
      split_ifs
      · ring
      · ring
    rw [Option.map_some, asymBit1RawScore, asymDot_eq kernel width inRange, foldl_add, zero_add,
      mul_sum, ← sum_sub_distrib, sum_congr rfl fun i _ => signs i _]

end TurboHybrid.Quant
