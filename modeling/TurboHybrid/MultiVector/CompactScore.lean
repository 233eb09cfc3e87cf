/-
**The score of compact codes.**

The vector kernels multiply 16-bit codes, add the products of a block in lanes of 32 bits and widen
the sum of the block; the scalar kernel widens every product.

* `compactCodeScore_overflows`: a kernel misses the score by its blocks' overflows;
* `compactCodeScore_eq_iff`: it gives the scalar score exactly when these cancel.
-/
import TurboHybrid.Library.Lanes

namespace TurboHybrid.CompactScore

open Finset TurboHybrid.Library.Lanes

/-- The kernels that can be selected at run time. -/
inductive CompactKernel where
  | scalar
  | avx2
  | avx512
  | neon
  deriving DecidableEq, Repr

section Kernels

variable (queryCodes docCodes : Nat → Int16)

def product (i : Nat) : Int := (queryCodes i).toInt * (docCodes i).toInt

/-- The products from `start` on, each added in 64 bits. -/
def addProducts (start count : Nat) (score : Int) : Int :=
  (List.range (count - start)).foldl
    (fun score tail => score + product queryCodes docCodes (start + tail)) score

def compactCodeScoreScalar (count : Nat) : Int := addProducts queryCodes docCodes 0 count 0

def load (codes : Nat → Int16) (offset : Nat) : Register := fun lane => (codes (offset + lane)).toInt

/-- Neighbouring lanes added, those of the second register in the upper half. -/
def hadd32 (one other : Register) : Register := fun lane =>
  if lane < 2 then wrap 32 (one (2 * lane) + one (2 * lane + 1))
  else wrap 32 (other (2 * (lane - 2)) + other (2 * (lane - 2) + 1))

def compactCodeHsum256Epi32 (values : Register) : Int :=
  let low := values
  let high : Register := fun lane => values (4 + lane)
  let sum := add32 low high
  let sum := hadd32 sum sum
  let sum := hadd32 sum sum
  sum 0

def reduceAdd32 (lanes : Nat) (values : Register) : Int :=
  (List.range lanes).foldl (fun sum lane => wrap 32 (sum + values lane)) 0

def compactCodeScoreAvx2 (count : Nat) : Int :=
  let score := (List.range (count / 16)).foldl (fun score block =>
    score + compactCodeHsum256Epi32
      (madd16 (load queryCodes (16 * block)) (load docCodes (16 * block)))) 0
  addProducts queryCodes docCodes (16 * (count / 16)) count score

def compactCodeScoreAvx512 (count : Nat) : Int :=
  let score := (List.range (count / 32)).foldl (fun score block =>
    score + reduceAdd32 16
      (madd16 (load queryCodes (32 * block)) (load docCodes (32 * block)))) 0
  addProducts queryCodes docCodes (32 * (count / 32)) count score

/-- Products of four codes, each in a lane of 32 bits. -/
def mull16 (one other : Register) : Register := fun lane => wrap 32 (one lane * other lane)

def compactCodeScoreNeon (count : Nat) : Int :=
  let score := (List.range (count / 8)).foldl (fun score block =>
    let score := score + reduceAdd32 4
      (mull16 (load queryCodes (8 * block)) (load docCodes (8 * block)))
    score + reduceAdd32 4
      (mull16 (load queryCodes (8 * block + 4)) (load docCodes (8 * block + 4)))) 0
  addProducts queryCodes docCodes (8 * (count / 8)) count score

def compactCodeScore (kernel : CompactKernel) (count : Nat) : Int :=
  match kernel with
  | .scalar => compactCodeScoreScalar queryCodes docCodes count
  | .avx2 => compactCodeScoreAvx2 queryCodes docCodes count
  | .avx512 => compactCodeScoreAvx512 queryCodes docCodes count
  | .neon => compactCodeScoreNeon queryCodes docCodes count

end Kernels

/-! ### Horizontal sums -/

theorem reduceAdd32_eq (lanes : Nat) (values : Register) :
    reduceAdd32 lanes values = wrap 32 (∑ lane ∈ range lanes, values lane) := by
  induction lanes with
  | zero => rfl
  | succ lanes ih =>
    rw [reduceAdd32] at ih ⊢
    rw [List.range_succ, List.foldl_append, List.foldl_cons, List.foldl_nil, ih, wrap_add,
      sum_range_succ]

theorem compactCodeHsum256Epi32_eq (values : Register) :
    compactCodeHsum256Epi32 values = wrap 32 (∑ lane ∈ range 8, values lane) := by
  have sum : compactCodeHsum256Epi32 values =
      wrap 32 (wrap 32 (wrap 32 (values 0 + values 4) + wrap 32 (values 1 + values 5)) +
        wrap 32 (wrap 32 (values 2 + values 6) + wrap 32 (values 3 + values 7))) := rfl
  rw [sum]
  simp only [wrap_add, add_wrap, sum_range_succ, sum_range_zero]
  congr 1
  ring

theorem wrap_sum_wrap (terms : Nat → Int) (count : Nat) :
    wrap 32 (∑ i ∈ range count, wrap 32 (terms i)) = wrap 32 (∑ i ∈ range count, terms i) := by
  induction count with
  | zero => rfl
  | succ count ih =>
    rw [sum_range_succ, sum_range_succ, add_wrap, ← wrap_add, ih, wrap_add]

variable {queryCodes docCodes : Nat → Int16}

theorem madd16_sum (offset lanes : Nat) :
    wrap 32 (∑ lane ∈ range lanes, madd16 (load queryCodes offset) (load docCodes offset) lane) =
      wrap 32 (∑ i ∈ range (2 * lanes), product queryCodes docCodes (offset + i)) := by
  rw [← sum_blocks (fun i => product queryCodes docCodes (offset + i)) 2 lanes]
  refine (wrap_sum_wrap _ lanes).trans (congrArg _ (sum_congr rfl fun lane _ => ?_))
  rw [sum_range_succ, sum_range_one, add_zero]
  rfl

theorem mull16_sum (offset lanes : Nat) :
    wrap 32 (∑ lane ∈ range lanes, mull16 (load queryCodes offset) (load docCodes offset) lane) =
      wrap 32 (∑ i ∈ range lanes, product queryCodes docCodes (offset + i)) :=
  wrap_sum_wrap _ lanes

/-! ### The kernels -/

theorem addProducts_eq (start count : Nat) (score : Int) :
    addProducts queryCodes docCodes start count score =
      score + ∑ tail ∈ range (count - start), product queryCodes docCodes (start + tail) :=
  foldl_add _ _ _

theorem compactCodeScoreScalar_eq (count : Nat) :
    compactCodeScoreScalar queryCodes docCodes count =
      ∑ i ∈ range count, product queryCodes docCodes i := by
  rw [compactCodeScoreScalar, addProducts_eq, zero_add, Nat.sub_zero]
  simp only [zero_add]

def CompactKernel.width : CompactKernel → Nat
  | .scalar => 1
  | .avx2 => 16
  | .avx512 => 32
  | .neon => 4

def CompactKernel.blocks (kernel : CompactKernel) (count : Nat) : Nat :=
  match kernel with
  | .scalar => 0
  | .avx2 => count / 16
  | .avx512 => count / 32
  | .neon => 2 * (count / 8)

def blockSum (queryCodes docCodes : Nat → Int16) (kernel : CompactKernel) (block : Nat) : Int :=
  ∑ lane ∈ range kernel.width, product queryCodes docCodes (kernel.width * block + lane)

/-- How many times the range of 32 bits all blocks together lie outside it: sums above count up,
sums below count down. -/
def overflows (queryCodes docCodes : Nat → Int16) (kernel : CompactKernel) (count : Nat) : Int :=
  ∑ block ∈ range (kernel.blocks count), overflow 32 (blockSum queryCodes docCodes kernel block)

theorem compactCodeScore_blocks (kernel : CompactKernel) (count : Nat) :
    compactCodeScore queryCodes docCodes kernel count =
      ∑ block ∈ range (kernel.blocks count), wrap 32 (blockSum queryCodes docCodes kernel block) +
        ∑ tail ∈ range (count - kernel.width * kernel.blocks count),
          product queryCodes docCodes (kernel.width * kernel.blocks count + tail) := by
  cases kernel with
  | scalar =>
    rw [compactCodeScore, compactCodeScoreScalar, addProducts_eq]
    rfl
  | avx2 =>
    rw [compactCodeScore, compactCodeScoreAvx2, addProducts_eq, foldl_add, zero_add]
    refine congrArg₂ _ (sum_congr rfl fun block _ => ?_) rfl
    rw [compactCodeHsum256Epi32_eq, madd16_sum]
    rfl
  | avx512 =>
    rw [compactCodeScore, compactCodeScoreAvx512, addProducts_eq, foldl_add, zero_add]
    refine congrArg₂ _ (sum_congr rfl fun block _ => ?_) rfl
    rw [reduceAdd32_eq, madd16_sum]
    rfl
  | neon =>
    have halves : (count / 8) * 8 = 4 * (2 * (count / 8)) := by ring
    rw [compactCodeScore, compactCodeScoreNeon, addProducts_eq]
    simp only [add_assoc, foldl_add, zero_add]
    refine congrArg₂ _ ?_ ?_
    · rw [CompactKernel.blocks,
        ← sum_blocks (fun block => wrap 32 (blockSum queryCodes docCodes .neon block)) 2]
      refine sum_congr rfl fun block _ => ?_
      have first : 4 * (2 * block + 0) = 8 * block := by ring
      have second : 4 * (2 * block + 1) = 8 * block + 4 := by ring
      have two (halves : Nat → Int) : ∑ half ∈ range 2, halves half = halves 0 + halves 1 := by
        rw [sum_range_succ, sum_range_one]
      rw [reduceAdd32_eq, reduceAdd32_eq, mull16_sum, mull16_sum, two, blockSum, blockSum,
        CompactKernel.width, first, second]
    · rw [CompactKernel.blocks, CompactKernel.width, ← halves, Nat.mul_comm]

theorem blocks_le (kernel : CompactKernel) (count : Nat) :
    kernel.width * kernel.blocks count ≤ count := by
  cases kernel <;> simp only [CompactKernel.width, CompactKernel.blocks] <;> omega

/-- **What a kernel misses** is what its blocks lose. -/
theorem compactCodeScore_overflows (kernel : CompactKernel) (count : Nat) :
    compactCodeScore queryCodes docCodes kernel count +
        2 ^ 32 * overflows queryCodes docCodes kernel count =
      compactCodeScoreScalar queryCodes docCodes count := by
  have exact_ : ∑ block ∈ range (kernel.blocks count), blockSum queryCodes docCodes kernel block =
      ∑ i ∈ range (kernel.width * kernel.blocks count), product queryCodes docCodes i :=
    sum_blocks _ _ _
  have lost : ∑ block ∈ range (kernel.blocks count),
        wrap 32 (blockSum queryCodes docCodes kernel block) +
          2 ^ 32 * overflows queryCodes docCodes kernel count =
      ∑ block ∈ range (kernel.blocks count), blockSum queryCodes docCodes kernel block := by
    rw [overflows, mul_sum, ← sum_add_distrib]
    exact sum_congr rfl fun block _ => wrap_add_overflow 32 _
  have whole := sum_range_add (product queryCodes docCodes) (kernel.width * kernel.blocks count)
    (count - kernel.width * kernel.blocks count)
  rw [Nat.add_sub_cancel' (blocks_le kernel count)] at whole
  rw [compactCodeScore_blocks, compactCodeScoreScalar_eq, whole, ← exact_, ← lost]
  ring

/-- **A kernel agrees with the scalar one** exactly when the overflows of its blocks cancel. -/
theorem compactCodeScore_eq_iff (queryCodes docCodes : Nat → Int16) (kernel : CompactKernel)
    (count : Nat) :
    compactCodeScore queryCodes docCodes kernel count =
        compactCodeScoreScalar queryCodes docCodes count ↔
      overflows queryCodes docCodes kernel count = 0 := by
  have missed := @compactCodeScore_overflows queryCodes docCodes kernel count
  constructor
  · intro same
    omega
  · intro none
    rw [none] at missed
    omega

/-- Sixteen pairs of the largest code. -/
theorem compactCodeScoreAvx2_largest :
    compactCodeScore (fun _ => 32767) (fun _ => 32767) .avx2 16 ≠
      compactCodeScoreScalar (fun _ => 32767) (fun _ => 32767) 16 := by
  decide

end TurboHybrid.CompactScore
