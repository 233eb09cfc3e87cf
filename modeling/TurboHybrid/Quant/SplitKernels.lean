/-
**The integer kernels of the four-bit codes.**

A query component is rounded to an integer and split into two halves of seven bits; the codebook is
shifted by 128 to unsigned bytes. The kernels multiply the halves by codebook bytes, sixteen
components to a chunk, in lanes that saturate at 16 bits and wrap at 32; a bias of the query takes
the shift back.

* `tqQuerySplitValue_spec`: the halves give the integer, each within 64;
* `Prepared.lanes_exact`: no pair of products saturates and no sum leaves 32 bits;
* `U8Kernel.raw_eq`: every kernel gives the sum of the products with the shifted codebook;
* `u8Split_score_eq`: without the bias that is the sum with the signed codebook.
-/
import TurboHybrid.Quant.BitPlanes
import Mathlib.Data.Rat.Floor

namespace TurboHybrid.Quant

open Finset Library TurboHybrid.Library.Lanes

/-! ### The query -/

/-- `PGTURBOHYBRID_VECTOR_MAX_DIM`. -/
def vectorMaxDim : Nat := 16000

/-- What the preparation reads of a query; its vector passed the check of dimensions. -/
structure SplitQuery where
  enabled : Bool
  bits : Nat
  scoreL1 : Bool
  dimensions : Nat
  queryValues : Nat → Rat
  inRange : dimensions ≤ vectorMaxDim

structure SplitValue where
  qSigned : Int
  low : Int
  high : Int

/-- `tq->u8` with the chunks of the query. -/
structure U8Split where
  querySplitChunks : Nat
  querySplitTailDims : Nat
  data : Nat → Int
  tailLow : Nat → Int
  tailHigh : Nat → Int
  bias : Int

/-- `TqQuerySplitAbsMax`. -/
def tqQuerySplitAbsMax (epsilon : Rat) (tq : SplitQuery) : Rat :=
  let qAbsMax := (List.range tq.dimensions).foldl (fun largest i =>
    max largest |tq.queryValues i|) 0
  if qAbsMax < epsilon then epsilon else qAbsMax

/-- **`TqQuerySplitValue`**; `lrintf` rounds ties to even. -/
def tqQuerySplitValue (scaled absMax : Rat) (highCoef : Int) : SplitValue :=
  let qSigned := roundEven (clamp (-absMax) absMax scaled)
  let lowMod := qSigned.tmod highCoef
  let lowMod := if lowMod < 0 then lowMod + highCoef else lowMod
  let low := wrap 8 (if highCoef.tdiv 2 ≤ lowMod then lowMod - highCoef else lowMod)
  { qSigned := qSigned
    low := low
    high := wrap 8 ((qSigned - low).tdiv highCoef) }

/-- The halves of a component, stored into its chunk or into the tail. -/
def storeSplit (fullDims i : Nat) (value : SplitValue) (split : U8Split) : U8Split :=
  if i < fullDims then
    let chunk := i / 16
    let lane := i % 16
    let data := Function.update split.data (chunk * 32 + lane) value.low
    { split with data := Function.update data (chunk * 32 + 16 + lane) value.high }
  else
    let tail := i - fullDims
    { split with
      tailLow := Function.update split.tailLow tail value.low
      tailHigh := Function.update split.tailHigh tail value.high }

/-- The halves of one component; `multiply` is the product of floats. -/
def splitComponent (epsilon : Rat) (multiply : Rat → Rat → Rat) (tq : SplitQuery) (i : Nat) :
    SplitValue :=
  tqQuerySplitValue (multiply (tq.queryValues i) (8127 / tqQuerySplitAbsMax epsilon tq)) 8127 128

/-- **`TqPrepareQueryU8Split`**; `none` leaves the query without the representation. -/
def tqPrepareQueryU8Split (epsilon : Rat) (multiply : Rat → Rat → Rat) (tq : SplitQuery) :
    Option U8Split :=
  if ¬tq.enabled ∨ tq.bits ≠ 4 ∨ tq.scoreL1 ∨ tq.dimensions = 0 then none
  else
    let chunks := tq.dimensions / 16
    let split : U8Split :=
      { querySplitChunks := chunks
        querySplitTailDims := tq.dimensions - chunks * 16
        data := fun _ => 0
        tailLow := fun _ => 0
        tailHigh := fun _ => 0
        bias := 0 }
    let split := (List.range tq.dimensions).foldl (fun split i =>
      storeSplit (chunks * 16) i (splitComponent epsilon multiply tq i) split) split
    let sumSigned := (List.range tq.dimensions).foldl (fun sum i =>
      sum + (splitComponent epsilon multiply tq i).qSigned) 0
    some { split with bias := 128 * sumSigned }

/-! ### The codebooks -/

/-- `PgturbohybridGraphCodebookI8`. -/
def codebookI8 : List Int :=
  [-127, -96, -75, -58, -44, -31, -18, -6, 6, 18, 31, 44, 58, 75, 96, 127]

/-- `PgturbohybridGraphCodebookU8`. -/
def codebookU8 : List Int :=
  [1, 32, 53, 70, 84, 97, 110, 122, 134, 146, 159, 172, 186, 203, 224, 255]

def codeU8 (code : Nat → BitVec 8) (i : Nat) : Int :=
  codebookU8.getD (tqGetCodeComponentBits code i 4) 0

def codeI8 (code : Nat → BitVec 8) (i : Nat) : Int :=
  codebookI8.getD (tqGetCodeComponentBits code i 4) 0

/-! ### The scalar kernel -/

/-- `PgturbohybridGraphQuerySplitU8RawScalar`. -/
def querySplitU8RawScalar (split : U8Split) (code : Nat → BitVec 8) : Int :=
  let fullDims := split.querySplitChunks * 16
  let dotLow := (List.range fullDims).foldl (fun dot i =>
    dot + split.data (i / 16 * 32 + i % 16) * codeU8 code i) 0
  let dotHigh := (List.range fullDims).foldl (fun dot i =>
    dot + split.data (i / 16 * 32 + 16 + i % 16) * codeU8 code i) 0
  let dotLow := (List.range split.querySplitTailDims).foldl (fun dot j =>
    dot + split.tailLow j * codeU8 code (fullDims + j)) dotLow
  let dotHigh := (List.range split.querySplitTailDims).foldl (fun dot j =>
    dot + split.tailHigh j * codeU8 code (fullDims + j)) dotHigh
  dotLow + 128 * dotHigh

/-! ### The vector kernels -/

/-- The index bytes of sixteen components: the halves of eight bytes, interleaved. -/
def unpack (packed : Nat → BitVec 8) (lane : Nat) : BitVec 8 :=
  if lane % 2 = 0 then packed (lane / 2) &&& 0x0F else shiftedByte packed (lane / 2) &&& 0x0F

def decode16 (packed : Nat → BitVec 8) : Register := fun lane =>
  codebookU8.getD (unpack packed lane).toNat 0

/-- The codebook bytes of a chunk, in both halves of a register. -/
def broadcast (cvals : Register) : Register := fun lane => cvals (lane % 16)

/-- `PgturbohybridGraphU8Decode32Avx512`: two chunks, each in two quarters of a register. -/
def decode32 (packed : Nat → BitVec 8) : Register := fun lane =>
  if lane < 32 then decode16 packed (lane % 16) else decode16 (fun i => packed (8 + i)) (lane % 16)

def ones : Register := fun _ => 1

/-- `PgturbohybridGraphU8Accum16Avx2`. -/
def accum16 (acc c256 lh : Register) : Register := add32 acc (madd16 (maddubs c256 lh) ones)

def tailScratch (split : U8Split) (code : Nat → BitVec 8) : Nat → BitVec 8 := fun i =>
  if i < (split.querySplitTailDims + 1) / 2 then code (split.querySplitChunks * 8 + i) else 0

/-- `PgturbohybridGraphU8TailAccumAvx2` and its counterpart, for one half of the query. -/
def addTail128 (split : U8Split) (code : Nat → BitVec 8) (tail acc : Register) : Register :=
  if split.querySplitTailDims ≠ 0 then
    add32 acc (madd16 (maddubs (decode16 (tailScratch split code)) tail) ones)
  else acc

/-- The four lanes of a register from a lane on, added in 64 bits. -/
def sum4 (register : Register) (lane : Nat) : Int :=
  register lane + register (lane + 1) + register (lane + 2) + register (lane + 3)

/-- A chunk of the query: the sixteen low halves and the sixteen high halves. -/
def loadChunk (split : U8Split) (chunk : Nat) : Register := fun lane =>
  split.data (chunk * 32 + lane)

def codeChunk (code : Nat → BitVec 8) (chunk : Nat) : Nat → BitVec 8 := fun i =>
  code (chunk * 8 + i)

/-- `PgturbohybridGraphU8ReduceAvx2`. -/
def reduceAvx2 (acc accLow accHigh : Register) : Int :=
  (sum4 acc 0 + sum4 accLow 0) + 128 * (sum4 acc 4 + sum4 accHigh 0)

/-- `PgturbohybridGraphQuerySplitU8RawAvx2`. -/
def querySplitU8RawAvx2 (split : U8Split) (code : Nat → BitVec 8) : Int :=
  let acc := (List.range split.querySplitChunks).foldl (fun acc chunk =>
    accum16 acc (broadcast (decode16 (codeChunk code chunk))) (loadChunk split chunk)) zero
  reduceAvx2 acc (addTail128 split code split.tailLow zero)
    (addTail128 split code split.tailHigh zero)

/-- `PgturbohybridGraphQuerySplitU8RawAvx2x4`: four codes against each chunk of the query. -/
def querySplitU8RawAvx2x4 (split : U8Split) (codes : Fin 4 → Nat → BitVec 8) : Fin 4 → Int :=
  let acc := (List.range split.querySplitChunks).foldl (fun (acc : Fin 4 → Register) chunk =>
    let lh := loadChunk split chunk
    fun c => accum16 (acc c) (broadcast (decode16 (codeChunk (codes c) chunk))) lh) fun _ => zero
  fun c => reduceAvx2 (acc c) (addTail128 split (codes c) split.tailLow zero)
    (addTail128 split (codes c) split.tailHigh zero)

def loadPair (split : U8Split) (pair : Nat) : Register := fun lane => split.data (pair * 64 + lane)

def codePair (code : Nat → BitVec 8) (pair : Nat) : Nat → BitVec 8 := fun i =>
  code (pair * 16 + i)

/-- `PgturbohybridGraphU8Fold512Avx512`: the low or the high lanes of both chunks of a pair,
added. -/
def fold512 (acc : Register) (offset : Nat) : Register :=
  add32 (fun lane => acc (offset + lane)) fun lane => acc (offset + 8 + lane)

/-- The odd chunk: `PgturbohybridGraphU8Madd128Avx512`, for one half of the query. -/
def addOdd128 (split : U8Split) (code : Nat → BitVec 8) (offset : Nat) (sum : Register) :
    Register :=
  if split.querySplitChunks % 2 = 1 then
    let chunk := split.querySplitChunks / 2 * 2
    add32 sum (madd16 (maddubs (decode16 (codeChunk code chunk)) fun lane =>
      split.data (chunk * 32 + offset + lane)) ones)
  else sum

/-- What the pairs leave, with the odd chunk and the tail. -/
def reduce512 (split : U8Split) (code : Nat → BitVec 8) (acc : Register) : Int :=
  let sumLow := addTail128 split code split.tailLow (addOdd128 split code 0 (fold512 acc 0))
  let sumHigh := addTail128 split code split.tailHigh (addOdd128 split code 16 (fold512 acc 4))
  sum4 sumLow 0 + 128 * sum4 sumHigh 0

/-- `PgturbohybridGraphQuerySplitU8RawAvx512Vnni`. -/
def querySplitU8RawAvx512Vnni (split : U8Split) (code : Nat → BitVec 8) : Int :=
  reduce512 split code ((List.range (split.querySplitChunks / 2)).foldl (fun acc pair =>
    dpbusd acc (decode32 (codePair code pair)) (loadPair split pair)) zero)

/-- `PgturbohybridGraphQuerySplitU8RawAvx512Vnnix4`. -/
def querySplitU8RawAvx512Vnnix4 (split : U8Split) (codes : Fin 4 → Nat → BitVec 8) :
    Fin 4 → Int :=
  let acc := (List.range (split.querySplitChunks / 2)).foldl (fun (acc : Fin 4 → Register) pair =>
    let lh := loadPair split pair
    fun c => dpbusd (acc c) (decode32 (codePair (codes c) pair)) lh) fun _ => zero
  fun c => reduce512 split (codes c) (acc c)

/-- The kernels that score a code alone, or as one of four. -/
inductive U8Kernel where
  | scalar
  | avx2
  | avx512Vnni
  | avx2x4 (c : Fin 4) (others : Fin 4 → Nat → BitVec 8)
  | avx512Vnnix4 (c : Fin 4) (others : Fin 4 → Nat → BitVec 8)

/-- The raw score of a code; a kernel for four codes has it in one place among the others. -/
def U8Kernel.raw (kernel : U8Kernel) (split : U8Split) (code : Nat → BitVec 8) : Int :=
  match kernel with
  | .scalar => querySplitU8RawScalar split code
  | .avx2 => querySplitU8RawAvx2 split code
  | .avx512Vnni => querySplitU8RawAvx512Vnni split code
  | .avx2x4 c others => querySplitU8RawAvx2x4 split (Function.update others c code) c
  | .avx512Vnnix4 c others => querySplitU8RawAvx512Vnnix4 split (Function.update others c code) c

/-! ### The halves of a component -/

theorem splitHalves {q low : Int} (small : -8127 ≤ q ∧ q ≤ 8127)
    (lower : low = if 64 ≤ q % 128 then q % 128 - 128 else q % 128) :
    -64 ≤ low ∧ low ≤ 63 ∧ -64 ≤ (q - low).tdiv 128 ∧ (q - low).tdiv 128 ≤ 63 ∧
      128 * (q - low).tdiv 128 + low = q := by
  obtain ⟨high, rest⟩ : ∃ high : Int, q - low = 128 * high := by
    refine ⟨if 64 ≤ q % 128 then q / 128 + 1 else q / 128, ?_⟩
    rw [lower]
    split_ifs <;> omega
  have quotient : (128 * high).tdiv 128 = high := Int.mul_tdiv_cancel_left high (by decide)
  rw [rest, quotient]
  split_ifs at lower <;> omega

theorem tmod_nonneg (q : Int) :
    (if q.tmod 128 < 0 then q.tmod 128 + 128 else q.tmod 128) = q % 128 := by
  rw [Int.tmod_eq_emod]
  split_ifs <;> omega

/-- **The halves** give the integer and have seven bits. -/
theorem tqQuerySplitValue_spec (scaled : Rat) :
    128 * (tqQuerySplitValue scaled 8127 128).high + (tqQuerySplitValue scaled 8127 128).low =
        (tqQuerySplitValue scaled 8127 128).qSigned ∧
      |(tqQuerySplitValue scaled 8127 128).low| ≤ 64 ∧
      |(tqQuerySplitValue scaled 8127 128).high| ≤ 64 := by
  have bounds := clamp_mem (show (-8127 : Rat) ≤ 8127 by norm_num) scaled
  have small : -8127 ≤ roundEven (clamp (-8127 : Rat) 8127 scaled) ∧
      roundEven (clamp (-8127 : Rat) 8127 scaled) ≤ 8127 := by
    refine roundEven_between (-8127) 8127 ?_ ?_
    · exact_mod_cast bounds.1
    · exact_mod_cast bounds.2
  have half : Int.tdiv 128 2 = 64 := rfl
  obtain ⟨low, low', high, high', whole⟩ := splitHalves small rfl
  have byte {value : Int} (above : -64 ≤ value) (below : value ≤ 63) : wrap 8 value = value :=
    wrap_eq (by decide) (above.trans' (by decide)) (below.trans_lt (by decide))
  simp only [tqQuerySplitValue, tmod_nonneg, half, byte low low', byte high high']
  refine ⟨whole, abs_le.mpr ⟨low, low'.trans (by decide)⟩, ?_⟩
  exact abs_le.mpr ⟨high, high'.trans (by decide)⟩

/-! ### The prepared query -/

/-- The arrays after some components, chunks of sixteen before the tail. -/
structure Stored (chunks count : Nat) (value : Nat → SplitValue) (split : U8Split) : Prop where
  low : ∀ chunk < chunks, ∀ lane < 16, split.data (chunk * 32 + lane) =
    if 16 * chunk + lane < count then (value (16 * chunk + lane)).low else 0
  high : ∀ chunk < chunks, ∀ lane < 16, split.data (chunk * 32 + 16 + lane) =
    if 16 * chunk + lane < count then (value (16 * chunk + lane)).high else 0
  rest : ∀ cell, chunks * 32 ≤ cell → split.data cell = 0
  tailLow : ∀ tail, split.tailLow tail =
    if 16 * chunks + tail < count then (value (16 * chunks + tail)).low else 0
  tailHigh : ∀ tail, split.tailHigh tail =
    if 16 * chunks + tail < count then (value (16 * chunks + tail)).high else 0

section Store

variable {chunks count : Nat} {value : Nat → SplitValue} {split : U8Split}

theorem Stored.chunk (stored : Stored chunks count value split) (inside : count < chunks * 16) :
    Stored chunks (count + 1) value (storeSplit (chunks * 16) count (value count) split) := by
  have place : count = 16 * (count / 16) + count % 16 := by omega
  have beyond (tail : Nat) : ¬16 * chunks + tail < count + 1 := by omega
  have before (tail : Nat) : ¬16 * chunks + tail < count := by omega
  rw [storeSplit, if_pos inside]
  refine ⟨fun chunk within lane small => ?_, fun chunk within lane small => ?_,
    fun cell after => ?_, fun tail => ?_, fun tail => ?_⟩
  all_goals dsimp only
  · by_cases here : 16 * chunk + lane = count
    · have chunk_ : count / 16 = chunk := by omega
      have lane_ : count % 16 = lane := by omega
      rw [here, if_pos (Nat.lt_succ_self _), chunk_, lane_, Function.update_of_ne (by omega),
        Function.update_self]
    · have step : 16 * chunk + lane < count + 1 ↔ 16 * chunk + lane < count := by omega
      rw [Function.update_of_ne (by omega), Function.update_of_ne (by omega),
        stored.low chunk within lane small, if_congr step rfl rfl]
  · by_cases here : 16 * chunk + lane = count
    · have chunk_ : count / 16 = chunk := by omega
      have lane_ : count % 16 = lane := by omega
      rw [here, if_pos (Nat.lt_succ_self _), chunk_, lane_, Function.update_self]
    · have step : 16 * chunk + lane < count + 1 ↔ 16 * chunk + lane < count := by omega
      rw [Function.update_of_ne (by omega), Function.update_of_ne (by omega),
        stored.high chunk within lane small, if_congr step rfl rfl]
  · rw [Function.update_of_ne (by omega), Function.update_of_ne (by omega), stored.rest cell after]
  · rw [stored.tailLow, if_neg (before tail), if_neg (beyond tail)]
  · rw [stored.tailHigh, if_neg (before tail), if_neg (beyond tail)]

theorem Stored.tail (stored : Stored chunks count value split) (outside : chunks * 16 ≤ count) :
    Stored chunks (count + 1) value (storeSplit (chunks * 16) count (value count) split) := by
  have full (chunk : Nat) (within : chunk < chunks) (lane : Nat) (small : lane < 16) :
      16 * chunk + lane < count + 1 ↔ 16 * chunk + lane < count := by omega
  have cell (half : SplitValue → Int) (array : Nat → Int) (tail : Nat)
      (same : array tail =
        if 16 * chunks + tail < count then half (value (16 * chunks + tail)) else 0) :
      Function.update array (count - chunks * 16) (half (value count)) tail =
        if 16 * chunks + tail < count + 1 then half (value (16 * chunks + tail)) else 0 := by
    by_cases here : 16 * chunks + tail = count
    · rw [here, if_pos (Nat.lt_succ_self _), show tail = count - chunks * 16 by omega,
        Function.update_self]
    · have step : 16 * chunks + tail < count + 1 ↔ 16 * chunks + tail < count := by omega
      rw [Function.update_of_ne (by omega), same, if_congr step rfl rfl]
  rw [storeSplit, if_neg (Nat.not_lt.mpr outside)]
  refine ⟨fun chunk within lane small => ?_, fun chunk within lane small => ?_, stored.rest,
    fun tail => cell SplitValue.low _ tail (stored.tailLow tail),
    fun tail => cell SplitValue.high _ tail (stored.tailHigh tail)⟩
  · rw [if_congr (full chunk within lane small) rfl rfl]
    exact stored.low chunk within lane small
  · rw [if_congr (full chunk within lane small) rfl rfl]
    exact stored.high chunk within lane small

theorem Stored.step (stored : Stored chunks count value split) :
    Stored chunks (count + 1) value (storeSplit (chunks * 16) count (value count) split) := by
  rcases Nat.lt_or_ge count (chunks * 16) with inside | outside
  · exact stored.chunk inside
  · exact stored.tail outside

theorem storeSplits (chunks : Nat) (value : Nat → SplitValue) (start : U8Split)
    (empty : Stored chunks 0 value start) (count : Nat) :
    Stored chunks count value ((List.range count).foldl (fun split i =>
        storeSplit (chunks * 16) i (value i) split) start) := by
  induction count with
  | zero => exact empty
  | succ count ih =>
    rw [List.range_succ, List.foldl_append, List.foldl_cons, List.foldl_nil]
    exact ih.step

theorem storeSplit_counts (fullDims i : Nat) (value : SplitValue) (split : U8Split) :
    (storeSplit fullDims i value split).querySplitChunks = split.querySplitChunks ∧
      (storeSplit fullDims i value split).querySplitTailDims = split.querySplitTailDims := by
  unfold storeSplit
  split <;> exact ⟨rfl, rfl⟩

theorem storeSplits_counts (chunks : Nat) (value : Nat → SplitValue) (start : U8Split)
    (count : Nat) :
    ((List.range count).foldl (fun split i => storeSplit (chunks * 16) i (value i) split)
        start).querySplitChunks = start.querySplitChunks ∧
      ((List.range count).foldl (fun split i => storeSplit (chunks * 16) i (value i) split)
        start).querySplitTailDims = start.querySplitTailDims := by
  induction count with
  | zero => exact ⟨rfl, rfl⟩
  | succ count ih =>
    rw [List.range_succ, List.foldl_append, List.foldl_cons, List.foldl_nil]
    have kept := storeSplit_counts (chunks * 16) count (value count)
      ((List.range count).foldl (fun split i => storeSplit (chunks * 16) i (value i) split) start)
    exact ⟨kept.1.trans ih.1, kept.2.trans ih.2⟩

end Store

/-- **A prepared query**: its chunks and its tail hold the halves of the integers. -/
structure Prepared (dims : Nat) (value : Nat → SplitValue) (split : U8Split) : Prop where
  inRange : dims ≤ vectorMaxDim
  halves : ∀ i, 128 * (value i).high + (value i).low = (value i).qSigned ∧
    |(value i).low| ≤ 64 ∧ |(value i).high| ≤ 64
  chunks : split.querySplitChunks = dims / 16
  tail : split.querySplitTailDims = dims % 16
  stored : Stored (dims / 16) dims value split
  bias : split.bias = 128 * ∑ i ∈ range dims, (value i).qSigned

theorem tqPrepareQueryU8Split_spec (epsilon : Rat) (multiply : Rat → Rat → Rat)
    (tq : SplitQuery) :
    (¬tq.enabled ∨ tq.bits ≠ 4 ∨ tq.scoreL1 ∨ tq.dimensions = 0) ∧
        tqPrepareQueryU8Split epsilon multiply tq = none ∨
      ¬(¬tq.enabled ∨ tq.bits ≠ 4 ∨ tq.scoreL1 ∨ tq.dimensions = 0) ∧
        ∃ split, tqPrepareQueryU8Split epsilon multiply tq = some split ∧
          Prepared tq.dimensions (splitComponent epsilon multiply tq) split := by
  unfold tqPrepareQueryU8Split
  split_ifs with left
  · exact Or.inl ⟨left, rfl⟩
  · refine Or.inr ⟨left, _, rfl, tq.inRange, fun i => tqQuerySplitValue_spec _, ?_, ?_, ?_, ?_⟩
    · exact (storeSplits_counts _ _ _ _).1
    · have tail : tq.dimensions - tq.dimensions / 16 * 16 = tq.dimensions % 16 := by omega
      exact (storeSplits_counts _ _ _ _).2.trans tail
    · have all := storeSplits (tq.dimensions / 16) (splitComponent epsilon multiply tq)
        { querySplitChunks := tq.dimensions / 16
          querySplitTailDims := tq.dimensions - tq.dimensions / 16 * 16
          data := fun _ => 0
          tailLow := fun _ => 0
          tailHigh := fun _ => 0
          bias := 0 }
        ⟨fun _ _ _ _ => rfl, fun _ _ _ _ => rfl, fun _ _ => rfl, fun _ => rfl, fun _ => rfl⟩
        tq.dimensions
      exact ⟨all.low, all.high, all.rest, all.tailLow, all.tailHigh⟩
    · rw [foldl_add, zero_add]

/-! ### The codebook bytes -/

theorem codebook_shift : ∀ code < 16,
    codebookU8.getD code 0 = codebookI8.getD code 0 + 128 := by
  decide

theorem codebookU8_bytes (code : Nat) :
    0 ≤ codebookU8.getD code 0 ∧ codebookU8.getD code 0 ≤ 255 := by
  rcases Nat.lt_or_ge code 16 with inside | outside
  · have all : ∀ code < 16, 0 ≤ codebookU8.getD code 0 ∧ codebookU8.getD code 0 ≤ 255 := by
      decide
    exact all code inside
  · rw [List.getD_eq_default _ _ outside]
    decide

theorem codeComponent_lt (code : Nat → BitVec 8) (i : Nat) :
    tqGetCodeComponentBits code i 4 < 16 := by
  rw [tqGetCodeComponentBits, if_neg (by decide), if_neg (by decide), if_neg (by decide),
    BitVec.toNat_and]
  exact Nat.lt_succ_of_le Nat.and_le_right

theorem codeU8_eq (code : Nat → BitVec 8) (i : Nat) : codeU8 code i = codeI8 code i + 128 :=
  codebook_shift _ (codeComponent_lt code i)

theorem unpack_eq (packed : Nat → BitVec 8) (lane : Nat) :
    (unpack packed lane).toNat = tqGetCodeComponentBits packed lane 4 := by
  have low : lane &&& 1 = lane % 2 := Nat.and_one_is_mod lane
  rw [tqGetCodeComponentBits, if_neg (by decide), if_neg (by decide), if_neg (by decide), unpack,
    low]
  by_cases even : lane % 2 = 0
  · rw [if_pos even, if_pos even]
  · have small : packed (lane / 2) >>> 4 &&& (0x0F : BitVec 8) = packed (lane / 2) >>> 4 := by
      rw [← shiftedByte_low, BitVec.and_assoc, BitVec.and_self]
    rw [if_neg even, if_neg even, shiftedByte_low]
    exact congrArg BitVec.toNat small.symm

theorem component_offset (code : Nat → BitVec 8) (offset lane : Nat) :
    tqGetCodeComponentBits (fun i => code (offset + i)) lane 4 =
      tqGetCodeComponentBits code (2 * offset + lane) 4 := by
  have half : (2 * offset + lane) / 2 = offset + lane / 2 := by omega
  have parity : 2 * offset + lane &&& 1 = lane &&& 1 := by
    rw [Nat.and_one_is_mod, Nat.and_one_is_mod]
    omega
  rw [tqGetCodeComponentBits, tqGetCodeComponentBits, half, parity]
  rfl

theorem decode16_chunk (code : Nat → BitVec 8) (chunk lane : Nat) :
    decode16 (codeChunk code chunk) lane = codeU8 code (16 * chunk + lane) := by
  have place : 2 * (chunk * 8) + lane = 16 * chunk + lane := by ring
  rw [decode16, unpack_eq, codeU8, ← place]
  exact congrArg (fun code => codebookU8.getD code 0) (component_offset code (chunk * 8) lane)

theorem codePair_chunk (code : Nat → BitVec 8) (pair : Nat) :
    codePair code pair = codeChunk code (2 * pair) ∧
      (fun i => codePair code pair (8 + i)) = codeChunk code (2 * pair + 1) := by
  constructor
  · funext i
    exact congrArg code (by ring)
  · funext i
    exact congrArg code (by ring)

theorem decode16_bytes (packed : Nat → BitVec 8) (lane : Nat) :
    0 ≤ decode16 packed lane ∧ decode16 packed lane ≤ 255 :=
  codebookU8_bytes _

/-! ### The halves of the query in the registers -/

inductive Half where
  | low
  | high

def Half.offset : Half → Nat
  | .low => 0
  | .high => 16

def Half.value (half : Half) (value : SplitValue) : Int :=
  match half with
  | .low => value.low
  | .high => value.high

def Half.tail (half : Half) (split : U8Split) : Register :=
  match half with
  | .low => split.tailLow
  | .high => split.tailHigh

section Registers

variable {dims : Nat} {value : Nat → SplitValue} {split : U8Split}

theorem Prepared.half_small (prepared : Prepared dims value split) (half : Half) (i : Nat) :
    |half.value (value i)| ≤ 64 := by
  cases half with
  | low => exact (prepared.halves i).2.1
  | high => exact (prepared.halves i).2.2

theorem Prepared.cell (prepared : Prepared dims value split) (half : Half) {chunk lane : Nat}
    (within : chunk < dims / 16) (small : lane < 16) :
    split.data (chunk * 32 + half.offset + lane) = half.value (value (16 * chunk + lane)) := by
  have stored : 16 * chunk + lane < dims := by omega
  cases half with
  | low => exact (prepared.stored.low chunk within lane small).trans (if_pos stored)
  | high => exact (prepared.stored.high chunk within lane small).trans (if_pos stored)

theorem Prepared.tailCell (prepared : Prepared dims value split) (half : Half) (lane : Nat) :
    half.tail split lane =
      if lane < dims % 16 then half.value (value (16 * (dims / 16) + lane)) else 0 := by
  have inside : 16 * (dims / 16) + lane < dims ↔ lane < dims % 16 := by omega
  cases half with
  | low => exact (prepared.stored.tailLow lane).trans (if_congr inside rfl rfl)
  | high => exact (prepared.stored.tailHigh lane).trans (if_congr inside rfl rfl)

theorem Prepared.data_small (prepared : Prepared dims value split) (cell : Nat) :
    |split.data cell| ≤ 64 := by
  rcases Nat.lt_or_ge cell (dims / 16 * 32) with inside | outside
  · have chunk : cell / 32 < dims / 16 := by omega
    rcases Nat.lt_or_ge (cell % 32) 16 with low | high
    · have place : cell = cell / 32 * 32 + Half.low.offset + cell % 32 := by
        rw [Half.offset]
        omega
      rw [place, prepared.cell .low chunk low]
      exact prepared.half_small _ _
    · have place : cell = cell / 32 * 32 + Half.high.offset + (cell % 32 - 16) := by
        rw [Half.offset]
        omega
      rw [place, prepared.cell .high chunk (by omega)]
      exact prepared.half_small _ _
  · rw [prepared.stored.rest cell outside]
    decide

theorem Prepared.tail_small (prepared : Prepared dims value split) (half : Half) (lane : Nat) :
    |half.tail split lane| ≤ 64 := by
  rw [prepared.tailCell]
  split_ifs with inside
  · exact prepared.half_small half _
  · decide

/-- The product of a component with the codebook byte of a code. -/
def product (value : Nat → SplitValue) (code : Nat → BitVec 8) (half : Half) (i : Nat) : Int :=
  codeU8 code i * half.value (value i)

def chunkLane (value : Nat → SplitValue) (code : Nat → BitVec 8) (half : Half)
    (chunk lane : Nat) : Int :=
  ∑ part ∈ range 4, product value code half (16 * chunk + (4 * lane + part))

def tailLane (dims : Nat) (value : Nat → SplitValue) (code : Nat → BitVec 8) (half : Half)
    (lane : Nat) : Int :=
  ∑ part ∈ range 4, if 4 * lane + part < dims % 16 then
    product value code half (16 * (dims / 16) + (4 * lane + part)) else 0

variable (code : Nat → BitVec 8)

theorem avx2_bytes (prepared : Prepared dims value split) (chunk : Nat) :
    ByteLanes (broadcast (decode16 (codeChunk code chunk))) (loadChunk split chunk) :=
  ⟨fun _ => decode16_bytes _ _, fun _ => prepared.data_small _⟩

theorem avx2_quad (prepared : Prepared dims value split) (half : Half) {chunk lane : Nat}
    (within : chunk < dims / 16) (small : lane < 4) :
    quad (broadcast (decode16 (codeChunk code chunk))) (loadChunk split chunk)
      (half.offset / 4 + lane) = chunkLane value code half chunk lane := by
  refine sum_congr rfl fun part bound => ?_
  rw [mem_range] at bound
  have place : 4 * (half.offset / 4 + lane) + part = half.offset + (4 * lane + part) := by
    cases half <;> simp only [Half.offset] <;> omega
  have lane_ : (half.offset + (4 * lane + part)) % 16 = 4 * lane + part := by
    cases half <;> simp only [Half.offset] <;> omega
  have cell := prepared.cell half within (show 4 * lane + part < 16 by omega)
  rw [Nat.add_assoc] at cell
  rw [place, broadcast, lane_, decode16_chunk, loadChunk, cell]
  rfl

theorem pair_bytes (prepared : Prepared dims value split) (pair : Nat) :
    ByteLanes (decode32 (codePair code pair)) (loadPair split pair) := by
  refine ⟨fun lane => ?_, fun _ => prepared.data_small _⟩
  unfold decode32
  split_ifs <;> exact decode16_bytes _ _

theorem pair_quad (prepared : Prepared dims value split) (half : Half) {pair second lane : Nat}
    (within : 2 * pair + second < dims / 16) (which : second < 2) (small : lane < 4) :
    quad (decode32 (codePair code pair)) (loadPair split pair)
      (8 * second + half.offset / 4 + lane) =
        chunkLane value code half (2 * pair + second) lane := by
  refine sum_congr rfl fun part bound => ?_
  rw [mem_range] at bound
  have place : 4 * (8 * second + half.offset / 4 + lane) + part =
      32 * second + half.offset + (4 * lane + part) := by
    cases half <;> simp only [Half.offset] <;> omega
  have lane_ : (32 * second + half.offset + (4 * lane + part)) % 16 = 4 * lane + part := by
    cases half <;> simp only [Half.offset] <;> omega
  have cell : pair * 64 + (32 * second + half.offset + (4 * lane + part)) =
      (2 * pair + second) * 32 + half.offset + (4 * lane + part) := by ring
  have byte : decode32 (codePair code pair) (32 * second + half.offset + (4 * lane + part)) =
      codeU8 code (16 * (2 * pair + second) + (4 * lane + part)) := by
    rw [decode32, lane_, (codePair_chunk code pair).1]
    rcases Nat.lt_or_ge second 1 with first | last
    · obtain rfl : second = 0 := by omega
      rw [if_pos (by cases half <;> simp only [Half.offset] <;> omega), decode16_chunk]
      rfl
    · obtain rfl : second = 1 := by omega
      have odd := (codePair_chunk code pair).2
      rw [(codePair_chunk code pair).1] at odd
      rw [if_neg (by cases half <;> simp only [Half.offset] <;> omega), odd, decode16_chunk]
  rw [place, byte, loadPair, cell, prepared.cell half within (by omega)]
  rfl

theorem odd_bytes (prepared : Prepared dims value split) (chunk offset : Nat) :
    ByteLanes (decode16 (codeChunk code chunk))
      (fun lane => split.data (chunk * 32 + offset + lane)) :=
  ⟨fun _ => decode16_bytes _ _, fun _ => prepared.data_small _⟩

theorem odd_quad (prepared : Prepared dims value split) (half : Half) {chunk lane : Nat}
    (within : chunk < dims / 16) (small : lane < 4) :
    quad (decode16 (codeChunk code chunk))
      (fun lane => split.data (chunk * 32 + half.offset + lane)) lane =
        chunkLane value code half chunk lane := by
  refine sum_congr rfl fun part bound => ?_
  rw [mem_range] at bound
  have cell := prepared.cell half within (show 4 * lane + part < 16 by omega)
  rw [decode16_chunk]
  exact congrArg (codeU8 code (16 * chunk + (4 * lane + part)) * ·) cell

theorem tail_bytes (prepared : Prepared dims value split) (half : Half) :
    ByteLanes (decode16 (tailScratch split code)) (half.tail split) :=
  ⟨fun _ => decode16_bytes _ _, fun _ => prepared.tail_small half _⟩

theorem decode16_tail (prepared : Prepared dims value split) {lane : Nat}
    (inside : lane < dims % 16) :
    decode16 (tailScratch split code) lane = codeU8 code (16 * (dims / 16) + lane) := by
  have copied : tailScratch split code (lane / 2) = codeChunk code (dims / 16) (lane / 2) := by
    rw [tailScratch, prepared.tail, prepared.chunks, if_pos (by omega), codeChunk]
  have same : tqGetCodeComponentBits (tailScratch split code) lane 4 =
      tqGetCodeComponentBits (codeChunk code (dims / 16)) lane 4 := by
    rw [tqGetCodeComponentBits, tqGetCodeComponentBits, copied]
    rfl
  rw [← decode16_chunk, decode16, decode16, unpack_eq, unpack_eq, same]

theorem tail_quad (prepared : Prepared dims value split) (half : Half) (lane : Nat) :
    quad (decode16 (tailScratch split code)) (half.tail split) lane =
      tailLane dims value code half lane := by
  refine sum_congr rfl fun part _ => ?_
  rw [prepared.tailCell]
  split_ifs with inside
  · rw [decode16_tail code prepared inside, product]
  · exact mul_zero _

/-! ### No overflow -/

theorem Prepared.chunks_le (prepared : Prepared dims value split) : dims / 16 ≤ 1000 := by
  have limit := prepared.inRange
  rw [vectorMaxDim] at limit
  omega

theorem add32_exact {one other : Register} {lane count more : Nat}
    (first : |one lane| ≤ count * 65280) (second : |other lane| ≤ more * 65280)
    (fits : count + more ≤ 32000) :
    add32 one other lane = one lane + other lane ∧
      |one lane + other lane| ≤ (count + more : Nat) * 65280 := by
  have whole : |one lane + other lane| ≤ (count + more : Nat) * 65280 := by
    rw [Nat.cast_add, add_mul]
    exact (abs_add_le _ _).trans (add_le_add first second)
  refine ⟨wrap_eq_of_abs (by decide) (whole.trans_lt ?_), whole⟩
  norm_num
  omega

theorem add_madd_exact {acc unsigned signed : Register} {lane count : Nat}
    (bytes : ByteLanes unsigned signed) (bounded : |acc lane| ≤ count * 65280)
    (fits : count < 32000) :
    add32 acc (madd16 (maddubs unsigned signed) ones) lane =
        acc lane + quad unsigned signed lane ∧
      |acc lane + quad unsigned signed lane| ≤ (count + 1 : Nat) * 65280 := by
  have term : madd16 (maddubs unsigned signed) ones lane = quad unsigned signed lane :=
    madd16_maddubs bytes lane
  have small : |madd16 (maddubs unsigned signed) ones lane| ≤ (1 : Nat) * 65280 := by
    rw [term, Nat.cast_one, one_mul]
    exact quad_bound bytes lane
  rw [← term]
  exact add32_exact bounded small fits

theorem avx2_acc (prepared : Prepared dims value split) (half : Half) {lane : Nat}
    (small : lane < 4) :
    (List.range split.querySplitChunks).foldl (fun acc chunk =>
        accum16 acc (broadcast (decode16 (codeChunk code chunk))) (loadChunk split chunk)) zero
        (half.offset / 4 + lane) =
      ∑ chunk ∈ range (dims / 16), chunkLane value code half chunk lane := by
  have limit := prepared.chunks_le
  have sum := @foldl_add32_exact (fun chunk => madd16
      (maddubs (broadcast (decode16 (codeChunk code chunk))) (loadChunk split chunk)) ones)
    65280 (dims / 16) (half.offset / 4 + lane)
    (fun chunk _ => by
      rw [show madd16 _ ones _ = _ from madd16_maddubs (avx2_bytes code prepared chunk) _]
      exact quad_bound (avx2_bytes code prepared chunk) _) (by omega)
  rw [prepared.chunks]
  refine sum.1.trans (sum_congr rfl fun chunk within => ?_)
  rw [← avx2_quad code prepared half (mem_range.mp within) small]
  exact madd16_maddubs (avx2_bytes code prepared chunk) _

theorem addTail128_exact (prepared : Prepared dims value split) (half : Half) {acc : Register}
    {lane count : Nat} (bounded : |acc lane| ≤ count * 65280) (fits : count < 32000) :
    addTail128 split code (half.tail split) acc lane =
      acc lane + tailLane dims value code half lane := by
  rw [addTail128]
  split_ifs with tail
  · rw [← tail_quad code prepared half lane]
    exact (add_madd_exact (tail_bytes code prepared half) bounded fits).1
  · have none_ : tailLane dims value code half lane = 0 := by
      refine sum_eq_zero fun part _ => if_neg ?_
      rw [prepared.tail] at tail
      omega
    rw [none_, add_zero]

theorem lanes_total (value : Nat → SplitValue) (half : Half) :
    ∑ lane ∈ range 4, (∑ chunk ∈ range (dims / 16), chunkLane value code half chunk lane +
        tailLane dims value code half lane) =
      ∑ i ∈ range dims, product value code half i := by
  have chunk (chunk : Nat) : ∑ lane ∈ range 4, chunkLane value code half chunk lane =
      ∑ j ∈ range 16, product value code half (16 * chunk + j) :=
    sum_blocks (fun j => product value code half (16 * chunk + j)) 4 4
  have tail : ∑ lane ∈ range 4, tailLane dims value code half lane =
      ∑ j ∈ range (dims % 16), product value code half (16 * (dims / 16) + j) := by
    have all := sum_blocks (fun j => if j < dims % 16 then
      product value code half (16 * (dims / 16) + j) else 0) 4 4
    refine all.trans ?_
    rw [← sum_filter]
    refine sum_congr ?_ fun _ _ => rfl
    ext j
    rw [mem_filter, mem_range, mem_range]
    omega
  rw [sum_add_distrib, sum_comm, sum_congr rfl fun c _ => chunk c, tail]
  exact sum_blocks_tail (product value code half) 16 dims

theorem sum4_eq (register : Register) (lane : Nat) :
    sum4 register lane = ∑ i ∈ range 4, register (lane + i) := by
  simp only [sum4, sum_range_succ, sum_range_zero, Nat.add_zero, zero_add]

theorem Prepared.whole (prepared : Prepared dims value split) :
    ∑ i ∈ range dims, product value code .low i +
        128 * ∑ i ∈ range dims, product value code .high i =
      ∑ i ∈ range dims, (value i).qSigned * codeU8 code i := by
  rw [mul_sum, ← sum_add_distrib]
  refine sum_congr rfl fun i _ => ?_
  rw [← (prepared.halves i).1]
  simp only [product, Half.value]
  ring

/-! ### The kernels -/

theorem scalar_half (prepared : Prepared dims value split) (half : Half) :
    (List.range split.querySplitTailDims).foldl (fun dot j =>
        dot + half.tail split j * codeU8 code (split.querySplitChunks * 16 + j))
      ((List.range (split.querySplitChunks * 16)).foldl (fun dot i =>
        dot + split.data (i / 16 * 32 + half.offset + i % 16) * codeU8 code i) 0) =
      ∑ i ∈ range dims, product value code half i := by
  have whole : dims = 16 * (dims / 16) + dims % 16 := (Nat.div_add_mod dims 16).symm
  conv_rhs => rw [whole, sum_range_add]
  rw [foldl_add, foldl_add, zero_add, prepared.chunks, prepared.tail, Nat.mul_comm (dims / 16)]
  congr 1
  · refine sum_congr rfl fun i within => ?_
    rw [mem_range] at within
    rw [prepared.cell half (by omega) (Nat.mod_lt i (by decide)), Nat.div_add_mod, mul_comm]
    rfl
  · refine sum_congr rfl fun j within => ?_
    rw [prepared.tailCell, if_pos (mem_range.mp within), mul_comm]
    rfl

theorem scalar_raw (prepared : Prepared dims value split) :
    querySplitU8RawScalar split code = ∑ i ∈ range dims, (value i).qSigned * codeU8 code i := by
  rw [← prepared.whole code, ← scalar_half code prepared .low,
    ← scalar_half code prepared .high]
  rfl

theorem avx2_half (prepared : Prepared dims value split) (half : Half) :
    sum4 ((List.range split.querySplitChunks).foldl (fun acc chunk =>
        accum16 acc (broadcast (decode16 (codeChunk code chunk))) (loadChunk split chunk)) zero)
        (half.offset / 4) + sum4 (addTail128 split code (half.tail split) zero) 0 =
      ∑ i ∈ range dims, product value code half i := by
  rw [← lanes_total code value half, sum4_eq, sum4_eq, ← sum_add_distrib]
  refine sum_congr rfl fun lane within => ?_
  have empty : |zero (0 + lane)| ≤ (0 : Nat) * 65280 := le_rfl
  rw [avx2_acc code prepared half (mem_range.mp within),
    addTail128_exact code prepared half empty (by decide), Nat.zero_add, zero, zero_add]

theorem avx2_raw (prepared : Prepared dims value split) :
    querySplitU8RawAvx2 split code = ∑ i ∈ range dims, (value i).qSigned * codeU8 code i := by
  rw [← prepared.whole code, ← avx2_half code prepared .low, ← avx2_half code prepared .high]
  rfl

theorem vnni_acc (prepared : Prepared dims value split) (half : Half) {second lane : Nat}
    (which : second < 2) (small : lane < 4) :
    (List.range (split.querySplitChunks / 2)).foldl (fun acc pair =>
        dpbusd acc (decode32 (codePair code pair)) (loadPair split pair)) zero
        (8 * second + half.offset / 4 + lane) =
        ∑ pair ∈ range (dims / 16 / 2), chunkLane value code half (2 * pair + second) lane ∧
      |∑ pair ∈ range (dims / 16 / 2), chunkLane value code half (2 * pair + second) lane| ≤
        (dims / 16 / 2 : Nat) * 65280 := by
  have limit := prepared.chunks_le
  have sum := @foldl_add32_exact
    (fun pair => quad (decode32 (codePair code pair)) (loadPair split pair))
    65280 (dims / 16 / 2) (8 * second + half.offset / 4 + lane)
    (fun pair _ => quad_bound (pair_bytes code prepared pair) _) (by omega)
  have terms : ∑ pair ∈ range (dims / 16 / 2),
      quad (decode32 (codePair code pair)) (loadPair split pair)
        (8 * second + half.offset / 4 + lane) =
      ∑ pair ∈ range (dims / 16 / 2), chunkLane value code half (2 * pair + second) lane := by
    refine sum_congr rfl fun pair within => ?_
    rw [mem_range] at within
    exact pair_quad code prepared half (by omega) which small
  rw [prepared.chunks, ← terms]
  exact sum

theorem vnni_fold (prepared : Prepared dims value split) (half : Half) {acc : Register}
    (run : acc = (List.range (split.querySplitChunks / 2)).foldl (fun acc pair =>
      dpbusd acc (decode32 (codePair code pair)) (loadPair split pair)) zero) {lane : Nat}
    (small : lane < 4) :
    fold512 acc (half.offset / 4) lane =
        ∑ chunk ∈ range (2 * (dims / 16 / 2)), chunkLane value code half chunk lane ∧
      |∑ chunk ∈ range (2 * (dims / 16 / 2)), chunkLane value code half chunk lane| ≤
        (2 * (dims / 16 / 2) : Nat) * 65280 := by
  have limit := prepared.chunks_le
  obtain ⟨first, firstBound⟩ := vnni_acc code prepared half (show 0 < 2 by decide) small
  obtain ⟨second, secondBound⟩ := vnni_acc code prepared half (show 1 < 2 by decide) small
  rw [← run, show 8 * 0 + half.offset / 4 + lane = half.offset / 4 + lane by omega] at first
  rw [← run, show 8 * 1 + half.offset / 4 + lane = half.offset / 4 + 8 + lane by omega] at second
  rw [← first] at firstBound
  rw [← second] at secondBound
  have folded := @add32_exact (fun lane => acc (half.offset / 4 + lane))
    (fun lane => acc (half.offset / 4 + 8 + lane)) _ _ _ firstBound secondBound (by omega)
  have pairs : ∑ chunk ∈ range (2 * (dims / 16 / 2)), chunkLane value code half chunk lane =
      acc (half.offset / 4 + lane) + acc (half.offset / 4 + 8 + lane) := by
    rw [← sum_blocks (fun chunk => chunkLane value code half chunk lane) 2, first, second,
      ← sum_add_distrib]
    refine sum_congr rfl fun pair _ => ?_
    rw [sum_range_succ, sum_range_one]
  rw [pairs, two_mul (dims / 16 / 2)]
  exact folded

theorem vnni_chunks (prepared : Prepared dims value split) (half : Half) {acc : Register}
    (run : acc = (List.range (split.querySplitChunks / 2)).foldl (fun acc pair =>
      dpbusd acc (decode32 (codePair code pair)) (loadPair split pair)) zero) {lane : Nat}
    (small : lane < 4) :
    addOdd128 split code half.offset (fold512 acc (half.offset / 4)) lane =
        ∑ chunk ∈ range (dims / 16), chunkLane value code half chunk lane ∧
      |∑ chunk ∈ range (dims / 16), chunkLane value code half chunk lane| ≤
        (dims / 16 : Nat) * 65280 := by
  have limit := prepared.chunks_le
  obtain ⟨folded, bounded⟩ := vnni_fold code prepared half run small
  rw [addOdd128, prepared.chunks]
  split_ifs with odd
  · have last : dims / 16 / 2 * 2 < dims / 16 := by omega
    have whole : dims / 16 = 2 * (dims / 16 / 2) + 1 := by omega
    rw [← folded] at bounded
    have added := add_madd_exact (odd_bytes code prepared (dims / 16 / 2 * 2) half.offset)
      bounded (by omega)
    rw [odd_quad code prepared half last small, folded, Nat.mul_comm (dims / 16 / 2) 2,
      ← sum_range_succ, ← whole] at added
    rw [Nat.mul_comm (dims / 16 / 2) 2]
    exact added
  · have whole : 2 * (dims / 16 / 2) = dims / 16 := by omega
    rw [whole] at folded bounded
    exact ⟨folded, bounded⟩

theorem vnni_half (prepared : Prepared dims value split) (half : Half) {acc : Register}
    (run : acc = (List.range (split.querySplitChunks / 2)).foldl (fun acc pair =>
      dpbusd acc (decode32 (codePair code pair)) (loadPair split pair)) zero) :
    sum4 (addTail128 split code (half.tail split)
        (addOdd128 split code half.offset (fold512 acc (half.offset / 4)))) 0 =
      ∑ i ∈ range dims, product value code half i := by
  rw [← lanes_total code value half, sum4_eq]
  refine sum_congr rfl fun lane within => ?_
  obtain ⟨sum, bounded⟩ := vnni_chunks code prepared half run (mem_range.mp within)
  rw [← sum] at bounded
  have limit := prepared.chunks_le
  rw [Nat.zero_add, addTail128_exact code prepared half bounded (by omega), sum]

theorem vnni_raw (prepared : Prepared dims value split) :
    querySplitU8RawAvx512Vnni split code =
      ∑ i ∈ range dims, (value i).qSigned * codeU8 code i := by
  rw [← prepared.whole code, ← vnni_half code prepared .low rfl,
    ← vnni_half code prepared .high rfl]
  rfl

end Registers

theorem foldl_four {S : Type*} (step : Fin 4 → S → Nat → S) (start : S) (count : Nat)
    (c : Fin 4) :
    (List.range count).foldl (fun (acc : Fin 4 → S) i => fun c => step c (acc c) i)
      (fun _ => start) c = (List.range count).foldl (step c) start := by
  induction count with
  | zero => rfl
  | succ count ih =>
    rw [List.range_succ, List.foldl_append, List.foldl_append, List.foldl_cons, List.foldl_cons,
      List.foldl_nil, List.foldl_nil, ih]

/-- **Four codes at once** are scored as each alone. -/
theorem rawAvx2x4_eq (split : U8Split) (codes : Fin 4 → Nat → BitVec 8) (c : Fin 4) :
    querySplitU8RawAvx2x4 split codes c = querySplitU8RawAvx2 split (codes c) := by
  rw [querySplitU8RawAvx2x4, querySplitU8RawAvx2]
  exact congrArg (reduceAvx2 · _ _) (foldl_four (fun c acc chunk =>
    accum16 acc (broadcast (decode16 (codeChunk (codes c) chunk))) (loadChunk split chunk)) zero
    split.querySplitChunks c)

theorem rawAvx512Vnnix4_eq (split : U8Split) (codes : Fin 4 → Nat → BitVec 8) (c : Fin 4) :
    querySplitU8RawAvx512Vnnix4 split codes c = querySplitU8RawAvx512Vnni split (codes c) := by
  rw [querySplitU8RawAvx512Vnnix4, querySplitU8RawAvx512Vnni]
  exact congrArg (reduce512 split (codes c)) (foldl_four (fun c acc pair =>
    dpbusd acc (decode32 (codePair (codes c) pair)) (loadPair split pair)) zero
    (split.querySplitChunks / 2) c)

section Kernels

variable {dims : Nat} {value : Nat → SplitValue} {split : U8Split}

/-- **Every kernel** gives the products with the shifted codebook. -/
theorem U8Kernel.raw_eq (kernel : U8Kernel) (prepared : Prepared dims value split)
    (code : Nat → BitVec 8) :
    kernel.raw split code = ∑ i ∈ range dims, (value i).qSigned * codeU8 code i := by
  cases kernel with
  | scalar => exact scalar_raw code prepared
  | avx2 => exact avx2_raw code prepared
  | avx512Vnni => exact vnni_raw code prepared
  | avx2x4 c others =>
    rw [U8Kernel.raw, rawAvx2x4_eq, Function.update_self]
    exact avx2_raw code prepared
  | avx512Vnnix4 c others =>
    rw [U8Kernel.raw, rawAvx512Vnnix4_eq, Function.update_self]
    exact vnni_raw code prepared

/-- The sums of two products that go into lanes of 16 bits. -/
def pairSum (unsigned signed : Register) : Register := fun lane =>
  unsigned (2 * lane) * signed (2 * lane) + unsigned (2 * lane + 1) * signed (2 * lane + 1)

/-- **No lane overflows**: no pair of products saturates, and all that a lane of 32 bits ever adds,
without its signs, fits. -/
structure LanesExact (split : U8Split) (code : Nat → BitVec 8) : Prop where
  pairs : ∀ chunk lane, |pairSum (broadcast (decode16 (codeChunk code chunk)))
    (loadChunk split chunk) lane| < 2 ^ 15
  tailPairs : ∀ (half : Half) lane,
    |pairSum (decode16 (tailScratch split code)) (half.tail split) lane| < 2 ^ 15
  sums : ∀ (half : Half) lane, ∑ chunk ∈ range split.querySplitChunks,
      |quad (broadcast (decode16 (codeChunk code chunk))) (loadChunk split chunk)
        (half.offset / 4 + lane)| +
      |quad (decode16 (tailScratch split code)) (half.tail split) lane| < 2 ^ 31

theorem pairSum_bound {unsigned signed : Register} (bytes : ByteLanes unsigned signed)
    (lane : Nat) : |pairSum unsigned signed lane| < 2 ^ 15 := by
  have first := product_bound bytes (2 * lane)
  have second := product_bound bytes (2 * lane + 1)
  calc |pairSum unsigned signed lane| ≤ _ := abs_add_le _ _
    _ ≤ 16320 + 16320 := add_le_add first second
    _ < 2 ^ 15 := by norm_num

theorem Prepared.lanes_exact (prepared : Prepared dims value split) (code : Nat → BitVec 8) :
    LanesExact split code := by
  refine ⟨fun chunk lane => pairSum_bound (avx2_bytes code prepared chunk) lane,
    fun half lane => pairSum_bound (tail_bytes code prepared half) lane, fun half lane => ?_⟩
  have chunks : ∑ chunk ∈ range split.querySplitChunks,
      |quad (broadcast (decode16 (codeChunk code chunk))) (loadChunk split chunk)
        (half.offset / 4 + lane)| ≤ (dims / 16 : Nat) * 65280 := by
    refine (sum_le_card_nsmul _ _ 65280 fun chunk _ =>
      quad_bound (avx2_bytes code prepared chunk) _).trans_eq ?_
    rw [card_range, prepared.chunks, nsmul_eq_mul]
  have tail := quad_bound (tail_bytes code prepared half) lane
  have limit := prepared.chunks_le
  norm_num
  omega

end Kernels

/-- **The scores of the split kernels.** Every kernel gives, less the bias, the sum of the integers
of the query times the signed codebook values of the code, and no lane overflows on the way. -/
theorem u8Split_score_eq (epsilon : Rat) (multiply : Rat → Rat → Rat) (tq : SplitQuery)
    (kernel : U8Kernel) (code : Nat → BitVec 8) :
    ((tqPrepareQueryU8Split epsilon multiply tq).map fun split =>
        kernel.raw split code - split.bias) =
      (if ¬tq.enabled ∨ tq.bits ≠ 4 ∨ tq.scoreL1 ∨ tq.dimensions = 0 then none
        else some (∑ i ∈ range tq.dimensions,
          (splitComponent epsilon multiply tq i).qSigned * codeI8 code i)) ∧
      ∀ split ∈ tqPrepareQueryU8Split epsilon multiply tq, LanesExact split code := by
  rcases tqPrepareQueryU8Split_spec epsilon multiply tq with
    ⟨left, absent⟩ | ⟨right, split, prepared_, prepared⟩
  · rw [absent, if_pos left]
    exact ⟨rfl, fun split member => absurd member (Option.not_mem_none split)⟩
  · have score : kernel.raw split code - split.bias = ∑ i ∈ range tq.dimensions,
        (splitComponent epsilon multiply tq i).qSigned * codeI8 code i := by
      rw [kernel.raw_eq prepared code, prepared.bias, mul_sum, ← sum_sub_distrib]
      refine sum_congr rfl fun i _ => ?_
      rw [codeU8_eq]
      ring
    rw [prepared_, if_neg right, Option.map_some, score]
    refine ⟨rfl, fun other member => ?_⟩
    obtain rfl := Option.mem_some.mp member
    exact prepared.lanes_exact code

end TurboHybrid.Quant
