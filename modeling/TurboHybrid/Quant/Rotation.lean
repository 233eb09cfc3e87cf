/-
**The rotation of a vector before its codes are chosen.**

The rotation works in place on a buffer: normalised Hadamard transforms on chunks of the largest
power of two that still fits, then for each of three seeds a pseudo random permutation and the
transforms again. In exact arithmetic, for every dimension and every list of seeds:

* `scales_hadamardBlock`, `scales_hadamardLevels`: a level of butterflies doubles the inner
  products of its chunk, so all levels multiply them by the chunk's size;
* `scales_tqRotateHadamardChunks`, `scales_tqRotatePermute`: the normalised chunks and the
  permutation keep inner products;
* `tqHadamardBlockVector_eq`: a block done several lanes at a time is the scalar block;
* `tqRotateVector_isometry`: the rotation is linear, keeps inner products, writes only the buffer
  and does not depend on the processor's butterfly.
-/
import TurboHybrid.Library.Isometry
import Mathlib.Algebra.Order.BigOperators.Group.Finset
import Mathlib.Analysis.SpecialFunctions.Sqrt
import Mathlib.Order.Interval.Finset.Nat

set_option linter.unusedSectionVars false

namespace TurboHybrid.Quant

open Library Finset

variable {K : Type*} [Field K]

/-! ### The permutation -/

/-- `TqRotationSeeds`. -/
def tqRotationSeeds : List Nat :=
  [654605292835415893, 8636605637963351413, 1775280196666917949]

/-- `TqRotationLcgNext`, in 64 bits. -/
@[irreducible] def tqRotationLcgNext (state : Nat) : Nat :=
  (state * 6364136223846793005 + 1442695040888963407) % 2 ^ 64

/-- `TqRotationBoundedRand`. -/
def tqRotationBoundedRand (value bound : Nat) : Nat :=
  (value >>> 32) % bound

/-- The loop of `TqRotatePermute`, from position `i` down to `1`. -/
def permuteFrom (state : Nat) : Nat → (Nat → K) → Nat → K
  | 0, values => values
  | i + 1, values =>
    let state := tqRotationLcgNext state
    let j := tqRotationBoundedRand state (i + 1 + 1)
    permuteFrom state i (exchange (i + 1) j values)

/-- `TqRotatePermute`. -/
def tqRotatePermute (values : Nat → K) (dim seed : Nat) : Nat → K :=
  permuteFrom seed (dim - 1) values

/-! ### The transforms -/

/-- One iteration of the scalar butterfly loop, on the block at `base`. -/
def hadamardPair (base h : Nat) (values : Nat → K) (j : Nat) : Nat → K :=
  let a := values (base + j)
  let b := values (base + j + h)
  Function.update (Function.update values (base + j) (a + b)) (base + j + h) (a - b)

/-- `TqHadamardBlockScalar` on `values + base`. -/
def tqHadamardBlockScalar (values : Nat → K) (base h : Nat) : Nat → K :=
  (List.range' 0 h).foldl (hadamardPair base h) values

def storeLanes (lanes start : Nat) (lane : Nat → K) (values : Nat → K) : Nat → K :=
  fun i => if start ≤ i ∧ i < start + lanes then lane (i - start) else values i

/-- One iteration of a vector loop: two loads, then the stores of the sums and the differences. -/
def hadamardLanes (lanes base h : Nat) (values : Nat → K) (j : Nat) : Nat → K :=
  let a := fun lane => values (base + j + lane)
  let b := fun lane => values (base + j + h + lane)
  storeLanes lanes (base + j + h) (fun lane => a lane - b lane)
    (storeLanes lanes (base + j) (fun lane => a lane + b lane) values)

/-- The vector loop from `j`, with the counter it ends with. -/
def vectorLoop (lanes base h : Nat) (values : Nat → K) (j : Nat) : (Nat → K) × Nat :=
  if 0 < lanes ∧ j + lanes ≤ h then
    vectorLoop lanes base h (hadamardLanes lanes base h values j) (j + lanes)
  else (values, j)
termination_by h - j
decreasing_by omega

def scalarTail (base h : Nat) (body : (Nat → K) × Nat) : Nat → K :=
  (List.range' body.2 (h - body.2)).foldl (hadamardPair base h) body.1

/-- `TqHadamardBlockAvx2` (four lanes) and `TqHadamardBlockNeon` (two). -/
def tqHadamardBlockVector (lanes : Nat) (values : Nat → K) (base h : Nat) : Nat → K :=
  scalarTail base h (vectorLoop lanes base h values 0)

/-- Which butterfly the build, the processor and the setting select. -/
inductive Butterfly
  | scalar
  | avx2
  | neon
  deriving DecidableEq, Repr

/-- The block of one level: wide butterflies only from `h = 4` on. -/
def hadamardBlock (path : Butterfly) (values : Nat → K) (base h : Nat) : Nat → K :=
  if 4 ≤ h then
    match path with
    | .avx2 => tqHadamardBlockVector 4 values base h
    | .neon => tqHadamardBlockVector 2 values base h
    | .scalar => tqHadamardBlockScalar values base h
  else tqHadamardBlockScalar values base h

/-- The blocks of one level, `for (i = first; i < last; i += h * 2)`. -/
def hadamardLevel (path : Butterfly) (h last : Nat) (values : Nat → K) (i : Nat) : Nat → K :=
  if 0 < h ∧ i < last then
    hadamardLevel path h last (hadamardBlock path values i h) (i + h * 2)
  else values
termination_by last - i
decreasing_by omega

/-- The levels of a chunk from `h` on. -/
def hadamardLevels (path : Butterfly) (offset chunk : Nat) (values : Nat → K) (h : Nat) : Nat → K :=
  if 0 < h ∧ h < chunk then
    hadamardLevels path offset chunk (hadamardLevel path h (offset + chunk) values offset) (h * 2)
  else values
termination_by chunk - h
decreasing_by omega

/-- `while (chunk <= remaining / 2) chunk <<= 1`. -/
def chunkSize (remaining chunk : Nat) : Nat :=
  if 0 < chunk ∧ chunk ≤ remaining / 2 then chunkSize remaining (chunk * 2) else chunk
termination_by remaining - chunk
decreasing_by omega

theorem chunkSize_pos (remaining : Nat) {chunk : Nat} (positive : 0 < chunk) :
    0 < chunkSize remaining chunk := by
  induction chunk using chunkSize.induct remaining with
  | case1 chunk fits ih =>
    rw [chunkSize, if_pos fits]
    exact ih (Nat.mul_pos fits.1 (by omega))
  | case2 chunk full =>
    rw [chunkSize, if_neg full]
    exact positive

variable (sqrt : K → K)

/-- The loop of `TqRotateHadamardChunks`: the levels of a chunk, its normalisation, the rest. -/
def rotateChunks (path : Butterfly) (values : Nat → K) (offset remaining : Nat) : Nat → K :=
  if 0 < remaining then
    let chunk := chunkSize remaining 1
    let levels := hadamardLevels path offset chunk values 1
    let norm := 1 / sqrt chunk
    rotateChunks path (multiply (Ico offset (offset + chunk)) norm levels) (offset + chunk)
      (remaining - chunk)
  else values
termination_by remaining
decreasing_by
  have := chunkSize_pos remaining Nat.one_pos
  omega

/-- `TqRotateHadamardChunks`. -/
def tqRotateHadamardChunks (path : Butterfly) (values : Nat → K) (dim : Nat) : Nat → K :=
  rotateChunks sqrt path values 0 dim

/-- **`TqRotateVector`** into the buffer `rotated`. -/
def tqRotateVector (path : Butterfly) (seeds : List Nat) (input : Nat → K) (dim : Nat)
    (rotated : Nat → K) : Nat → K :=
  let copied := fun i => if i < dim then input i else rotated i
  seeds.foldl
    (fun values seed => tqRotateHadamardChunks sqrt path (tqRotatePermute values dim seed) dim)
    (tqRotateHadamardChunks sqrt path copied dim)

variable [LinearOrder K]

/-- `TqVectorLength`. -/
def tqVectorLength (values : Nat → K) (dim : Nat) : K :=
  sqrt ((List.range dim).foldl (fun norm i => norm + values i * values i) 0)

/-- `TqPreprocessVector`: the length it returns and the buffer it leaves. -/
def tqPreprocessVector (path : Butterfly) (seeds : List Nat) (vector : Nat → K) (dim : Nat)
    (rotated : Nat → K) : K × (Nat → K) :=
  let rotated := tqRotateVector sqrt path seeds vector dim rotated
  let length := tqVectorLength sqrt rotated dim
  let scale := if 0 < length then sqrt dim / length else 1
  (length, multiply (range dim) scale rotated)

/-! ### The permutation keeps inner products -/

theorem scales_permuteFrom (state i : Nat) :
    Scales (range (i + 1)) (1 : K) (permuteFrom state i) := by
  induction i generalizing state with
  | zero => exact Scales.id.congr fun values => by rw [permuteFrom]
  | succ i ih =>
    have drawn : tqRotationBoundedRand (tqRotationLcgNext state) (i + 1 + 1) ∈ range (i + 1 + 1) :=
      mem_range.mpr (Nat.mod_lt _ (by omega))
    have swapped := scales_exchange (K := K) (mem_range.mpr (Nat.lt_succ_self (i + 1))) drawn
    have rest := (ih (tqRotationLcgNext state)).mono (range_subset_range.mpr (Nat.le_succ (i + 1)))
    have both := swapped.comp rest
    rw [one_mul] at both
    exact both

theorem scales_tqRotatePermute (dim seed : Nat) :
    Scales (range dim) (1 : K) fun values => tqRotatePermute values dim seed := by
  rcases Nat.eq_zero_or_pos dim with rfl | positive
  · exact Scales.id
  · have permuted := scales_permuteFrom (K := K) seed (dim - 1)
    rw [Nat.sub_add_cancel positive] at permuted
    exact permuted

/-! ### Vector blocks are scalar blocks -/

theorem hadamardPair_eq (base h : Nat) (values : Nat → K) (j : Nat) :
    hadamardPair base h values j = butterfly (base + j) (base + j + h) values :=
  rfl

theorem pairs_apply {base h j count : Nat} (fits : count ≤ h) (values : Nat → K) (i : Nat) :
    (List.range' j count).foldl (hadamardPair base h) values i =
      if base + j + h ≤ i ∧ i < base + j + h + count then values (i - h) - values i
      else if base + j ≤ i ∧ i < base + j + count then values i + values (i + h)
      else values i := by
  induction count generalizing i with
  | zero =>
    rw [if_neg (by omega), if_neg (by omega)]
    rfl
  | succ count ih =>
    have before := ih (by omega)
    rw [List.range'_concat, List.foldl_append, List.foldl_cons, List.foldl_nil, hadamardPair_eq,
      Nat.one_mul]
    by_cases upper : i = base + (j + count) + h
    · rw [upper, butterfly_right, before, before, if_neg (by omega), if_neg (by omega),
        if_neg (by omega), if_neg (by omega), if_pos (by omega), Nat.add_sub_cancel]
    · by_cases lower : i = base + (j + count)
      · rw [lower, butterfly_left (by omega), before, before, if_neg (by omega),
          if_neg (by omega), if_neg (by omega), if_neg (by omega), if_neg (by omega),
          if_pos (by omega)]
      · rw [butterfly_of_ne lower upper, before]
        by_cases high : base + j + h ≤ i ∧ i < base + j + h + count
        · have wider : base + j + h ≤ i ∧ i < base + j + h + (count + 1) := by omega
          rw [if_pos high, if_pos wider]
        · have narrow : ¬(base + j + h ≤ i ∧ i < base + j + h + (count + 1)) := by omega
          rw [if_neg high, if_neg narrow]
          by_cases low : base + j ≤ i ∧ i < base + j + count
          · have wider : base + j ≤ i ∧ i < base + j + (count + 1) := by omega
            rw [if_pos low, if_pos wider]
          · have narrow : ¬(base + j ≤ i ∧ i < base + j + (count + 1)) := by omega
            rw [if_neg low, if_neg narrow]

/-- **One iteration of a vector loop** is that many iterations of the scalar loop. -/
theorem hadamardLanes_eq {lanes base h : Nat} (fits : lanes ≤ h) (values : Nat → K) (j : Nat) :
    hadamardLanes lanes base h values j =
      (List.range' j lanes).foldl (hadamardPair base h) values := by
  ext i
  rw [pairs_apply fits]
  simp only [hadamardLanes, storeLanes]
  by_cases high : base + j + h ≤ i ∧ i < base + j + h + lanes
  · rw [if_pos high, if_pos high, Nat.add_sub_cancel' high.1,
      show base + j + (i - (base + j + h)) = i - h by omega]
  · rw [if_neg high, if_neg high]
    by_cases low : base + j ≤ i ∧ i < base + j + lanes
    · rw [if_pos low, if_pos low, Nat.add_sub_cancel' low.1,
        show base + j + h + (i - (base + j)) = i + h by omega]
    · rw [if_neg low, if_neg low]

theorem scalarTail_vectorLoop (lanes base h : Nat) (values : Nat → K) (j : Nat) :
    scalarTail base h (vectorLoop lanes base h values j) = scalarTail base h (values, j) := by
  induction values, j using vectorLoop.induct (K := K) lanes base h with
  | case1 values j more ih =>
    have split : List.range' j (h - j) =
        List.range' j lanes ++ List.range' (j + lanes) (h - (j + lanes)) := by
      rw [show j + lanes = j + 1 * lanes by rw [Nat.one_mul], List.range'_append]
      congr 1
      omega
    rw [vectorLoop, if_pos more, ih, hadamardLanes_eq (by omega), scalarTail, scalarTail, split,
      List.foldl_append]
  | case2 values j done =>
    rw [vectorLoop, if_neg done]

/-- **A block done several lanes at a time** is the scalar block. -/
theorem tqHadamardBlockVector_eq (lanes : Nat) (values : Nat → K) (base h : Nat) :
    tqHadamardBlockVector lanes values base h = tqHadamardBlockScalar values base h :=
  scalarTail_vectorLoop lanes base h values 0

theorem hadamardBlock_eq (path : Butterfly) (values : Nat → K) (base h : Nat) :
    hadamardBlock path values base h = tqHadamardBlockScalar values base h := by
  unfold hadamardBlock
  split
  · cases path with
    | scalar => rfl
    | avx2 => exact tqHadamardBlockVector_eq 4 values base h
    | neon => exact tqHadamardBlockVector_eq 2 values base h
  · rfl

/-! ### Levels of butterflies -/

/-- The two positions a butterfly of a block touches. -/
def pairArea (base h j : Nat) : Finset Nat :=
  {base + j, base + j + h}

theorem mem_pairArea {base h j i : Nat} :
    i ∈ pairArea base h j ↔ i = base + j ∨ i = base + j + h := by
  rw [pairArea, mem_insert, mem_singleton]

/-- **A block** doubles the inner products of its `2 * h` positions. -/
theorem scales_hadamardBlock (path : Butterfly) (base h : Nat) :
    Scales (Ico base (base + h * 2)) ((1 : K) + 1) fun values => hadamardBlock path values base h := by
  have apart : (List.range' 0 h).Pairwise fun first second =>
      Disjoint (pairArea base h first) (pairArea base h second) := by
    refine List.Pairwise.imp_of_mem ?_ List.pairwise_lt_range'
    intro first second early late order
    rw [List.mem_range'_1] at early late
    rw [disjoint_left]
    intro i member other
    rw [mem_pairArea] at member other
    omega
  have pairs : Scales ((List.range' 0 h).toFinset.biUnion (pairArea base h)) ((1 : K) + 1)
      fun values => (List.range' 0 h).foldl (hadamardPair base h) values := by
    refine Scales.foldl_disjoint (List.range' 0 h) (fun j member => ?_) apart
    rw [List.mem_range'_1] at member
    exact scales_butterfly (by omega)
  have covered : (List.range' 0 h).toFinset.biUnion (pairArea base h) =
      Ico base (base + h * 2) := by
    ext i
    simp only [mem_biUnion, List.mem_toFinset, List.mem_range'_1, mem_pairArea, mem_Ico]
    constructor
    · rintro ⟨j, bounds, same⟩
      omega
    · intro bounds
      by_cases lower : i < base + h
      · exact ⟨i - base, by omega, by omega⟩
      · exact ⟨i - base - h, by omega, by omega⟩
  rw [covered] at pairs
  exact pairs.congr fun values => hadamardBlock_eq path values base h

theorem scales_hadamardLevel (path : Butterfly) {h : Nat} (positive : 0 < h) (blocks i : Nat) :
    Scales (Ico i (i + blocks * (h * 2))) ((1 : K) + 1)
      fun values => hadamardLevel path h (i + blocks * (h * 2)) values i := by
  induction blocks generalizing i with
  | zero =>
    rw [Nat.zero_mul, Nat.add_zero, Ico_self]
    refine ⟨fun x y => ?_, fun a x => ?_, fun x y => ?_, fun x k _ => ?_, fun x y _ k member => ?_⟩
    · rw [hadamardLevel, if_neg (by omega), hadamardLevel, if_neg (by omega), hadamardLevel,
        if_neg (by omega)]
    · rw [hadamardLevel, if_neg (by omega), hadamardLevel, if_neg (by omega)]
    · rw [sum_empty, sum_empty, mul_zero]
    · rw [hadamardLevel, if_neg (by omega)]
    · exact absurd member (notMem_empty k)
  | succ blocks ih =>
    have last : i + (blocks + 1) * (h * 2) = i + h * 2 + blocks * (h * 2) := by
      rw [Nat.succ_mul]
      omega
    have more : 0 < h ∧ i < i + h * 2 + blocks * (h * 2) := ⟨positive, by omega⟩
    have apart : Disjoint (Ico i (i + h * 2))
        (Ico (i + h * 2) (i + h * 2 + blocks * (h * 2))) :=
      Ico_disjoint_Ico_consecutive _ _ _
    have both := (scales_hadamardBlock (K := K) path i h).union (ih (i + h * 2)) apart
    rw [Ico_union_Ico_eq_Ico (by omega) (by omega)] at both
    rw [last]
    refine both.congr fun values => ?_
    rw [hadamardLevel, if_pos more]

/-- **The levels from `h` on** multiply the inner products of a chunk `h * 2 ^ k` by `2 ^ k`. -/
theorem scales_hadamardLevels (path : Butterfly) (offset : Nat) {h : Nat} (positive : 0 < h)
    (k : Nat) :
    Scales (Ico offset (offset + h * 2 ^ k)) (((1 : K) + 1) ^ k)
      fun values => hadamardLevels path offset (h * 2 ^ k) values h := by
  induction k generalizing h with
  | zero =>
    simp only [pow_zero, Nat.mul_one]
    refine Scales.id.congr fun values => ?_
    rw [hadamardLevels, if_neg (by omega)]
  | succ k ih =>
    have size : h * 2 ^ (k + 1) = h * 2 * 2 ^ k := by
      rw [pow_succ]
      ring
    have blocks : h * 2 ^ (k + 1) = 2 ^ k * (h * 2) := by
      rw [size, Nat.mul_comm]
    have more : 0 < h ∧ h < h * 2 * 2 ^ k := by
      have := Nat.one_le_two_pow (n := k)
      exact ⟨positive, by nlinarith⟩
    have level := scales_hadamardLevel (K := K) path positive (2 ^ k) offset
    rw [← blocks, size] at level
    have rest := ih (h := h * 2) (by omega)
    rw [size, pow_succ]
    refine (level.comp rest).congr fun values => ?_
    rw [hadamardLevels, if_pos more]

theorem chunkSize_eq {remaining chunk : Nat} (fits : chunk ≤ remaining) :
    (∃ k, chunkSize remaining chunk = chunk * 2 ^ k) ∧ chunkSize remaining chunk ≤ remaining := by
  induction chunk using chunkSize.induct remaining with
  | case1 chunk more ih =>
    rw [chunkSize, if_pos more]
    obtain ⟨⟨k, size⟩, bound⟩ := ih (by omega)
    refine ⟨⟨k + 1, ?_⟩, bound⟩
    rw [size, pow_succ]
    ring
  | case2 chunk done =>
    rw [chunkSize, if_neg done]
    exact ⟨⟨0, by rw [pow_zero, mul_one]⟩, fits⟩

/-! ### The whole rotation -/

section Exact

variable {sqrt} [CharZero K] (root : ∀ n : Nat, sqrt n * sqrt n = (n : K))

include root

theorem scales_chunk (path : Butterfly) (offset k : Nat) :
    Scales (Ico offset (offset + 2 ^ k)) (1 : K) fun values =>
      multiply (Ico offset (offset + 2 ^ k)) (1 / sqrt ((2 ^ k : Nat) : K))
        (hadamardLevels path offset (2 ^ k) values 1) := by
  have levels := scales_hadamardLevels (K := K) path offset Nat.one_pos k
  rw [Nat.one_mul] at levels
  have both := levels.comp (scales_multiply _ (1 / sqrt ((2 ^ k : Nat) : K)))
  have size : ((2 ^ k : Nat) : K) = (1 + 1) ^ k := by
    rw [Nat.cast_pow, Nat.cast_ofNat, one_add_one_eq_two]
  have nonzero : ((1 : K) + 1) ^ k ≠ 0 := by
    rw [← size]
    exact Nat.cast_ne_zero.mpr (pow_ne_zero k two_ne_zero)
  have one : 1 / sqrt ((2 ^ k : Nat) : K) * (1 / sqrt ((2 ^ k : Nat) : K)) * (1 + 1) ^ k = 1 := by
    rw [div_mul_div_comm, one_mul, root, size, div_mul_cancel₀ _ nonzero]
  rw [one] at both
  exact both

theorem scales_rotateChunks (path : Butterfly) (offset remaining : Nat) :
    Scales (Ico offset (offset + remaining)) (1 : K) fun values =>
      rotateChunks sqrt path values offset remaining := by
  induction remaining using Nat.strong_induction_on generalizing offset with
  | _ remaining ih =>
    by_cases more : 0 < remaining
    · obtain ⟨⟨k, size⟩, bound⟩ := chunkSize_eq (Nat.succ_le_of_lt more)
      rw [Nat.one_mul] at size
      rw [size] at bound
      have smaller : remaining - 2 ^ k < remaining := by
        have := Nat.one_le_two_pow (n := k)
        omega
      have rest := ih _ smaller (offset + 2 ^ k)
      have last : offset + 2 ^ k + (remaining - 2 ^ k) = offset + remaining := by omega
      rw [last] at rest
      have both := (scales_chunk root path offset k).union rest
        (Ico_disjoint_Ico_consecutive _ _ _)
      rw [Ico_union_Ico_eq_Ico (by omega) (by omega)] at both
      refine both.congr fun values => ?_
      rw [rotateChunks, if_pos more]
      simp only [size]
    · refine Scales.id.congr fun values => ?_
      rw [rotateChunks, if_neg more]

/-- **The normalised transforms** keep inner products, for every dimension. -/
theorem scales_tqRotateHadamardChunks (path : Butterfly) (dim : Nat) :
    Scales (range dim) (1 : K) fun values => tqRotateHadamardChunks sqrt path values dim := by
  have chunks := scales_rotateChunks (K := K) root path 0 dim
  rw [Nat.zero_add, ← range_eq_Ico] at chunks
  exact chunks

theorem scales_rotation (path : Butterfly) (seeds : List Nat) (dim : Nat) :
    Scales (range dim) (1 : K) fun values => seeds.foldl
      (fun values seed => tqRotateHadamardChunks sqrt path (tqRotatePermute values dim seed) dim)
      (tqRotateHadamardChunks sqrt path values dim) := by
  have chunks := scales_tqRotateHadamardChunks (K := K) root path dim
  have round (seed : Nat) : Scales (range dim) (1 : K) fun values =>
      tqRotateHadamardChunks sqrt path (tqRotatePermute values dim seed) dim := by
    have both := (scales_tqRotatePermute (K := K) dim seed).comp chunks
    rw [one_mul] at both
    exact both
  have rounds := Scales.foldl seeds fun seed _ => round seed
  have both := chunks.comp rounds
  rw [one_mul] at both
  exact both

end Exact

/-! ### Every butterfly gives the same rotation -/

theorem hadamardLevel_path (path : Butterfly) (h last : Nat) (values : Nat → K) (i : Nat) :
    hadamardLevel path h last values i = hadamardLevel .scalar h last values i := by
  induction values, i using hadamardLevel.induct (K := K) path h last with
  | case1 values i more ih =>
    rw [hadamardLevel, if_pos more, ih, hadamardBlock_eq]
    conv_rhs => rw [hadamardLevel, if_pos more, hadamardBlock_eq]
  | case2 values i done =>
    rw [hadamardLevel, if_neg done]
    conv_rhs => rw [hadamardLevel, if_neg done]

theorem hadamardLevels_path (path : Butterfly) (offset chunk : Nat) (values : Nat → K) (h : Nat) :
    hadamardLevels path offset chunk values h = hadamardLevels .scalar offset chunk values h := by
  induction values, h using hadamardLevels.induct (K := K) path offset chunk with
  | case1 values h more ih =>
    rw [hadamardLevels, if_pos more, ih, hadamardLevel_path]
    conv_rhs => rw [hadamardLevels, if_pos more]
  | case2 values h done =>
    rw [hadamardLevels, if_neg done]
    conv_rhs => rw [hadamardLevels, if_neg done]

theorem rotateChunks_path (sqrt : K → K) (path : Butterfly) (values : Nat → K)
    (offset remaining : Nat) :
    rotateChunks sqrt path values offset remaining =
      rotateChunks sqrt .scalar values offset remaining := by
  induction remaining using Nat.strong_induction_on generalizing values offset with
  | _ remaining ih =>
    by_cases more : 0 < remaining
    · have smaller : remaining - chunkSize remaining 1 < remaining := by
        have := chunkSize_pos remaining Nat.one_pos
        omega
      rw [rotateChunks, if_pos more]
      conv_rhs => rw [rotateChunks, if_pos more]
      simp only [ih _ smaller, hadamardLevels_path path]
    · rw [rotateChunks, if_neg more]
      conv_rhs => rw [rotateChunks, if_neg more]

theorem tqRotateVector_path (sqrt : K → K) (path : Butterfly) (seeds : List Nat)
    (input : Nat → K) (dim : Nat) (rotated : Nat → K) :
    tqRotateVector sqrt path seeds input dim rotated =
      tqRotateVector sqrt .scalar seeds input dim rotated := by
  simp only [tqRotateVector, tqRotateHadamardChunks, rotateChunks_path sqrt path]

/-! ### The rotation of real vectors -/

theorem sqrt_natCast (n : Nat) : √(n : ℝ) * √(n : ℝ) = n :=
  Real.mul_self_sqrt (Nat.cast_nonneg n)

/-- **The rotation is a linear isometry**: for every dimension, every list of seeds and every
butterfly, whatever the buffers held before. -/
theorem tqRotateVector_isometry (path : Butterfly) (seeds : List Nat) (dim : Nat) :
    (∀ x y r s t : Nat → ℝ, ∀ i < dim, tqRotateVector Real.sqrt path seeds (x + y) dim r i =
      tqRotateVector Real.sqrt path seeds x dim s i +
        tqRotateVector Real.sqrt path seeds y dim t i) ∧
    (∀ (a : ℝ) (x r s : Nat → ℝ), ∀ i < dim,
      tqRotateVector Real.sqrt path seeds (a • x) dim r i =
        a * tqRotateVector Real.sqrt path seeds x dim s i) ∧
    (∀ x y r s : Nat → ℝ, ∑ i ∈ range dim, tqRotateVector Real.sqrt path seeds x dim r i *
      tqRotateVector Real.sqrt path seeds y dim s i = ∑ i ∈ range dim, x i * y i) ∧
    (∀ x r : Nat → ℝ, tqRotateVector Real.sqrt path seeds x dim r =
      tqRotateVector Real.sqrt .scalar seeds x dim r) ∧
    (∀ (lanes base h : Nat) (values : Nat → ℝ),
      tqHadamardBlockVector lanes values base h = tqHadamardBlockScalar values base h) ∧
    ∀ x r : Nat → ℝ, ∀ i, dim ≤ i → tqRotateVector Real.sqrt path seeds x dim r i = r i := by
  have scales := scales_rotation sqrt_natCast path seeds dim
  refine ⟨fun x y r s t i inside => ?_, fun a x r s i inside => ?_, fun x y r s => ?_,
    fun x r => tqRotateVector_path Real.sqrt path seeds x dim r,
    fun lanes base h values => tqHadamardBlockVector_eq lanes values base h,
    fun x r i outside => ?_⟩
  · have copies := scales.localTo (fun i => if i < dim then (x + y) i else r i)
      ((fun i => if i < dim then x i else s i) + fun i => if i < dim then y i else t i)
      (fun j member => by simp only [Pi.add_apply, if_pos (mem_range.mp member)]) i
      (mem_range.mpr inside)
    rw [scales.add] at copies
    exact copies
  · have copies := scales.localTo (fun i => if i < dim then (a • x) i else r i)
      (a • fun i => if i < dim then x i else s i)
      (fun j member => by simp only [Pi.smul_apply, if_pos (mem_range.mp member)]) i
      (mem_range.mpr inside)
    rw [scales.smul] at copies
    exact copies
  · have inner := scales.inner (fun i => if i < dim then x i else r i)
      fun i => if i < dim then y i else s i
    refine inner.trans ?_
    rw [one_mul]
    refine sum_congr rfl fun i member => ?_
    rw [if_pos (mem_range.mp member), if_pos (mem_range.mp member)]
  · have frame := scales.frame (fun i => if i < dim then x i else r i) i
      (fun member => absurd (mem_range.mp member) (Nat.not_lt.mpr outside))
    rw [if_neg (Nat.not_lt.mpr outside)] at frame
    exact frame

theorem foldl_squares (values : Nat → ℝ) (dim : Nat) :
    (List.range dim).foldl (fun norm i => norm + values i * values i) 0 =
      ∑ i ∈ range dim, values i * values i := by
  induction dim with
  | zero => rfl
  | succ dim ih =>
    rw [List.range_succ, List.foldl_append, ih, sum_range_succ]
    rfl

end TurboHybrid.Quant
