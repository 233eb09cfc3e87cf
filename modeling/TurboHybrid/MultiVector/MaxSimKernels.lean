/-
**The kernels of the late-interaction score.**

The plain kernel takes each query token's best inner product over the document. The blocked kernels
hold eight query tokens at once and compute their inner products in lanes; the symmetric average
scores both directions in one pass. In exact arithmetic:

* `maxSimBlocked_eq`: the blocked kernels give the score of the plain loop;
* `symmetricMaxSimAverage_comm`: the average is symmetric;
* `maxSimContextLevel_le`, `maxSimContextLevel_withOneContext`: the best context is at most the flat
  score, and one context with all tokens gives it.
-/
import TurboHybrid.Library.Lanes
import TurboHybrid.MultiVector.MaxSim
import Mathlib.Algebra.Order.Monoid.Unbundled.WithTop

namespace TurboHybrid.MaxSimKernels

open Finset TurboHybrid.Library.Lanes
open MaxSim (MultiVector)

/-! ### Inner products -/

/-- The inner product kernels that can be selected at run time. -/
inductive DotKernel where
  | scalar
  | avx2
  | avx512f
  | neon
  deriving DecidableEq, Repr

def DotKernel.lanes : DotKernel → Nat
  | .scalar => 1
  | .avx2 => 8
  | .avx512f => 16
  | .neon => 4

section Dot

variable (a b : Nat → Rat) (dim : Nat)

/-- The products from `start` on, each added. -/
def addTail (start : Nat) (result : Rat) : Rat :=
  (List.range (dim - start)).foldl (fun result tail => result + a (start + tail) * b (start + tail))
    result

/-- `TqDotProductF32Scalar`. -/
def dotProductF32Scalar : Rat := addTail a b dim 0 0

/-- The products of every `stride`-th register, added lane by lane. -/
def accumulate (stride offset steps : Nat) : Nat → Rat :=
  (List.range steps).foldl (fun acc step lane =>
    acc lane + a (stride * step + offset + lane) * b (stride * step + offset + lane)) fun _ => 0

/-- The inner product with four accumulators of a register each. -/
def dotProductF32Lanes (lanes : Nat) : Rat :=
  let steps := dim / (4 * lanes)
  let acc (part : Nat) := accumulate a b (4 * lanes) (lanes * part) steps
  let tmp : Nat → Rat := fun lane => (acc 0 lane + acc 1 lane) + (acc 2 lane + acc 3 lane)
  let result := (List.range lanes).foldl (fun result lane => result + tmp lane) 0
  addTail a b dim (4 * lanes * steps) result

/-- The inner product of one query token of a block, with one accumulator. -/
def dotProductF32BlockLanes (lanes : Nat) : Rat :=
  let steps := dim / lanes
  let tmp := accumulate a b lanes 0 steps
  let result := (List.range lanes).foldl (fun result lane => result + tmp lane) 0
  addTail a b dim (lanes * steps) result

/-- `TqDotProductF32Scalar`, `TqDotProductF32Avx2`, `TqDotProductF32Avx512f`,
`TqDotProductF32Neon`. -/
def DotKernel.dot (kernel : DotKernel) : Rat :=
  match kernel with
  | .scalar => dotProductF32Scalar a b dim
  | kernel => dotProductF32Lanes a b dim kernel.lanes

/-- `TqDotProductF32BlockScalar` and its vector variants, for one query token of the block. -/
def DotKernel.blockDot (kernel : DotKernel) : Rat :=
  match kernel with
  | .scalar => dotProductF32Scalar a b dim
  | kernel => dotProductF32BlockLanes a b dim kernel.lanes

end Dot

/-! ### The scores -/

def token (mv : MultiVector) (i : Nat) : Nat → Rat := fun d => (mv.values.getD i []).getD d 0

def better (best : WithBot Rat) (dot : Rat) : WithBot Rat := if best < dot then dot else best

/-- The best inner product over the document tokens from `start` on below `stop`. -/
def bestOver (dot : (Nat → Rat) → (Nat → Rat) → Nat → Rat) (query doc : MultiVector)
    (qi start stop : Nat) : WithBot Rat :=
  (List.range (stop - start)).foldl (fun best di =>
    better best (dot (token query qi) (token doc (start + di)) query.dim)) ⊥

/-- **`TqMultiVectorMaxSimWithDot`**; `none` is an error. -/
def maxSimWithDot (dot : (Nat → Rat) → (Nat → Rat) → Nat → Rat) (query doc : MultiVector) :
    Option (WithBot Rat) :=
  if query.dim ≠ doc.dim then none
  else some ((List.range query.count).foldl (fun score qi =>
    score + bestOver dot query doc qi 0 doc.count) 0)

/-- The query tokens of a block: `PGTURBOHYBRID_MULTIVECTOR_BLOCKED_SCALAR_Q`. -/
def blockedScalarQ : Nat := 8

/-- The inner products of a block of query tokens with a document token. -/
def blockDots (kernel : DotKernel) (query : MultiVector) (qb blockCount : Nat) (dv : Nat → Rat) :
    Nat → Rat := fun qi =>
  if blockCount = 1 then kernel.dot (token query qb) dv query.dim
  else kernel.blockDot (token query (qb + qi)) dv query.dim

/-- `TqMultiVectorMaxSimBlockedWithDot` with the scalar kernel, and **`TqMultiVectorMaxSimBlocked`**
with a vector kernel. -/
def maxSimBlocked (kernel : DotKernel) (query doc : MultiVector) : Option (WithBot Rat) :=
  if query.dim ≠ doc.dim then none
  else
    some ((List.range ((query.count + blockedScalarQ - 1) / blockedScalarQ)).foldl
      (fun score block =>
        let qb := blockedScalarQ * block
        let blockCount := min (query.count - qb) blockedScalarQ
        let best := (List.range doc.count).foldl (fun (best : Nat → WithBot Rat) di =>
          let dots := blockDots kernel query qb blockCount (token doc di)
          fun qi => if qi < blockCount then better (best qi) (dots qi) else best qi) fun _ => ⊥
        (List.range blockCount).foldl (fun score qi => score + best qi) score) 0)

/-- The kernels of `TqResolveMultiVectorMaxSimKernel`. -/
inductive MaxSimKernel where
  | plain
  | blocked (kernel : DotKernel)
  deriving DecidableEq, Repr

/-- **`TqMultiVectorMaxSim`**. -/
def maxSim (kernel : MaxSimKernel) (query doc : MultiVector) : Option (WithBot Rat) :=
  match kernel with
  | .plain => maxSimWithDot dotProductF32Scalar query doc
  | .blocked kernel => maxSimBlocked kernel query doc

/-- The best scores of both sides while their tokens are compared. -/
structure BestPair where
  bestA : Nat → WithBot Rat
  bestB : Nat → WithBot Rat

/-- One inner product, offered to both of its tokens. -/
def BestPair.offer (best : BestPair) (ai bi : Nat) (dot : Rat) : BestPair :=
  { bestA := Function.update best.bestA ai (better (best.bestA ai) dot)
    bestB := Function.update best.bestB bi (better (best.bestB bi) dot) }

/-- The loops over the blocks of `a`, the tokens of `b` and the tokens of a block. -/
def comparePairs (kernel : DotKernel) (a b : MultiVector) : BestPair :=
  (List.range ((a.count + blockedScalarQ - 1) / blockedScalarQ)).foldl (fun best block =>
    let ab := blockedScalarQ * block
    let blockCount := min (a.count - ab) blockedScalarQ
    (List.range b.count).foldl (fun best bi =>
      let dots := blockDots kernel a ab blockCount (token b bi)
      (List.range blockCount).foldl (fun best ai => best.offer (ab + ai) bi (dots ai)) best) best)
    ⟨fun _ => ⊥, fun _ => ⊥⟩

/-- **`TqMultiVectorSymmetricMaxSimAverage`**. -/
def symmetricMaxSimAverage (kernel : DotKernel) (a b : MultiVector) : Option (WithBot Rat) :=
  if a.dim ≠ b.dim then none
  else
    let best := comparePairs kernel a b
    let sumA := (List.range a.count).foldl (fun sum ai => sum + best.bestA ai) 0
    let sumB := (List.range b.count).foldl (fun sum bi => sum + best.bestB bi) 0
    some ((sumA.map (fun sum : Rat => sum / a.count) +
      sumB.map (fun sum : Rat => sum / b.count)).map (0.5 * ·))

/-! ### Weights and contexts -/

/-- A float that a caller passes: finite, or an infinity or not a number. -/
inductive Weight where
  | finite (value : Rat)
  | notFinite
  deriving DecidableEq

/-- The weight of a query token; without weights it is one. -/
def tokenWeight (queryWeights : Option (Nat → Weight)) (qi : Nat) : Weight :=
  match queryWeights with
  | some weights => weights qi
  | none => .finite 1

def tokenMasked (queryMask : Option (Nat → Bool)) (qi : Nat) : Bool :=
  match queryMask with
  | some mask => mask qi
  | none => false

def addWeighted (score : WithBot Rat) (best : WithBot Rat) (masked : Bool) (weight : Weight) :
    Option (WithBot Rat) :=
  if masked then some score
  else match weight with
    | .notFinite => none
    | .finite weight =>
      if weight < 0 then none
      else if weight = 0 then some score
      else some (score + best.map (weight * ·))

/-- **`TqMultiVectorMaxSimTokenRangeWeighted`**. -/
def maxSimTokenRangeWeighted (query doc : MultiVector) (startToken endToken : Nat)
    (queryWeights : Option (Nat → Weight)) (queryMask : Option (Nat → Bool)) :
    Option (WithBot Rat) :=
  if query.dim ≠ doc.dim then none
  else if doc.count < endToken ∨ endToken ≤ startToken then none
  else (List.range query.count).foldlM (fun score qi =>
    addWeighted score (bestOver dotProductF32Scalar query doc qi startToken endToken)
      (tokenMasked queryMask qi) (tokenWeight queryWeights qi)) 0

/-- `TqMultiVectorMaxSimWeighted`. -/
def maxSimWeighted (kernel : MaxSimKernel) (query doc : MultiVector)
    (queryWeights : Option (Nat → Weight)) (queryMask : Option (Nat → Bool)) :
    Option (WithBot Rat) :=
  if queryWeights.isNone ∧ queryMask.isNone then maxSim kernel query doc
  else maxSimTokenRangeWeighted query doc 0 doc.count queryWeights queryMask

def contextEnd (doc : MultiVector) (ci : Nat) : Nat :=
  if ci + 1 < doc.contextOffsets.length then doc.contextOffsets.getD (ci + 1) 0 else doc.count

def bestContext (query doc : MultiVector) (queryWeights : Option (Nat → Weight))
    (queryMask : Option (Nat → Bool)) : Option (WithBot Rat) :=
  (List.range doc.contextOffsets.length).foldlM (fun best ci =>
    (maxSimTokenRangeWeighted query doc (doc.contextOffsets.getD ci 0) (contextEnd doc ci)
      queryWeights queryMask).map fun score => if best < score then score else best) ⊥

/-- **`TqMultiVectorMaxSimContextLevel`**. -/
def maxSimContextLevel (kernel : MaxSimKernel) (query doc : MultiVector) : Option (WithBot Rat) :=
  if query.dim ≠ doc.dim then none
  else if !doc.hasContexts then maxSim kernel query doc
  else bestContext query doc none none

/-- **`TqMultiVectorMaxSimContextLevelWeighted`**. -/
def maxSimContextLevelWeighted (kernel : MaxSimKernel) (query doc : MultiVector)
    (queryWeights : Option (Nat → Weight)) (queryMask : Option (Nat → Bool)) :
    Option (WithBot Rat) :=
  if queryWeights.isNone ∧ queryMask.isNone then maxSimContextLevel kernel query doc
  else if query.dim ≠ doc.dim then none
  else if !doc.hasContexts then maxSimWeighted kernel query doc queryWeights queryMask
  else bestContext query doc queryWeights queryMask

/-! ### The inner products agree -/

section Dot

variable (a b : Nat → Rat)

theorem addTail_eq (dim start : Nat) (result : Rat) :
    addTail a b dim start result =
      result + ∑ tail ∈ range (dim - start), a (start + tail) * b (start + tail) :=
  foldl_add _ _ _

theorem dotProductF32Scalar_eq (dim : Nat) :
    dotProductF32Scalar a b dim = ∑ i ∈ range dim, a i * b i := by
  rw [dotProductF32Scalar, addTail_eq, zero_add, Nat.sub_zero]
  simp only [zero_add]

theorem accumulate_eq (stride offset steps lane : Nat) :
    accumulate a b stride offset steps lane =
      ∑ step ∈ range steps,
        a (stride * step + offset + lane) * b (stride * step + offset + lane) := by
  unfold accumulate
  induction steps with
  | zero => rfl
  | succ steps ih =>
    rw [List.range_succ, List.foldl_append, List.foldl_cons, List.foldl_nil, ih, sum_range_succ]

theorem products_split (dim : Nat) {stop : Nat} (inside : stop ≤ dim) :
    ∑ i ∈ range stop, a i * b i + ∑ tail ∈ range (dim - stop), a (stop + tail) * b (stop + tail) =
      ∑ i ∈ range dim, a i * b i := by
  have whole := sum_range_add (fun i => a i * b i) stop (dim - stop)
  rw [Nat.add_sub_cancel' inside] at whole
  exact whole.symm

theorem dotProductF32BlockLanes_eq (dim lanes : Nat) :
    dotProductF32BlockLanes a b dim lanes = ∑ i ∈ range dim, a i * b i := by
  have registers : ∑ lane ∈ range lanes, accumulate a b lanes 0 (dim / lanes) lane =
      ∑ i ∈ range (lanes * (dim / lanes)), a i * b i := by
    rw [← sum_blocks (fun i => a i * b i), sum_comm]
    exact sum_congr rfl fun lane _ => accumulate_eq a b lanes 0 (dim / lanes) lane
  rw [dotProductF32BlockLanes, foldl_add, zero_add, addTail_eq, registers,
    products_split a b dim (Nat.mul_div_le dim lanes)]

theorem dotProductF32Lanes_eq (dim lanes : Nat) :
    dotProductF32Lanes a b dim lanes = ∑ i ∈ range dim, a i * b i := by
  have quarters (step : Nat) :
      ∑ part ∈ range 4, ∑ lane ∈ range lanes,
          a (4 * lanes * step + lanes * part + lane) * b (4 * lanes * step + lanes * part + lane) =
        ∑ i ∈ range (4 * lanes), a (4 * lanes * step + i) * b (4 * lanes * step + i) := by
    rw [Nat.mul_comm 4 lanes, ← sum_blocks (fun i =>
      a (lanes * 4 * step + i) * b (lanes * 4 * step + i))]
    simp only [Nat.add_assoc]
  have registers : ∑ lane ∈ range lanes, ∑ part ∈ range 4,
      accumulate a b (4 * lanes) (lanes * part) (dim / (4 * lanes)) lane =
        ∑ i ∈ range (4 * lanes * (dim / (4 * lanes))), a i * b i := by
    rw [← sum_blocks (fun i => a i * b i), sum_comm]
    simp only [accumulate_eq]
    rw [sum_congr rfl fun part _ => sum_comm, sum_comm]
    exact sum_congr rfl fun step _ => quarters step
  have four (terms : Nat → Rat) :
      (terms 0 + terms 1) + (terms 2 + terms 3) = ∑ part ∈ range 4, terms part := by
    simp only [sum_range_succ, sum_range_zero, zero_add, add_assoc]
  simp only [dotProductF32Lanes]
  rw [foldl_add, zero_add, addTail_eq, sum_congr rfl fun lane _ => four fun part =>
    accumulate a b (4 * lanes) (lanes * part) (dim / (4 * lanes)) lane, registers,
    products_split a b dim (Nat.mul_div_le dim (4 * lanes))]

theorem dot_eq (kernel : DotKernel) (dim : Nat) :
    kernel.dot a b dim = dotProductF32Scalar a b dim := by
  cases kernel with
  | scalar => rfl
  | avx2 | avx512f | neon =>
    rw [dotProductF32Scalar_eq]
    exact dotProductF32Lanes_eq a b dim _

theorem blockDot_eq (kernel : DotKernel) (dim : Nat) :
    kernel.blockDot a b dim = dotProductF32Scalar a b dim := by
  cases kernel with
  | scalar => rfl
  | avx2 | avx512f | neon =>
    rw [dotProductF32Scalar_eq]
    exact dotProductF32BlockLanes_eq a b dim _

theorem dotProductF32Scalar_comm (dim : Nat) :
    dotProductF32Scalar a b dim = dotProductF32Scalar b a dim := by
  simp only [dotProductF32Scalar_eq, mul_comm]

end Dot

/-- **The inner products of a block**, by every kernel. -/
theorem blockDots_eq (kernel : DotKernel) (query : MultiVector) {qb blockCount : Nat}
    (dv : Nat → Rat) {qi : Nat} (inside : qi < blockCount) :
    blockDots kernel query qb blockCount dv qi =
      dotProductF32Scalar (token query (qb + qi)) dv query.dim := by
  unfold blockDots
  split_ifs with single
  · have first : qi = 0 := by omega
    rw [first, Nat.add_zero, dot_eq]
  · exact blockDot_eq _ _ _ _

/-! ### The blocked kernels -/

theorem blockBest_eq (kernel : DotKernel) (query doc : MultiVector) {qb blockCount : Nat} {qi : Nat}
    (inside : qi < blockCount) :
    (List.range doc.count).foldl (fun (best : Nat → WithBot Rat) di =>
        let dots := blockDots kernel query qb blockCount (token doc di)
        fun qi => if qi < blockCount then better (best qi) (dots qi) else best qi) (fun _ => ⊥) qi =
      bestOver dotProductF32Scalar query doc (qb + qi) 0 doc.count := by
  unfold bestOver
  rw [Nat.sub_zero]
  induction doc.count with
  | zero => rfl
  | succ count ih =>
    rw [List.range_succ, List.foldl_append, List.foldl_append, List.foldl_cons, List.foldl_nil,
      List.foldl_cons, List.foldl_nil, ← ih]
    simp only [if_pos inside, blockDots_eq kernel query _ inside, Nat.zero_add]

/-- **The blocked kernels** give the score of the plain loop. -/
theorem maxSimBlocked_eq (kernel : DotKernel) (query doc : MultiVector) :
    maxSimBlocked kernel query doc = maxSimWithDot dotProductF32Scalar query doc := by
  unfold maxSimBlocked maxSimWithDot
  refine if_congr Iff.rfl rfl (congrArg some ?_)
  simp only [foldl_add, zero_add]
  rw [← sum_blocks_min _ (by decide : 0 < blockedScalarQ) query.count]
  refine sum_congr rfl fun block _ => sum_congr rfl fun qi member => ?_
  exact blockBest_eq kernel query doc (mem_range.mp member)

theorem maxSim_eq (kernel : MaxSimKernel) (query doc : MultiVector) :
    maxSim kernel query doc = maxSimWithDot dotProductF32Scalar query doc := by
  cases kernel with
  | plain => rfl
  | blocked kernel => exact maxSimBlocked_eq kernel query doc

/-! ### Best scores -/

theorem better_le (best : WithBot Rat) (dot : Rat) (bound : WithBot Rat) :
    better best dot ≤ bound ↔ best ≤ bound ∧ (dot : WithBot Rat) ≤ bound := by
  unfold better
  split_ifs with larger
  · exact ⟨fun below => ⟨larger.le.trans below, below⟩, And.right⟩
  · exact ⟨fun below => ⟨below, (not_lt.mp larger).trans below⟩, And.left⟩

theorem bestOver_le (dot : (Nat → Rat) → (Nat → Rat) → Nat → Rat) (query doc : MultiVector)
    (qi start stop : Nat) (bound : WithBot Rat) :
    bestOver dot query doc qi start stop ≤ bound ↔
      ∀ di, start ≤ di → di < stop →
        (dot (token query qi) (token doc di) query.dim : WithBot Rat) ≤ bound := by
  have upTo (count : Nat) : (List.range count).foldl (fun best di =>
      better best (dot (token query qi) (token doc (start + di)) query.dim)) ⊥ ≤ bound ↔
        ∀ di < count,
          (dot (token query qi) (token doc (start + di)) query.dim : WithBot Rat) ≤ bound := by
    induction count with
    | zero => exact ⟨fun _ di inside => absurd inside (Nat.not_lt_zero di), fun _ => bot_le⟩
    | succ count ih =>
      rw [List.range_succ, List.foldl_append, List.foldl_cons, List.foldl_nil, better_le, ih,
        Nat.forall_lt_succ_right]
  rw [bestOver, upTo]
  constructor
  · intro all di after before
    have one := all (di - start) (by omega)
    rwa [Nat.add_sub_cancel' after] at one
  · intro all di inside
    exact all (start + di) (Nat.le_add_right _ _) (by omega)

theorem bestOver_mono (dot : (Nat → Rat) → (Nat → Rat) → Nat → Rat) (query doc : MultiVector)
    (qi : Nat) {start stop start' stop' : Nat} (lower : start' ≤ start) (upper : stop ≤ stop') :
    bestOver dot query doc qi start stop ≤ bestOver dot query doc qi start' stop' := by
  refine (bestOver_le _ _ _ _ _ _ _).mpr fun di after before => ?_
  exact (bestOver_le dot query doc qi start' stop' _).mp le_rfl di (lower.trans after)
    (before.trans_le upper)

/-! ### The symmetric average -/

/-- The best scores are those of the compared pairs. -/
structure Compared (dot : Nat → Nat → Rat) (compared : Nat → Nat → Prop) (best : BestPair) :
    Prop where
  rows : ∀ ai bound, best.bestA ai ≤ bound ↔
    ∀ bi, compared ai bi → (dot ai bi : WithBot Rat) ≤ bound
  columns : ∀ bi bound, best.bestB bi ≤ bound ↔
    ∀ ai, compared ai bi → (dot ai bi : WithBot Rat) ≤ bound

section Compare

variable {dot : Nat → Nat → Rat} {compared compared' : Nat → Nat → Prop} {best : BestPair}

theorem Compared.congr (done : Compared dot compared best)
    (same : ∀ ai bi, compared ai bi ↔ compared' ai bi) : Compared dot compared' best := by
  have equal : compared = compared' := by
    funext ai bi
    exact propext (same ai bi)
  exact equal ▸ done

theorem Compared.offer (done : Compared dot compared best) (ai bi : Nat) :
    Compared dot (fun one other => compared one other ∨ (one = ai ∧ other = bi))
      (best.offer ai bi (dot ai bi)) where
  rows one bound := by
    simp only [BestPair.offer]
    by_cases same : one = ai
    · subst same
      rw [Function.update_self, better_le, done.rows]
      constructor
      · rintro ⟨before, new⟩ other (old | ⟨_, rfl⟩)
        · exact before other old
        · exact new
      · exact fun all => ⟨fun other old => all other (.inl old), all bi (.inr ⟨rfl, rfl⟩)⟩
    · rw [Function.update_of_ne same, done.rows]
      simp only [same, false_and, or_false]
  columns other bound := by
    simp only [BestPair.offer]
    by_cases same : other = bi
    · subst same
      rw [Function.update_self, better_le, done.columns]
      constructor
      · rintro ⟨before, new⟩ one (old | ⟨rfl, _⟩)
        · exact before one old
        · exact new
      · exact fun all => ⟨fun one old => all one (.inl old), all ai (.inr ⟨rfl, rfl⟩)⟩
    · rw [Function.update_of_ne same, done.columns]
      simp only [same, and_false, or_false]

theorem Compared.offerBlock (done : Compared dot compared best) {ab blockCount : Nat} (bi : Nat)
    {dots : Nat → Rat} (exact_ : ∀ ai < blockCount, dots ai = dot (ab + ai) bi) :
    Compared dot
      (fun one other => compared one other ∨ (ab ≤ one ∧ one < ab + blockCount ∧ other = bi))
      ((List.range blockCount).foldl (fun best ai => best.offer (ab + ai) bi (dots ai)) best) := by
  induction blockCount with
  | zero => exact done.congr fun one other => (or_iff_left (by omega)).symm
  | succ count ih =>
    have before := ih fun ai inside => exact_ ai (inside.trans (Nat.lt_succ_self count))
    rw [List.range_succ, List.foldl_append, List.foldl_cons, List.foldl_nil,
      exact_ count (Nat.lt_succ_self count)]
    refine (before.offer (ab + count) bi).congr fun one other => ?_
    rw [or_assoc]
    exact or_congr Iff.rfl (by omega)

theorem Compared.offerTokens (done : Compared dot compared best) {ab blockCount : Nat}
    {dots : Nat → Nat → Rat} (exact_ : ∀ bi, ∀ ai < blockCount, dots bi ai = dot (ab + ai) bi)
    (count : Nat) :
    Compared dot
      (fun one other => compared one other ∨ (ab ≤ one ∧ one < ab + blockCount ∧ other < count))
      ((List.range count).foldl (fun best bi =>
        (List.range blockCount).foldl (fun best ai => best.offer (ab + ai) bi (dots bi ai)) best)
        best) := by
  induction count with
  | zero => exact done.congr fun one other => (or_iff_left (by omega)).symm
  | succ count ih =>
    rw [List.range_succ, List.foldl_append, List.foldl_cons, List.foldl_nil]
    refine (ih.offerBlock count (exact_ count)).congr fun one other => ?_
    rw [or_assoc]
    exact or_congr Iff.rfl (by omega)

end Compare

/-- **All pairs are compared**, each with its inner product. -/
theorem comparePairs_compared (kernel : DotKernel) (a b : MultiVector) :
    Compared (fun ai bi => dotProductF32Scalar (token a ai) (token b bi) a.dim)
      (fun ai bi => ai < a.count ∧ bi < b.count) (comparePairs kernel a b) := by
  have upTo (blocks : Nat) : Compared
      (fun ai bi => dotProductF32Scalar (token a ai) (token b bi) a.dim)
      (fun ai bi => ai < min a.count (blockedScalarQ * blocks) ∧ bi < b.count)
      ((List.range blocks).foldl (fun best block =>
        let ab := blockedScalarQ * block
        let blockCount := min (a.count - ab) blockedScalarQ
        (List.range b.count).foldl (fun best bi =>
          let dots := blockDots kernel a ab blockCount (token b bi)
          (List.range blockCount).foldl (fun best ai => best.offer (ab + ai) bi (dots ai)) best)
          best) ⟨fun _ => ⊥, fun _ => ⊥⟩) := by
    induction blocks with
    | zero =>
      refine ⟨fun ai bound => ⟨fun _ bi inside => ?_, fun _ => bot_le⟩,
        fun bi bound => ⟨fun _ ai inside => ?_, fun _ => bot_le⟩⟩ <;> omega
    | succ blocks ih =>
      rw [List.range_succ, List.foldl_append, List.foldl_cons, List.foldl_nil]
      refine (ih.offerTokens (fun bi ai inside => blockDots_eq kernel a (token b bi) inside)
        b.count).congr fun one other => ?_
      have next : blockedScalarQ * (blocks + 1) = blockedScalarQ * blocks + blockedScalarQ := rfl
      omega
  refine (upTo _).congr fun ai bi => ?_
  have enough : a.count ≤ blockedScalarQ * ((a.count + blockedScalarQ - 1) / blockedScalarQ) := by
    unfold blockedScalarQ
    omega
  rw [min_eq_left enough]

/-- **The symmetric average** of the plain scores in both directions. -/
theorem symmetricMaxSimAverage_eq (kernel : DotKernel) (a b : MultiVector) :
    symmetricMaxSimAverage kernel a b =
      if a.dim ≠ b.dim then none
      else some ((((∑ ai ∈ range a.count, bestOver dotProductF32Scalar a b ai 0 b.count).map
          fun sum : Rat => sum / a.count) +
        ((∑ bi ∈ range b.count, bestOver dotProductF32Scalar b a bi 0 a.count).map
          fun sum : Rat => sum / b.count)).map (0.5 * ·)) := by
  unfold symmetricMaxSimAverage
  split_ifs with different
  · rfl
  · have done := comparePairs_compared kernel a b
    have sameDim : a.dim = b.dim := not_not.mp different
    have rows : ∀ ai ∈ range a.count,
        (comparePairs kernel a b).bestA ai = bestOver dotProductF32Scalar a b ai 0 b.count := by
      intro ai member
      refine eq_of_forall_ge_iff fun bound => ?_
      rw [done.rows, bestOver_le]
      have inside := mem_range.mp member
      exact ⟨fun all bi _ before => all bi ⟨inside, before⟩,
        fun all bi both => all bi (Nat.zero_le bi) both.2⟩
    have columns : ∀ bi ∈ range b.count,
        (comparePairs kernel a b).bestB bi = bestOver dotProductF32Scalar b a bi 0 a.count := by
      intro bi member
      refine eq_of_forall_ge_iff fun bound => ?_
      rw [done.columns, bestOver_le]
      have inside := mem_range.mp member
      simp only [dotProductF32Scalar_comm (token b bi), ← sameDim]
      exact ⟨fun all ai _ before => all ai ⟨before, inside⟩,
        fun all ai both => all ai (Nat.zero_le ai) both.1⟩
    simp only [foldl_add, zero_add]
    rw [sum_congr rfl rows, sum_congr rfl columns]

/-- **The average is symmetric.** -/
theorem symmetricMaxSimAverage_comm (kernel : DotKernel) (a b : MultiVector) :
    symmetricMaxSimAverage kernel a b = symmetricMaxSimAverage kernel b a := by
  rw [symmetricMaxSimAverage_eq, symmetricMaxSimAverage_eq]
  refine if_congr ne_comm rfl ?_
  rw [add_comm]

/-! ### The model of documents -/

theorem sum_getD {α M : Type*} [AddCommMonoid M] (items : List α) (value : α → M) (default : α) :
    ∑ i ∈ range items.length, value (items.getD i default) = (items.map value).sum := by
  induction items with
  | nil => rfl
  | cons item rest ih =>
    rw [List.length_cons, sum_range_succ', List.map_cons, List.sum_cons, ← ih, add_comm]
    rfl

theorem coe_sum (terms : Nat → Rat) (count : Nat) :
    ((∑ i ∈ range count, terms i : Rat) : WithBot Rat) =
      ∑ i ∈ range count, (terms i : WithBot Rat) := by
  induction count with
  | zero => rfl
  | succ count ih => rw [sum_range_succ, sum_range_succ, WithBot.coe_add, ih]

theorem dotProduct_eq {row other : List Rat} (same : row.length = other.length) :
    MaxSim.dotProduct row other =
      ∑ d ∈ range row.length, row.getD d 0 * other.getD d 0 := by
  induction row generalizing other with
  | nil => rfl
  | cons value rest ih =>
    cases other with
    | nil => cases same
    | cons value' rest' =>
      have tail := ih (Nat.succ.inj same)
      rw [List.length_cons, sum_range_succ', ← add_comm]
      rw [MaxSim.dotProduct] at tail ⊢
      rw [List.zipWith_cons_cons, List.sum_cons, tail]
      rfl

theorem bestOver_eq_bestDot (query doc : MultiVector) (same : query.dim = doc.dim) {qi : Nat}
    (inside : qi < query.count) :
    bestOver dotProductF32Scalar query doc qi 0 doc.count =
      (MaxSim.bestDot (query.values.getD qi []) doc.values : WithBot Rat) := by
  have row (mv : MultiVector) {i : Nat} (within : i < mv.count) :
      (mv.values.getD i []).length = mv.dim := by
    refine mv.rows _ ?_
    rw [← List.getElem_eq_getD (h := within) []]
    exact List.getElem_mem within
  have products {di : Nat} (within : di < doc.count) :
      dotProductF32Scalar (token query qi) (token doc di) query.dim =
        MaxSim.dotProduct (query.values.getD qi []) (doc.values.getD di []) := by
    rw [dotProduct_eq ((row query inside).trans (same.trans (row doc within).symm)),
      row query inside, dotProductF32Scalar_eq]
    rfl
  obtain ⟨best, found⟩ : ∃ best,
      (doc.values.map (MaxSim.dotProduct (query.values.getD qi []))).max? = some best := by
    refine Option.ne_none_iff_exists'.mp fun none => doc.nonempty ?_
    exact List.map_eq_nil_iff.mp (List.max?_eq_none_iff.mp none)
  obtain ⟨member, largest⟩ := List.max?_eq_some_iff.mp found
  rw [MaxSim.bestDot, found, Option.getD_some]
  refine le_antisymm ((bestOver_le _ _ _ _ _ _ _).mpr fun di _ before => ?_) ?_
  · rw [products before, WithBot.coe_le_coe]
    refine largest _ (List.mem_map_of_mem ?_)
    rw [← List.getElem_eq_getD (h := before) []]
    exact List.getElem_mem before
  · obtain ⟨other, member', rfl⟩ := List.mem_map.mp member
    obtain ⟨di, before, rfl⟩ := List.getElem_of_mem member'
    have one := (bestOver_le dotProductF32Scalar query doc qi 0 doc.count _).mp le_rfl di
      (Nat.zero_le di) before
    rwa [products before, ← List.getElem_eq_getD (h := before) []] at one

/-! ### Unit weights -/

def rangeScore (query doc : MultiVector) (start stop : Nat) : WithBot Rat :=
  ∑ qi ∈ range query.count, bestOver dotProductF32Scalar query doc qi start stop

theorem count_pos (mv : MultiVector) : 0 < mv.count := List.length_pos_of_ne_nil mv.nonempty

/-- **The plain score** of documents with the query's dimension. -/
theorem maxSim_eq_rangeScore (kernel : MaxSimKernel) (query doc : MultiVector) :
    maxSim kernel query doc =
      if query.dim ≠ doc.dim then none else some (rangeScore query doc 0 doc.count) := by
  rw [maxSim_eq, maxSimWithDot]
  simp only [foldl_add, zero_add]
  rfl

theorem addWeighted_one (score best : WithBot Rat) :
    addWeighted score best false (.finite 1) = some (score + best) := by
  have same : best.map (fun value : Rat => 1 * value) = best := by
    simp only [one_mul]
    exact congrFun WithBot.map_id best
  have value : addWeighted score best false (.finite 1) =
      some (score + best.map fun value : Rat => 1 * value) := rfl
  rw [value, same]

/-- **Unit weights** and no masked token give the score of the range. -/
theorem maxSimTokenRangeWeighted_unit (query doc : MultiVector) {startToken endToken : Nat}
    (inside : startToken < endToken) (within : endToken ≤ doc.count)
    (queryWeights : Option (Nat → Weight)) (queryMask : Option (Nat → Bool))
    (unit : ∀ qi, tokenWeight queryWeights qi = .finite 1)
    (unmasked : ∀ qi, tokenMasked queryMask qi = false) :
    maxSimTokenRangeWeighted query doc startToken endToken queryWeights queryMask =
      if query.dim ≠ doc.dim then none else some (rangeScore query doc startToken endToken) := by
  have valid : ¬(doc.count < endToken ∨ endToken ≤ startToken) := by omega
  unfold maxSimTokenRangeWeighted
  rw [if_neg valid]
  refine if_congr Iff.rfl rfl ?_
  simp only [unit, unmasked, addWeighted_one]
  have pure_ := List.foldlM_pure (m := Option) (l := List.range query.count)
    (f := fun score qi => score + bestOver dotProductF32Scalar query doc qi startToken endToken)
    (b := 0)
  rw [foldl_add, zero_add] at pure_
  exact pure_

theorem maxSimWeighted_unit (kernel : MaxSimKernel) (query doc : MultiVector) :
    maxSimWeighted kernel query doc (some fun _ => .finite 1) none = maxSim kernel query doc := by
  rw [maxSim_eq_rangeScore]
  exact maxSimTokenRangeWeighted_unit query doc (count_pos doc) le_rfl _ _ (fun _ => rfl)
    fun _ => rfl

/-! ### Contexts -/

theorem contextEnd_bounds (doc : MultiVector) {ci : Nat} (inside : ci < doc.contextOffsets.length) :
    doc.contextOffsets.getD ci 0 < contextEnd doc ci ∧ contextEnd doc ci ≤ doc.count := by
  have start : doc.contextOffsets.getD ci 0 = doc.contextOffsets[ci] :=
    (List.getElem_eq_getD 0).symm
  have within : doc.contextOffsets[ci] < doc.count := doc.inside _ (List.getElem_mem inside)
  unfold contextEnd
  split_ifs with next
  · have stop : doc.contextOffsets.getD (ci + 1) 0 = doc.contextOffsets[ci + 1] :=
      (List.getElem_eq_getD 0).symm
    rw [start, stop]
    refine ⟨List.pairwise_iff_getElem.mp doc.rising ci (ci + 1) inside next (Nat.lt_succ_self ci),
      (doc.inside _ (List.getElem_mem next)).le⟩
  · rw [start]
    exact ⟨within, le_rfl⟩

/-- The best context of a document with the query's dimension scores at most the whole. -/
theorem bestContext_le (query doc : MultiVector) (same : query.dim = doc.dim) :
    ∃ best, bestContext query doc none none = some best ∧
      best ≤ rangeScore query doc 0 doc.count := by
  have upTo : ∀ count ≤ doc.contextOffsets.length,
      ∃ best, (List.range count).foldlM (fun best ci =>
        (maxSimTokenRangeWeighted query doc (doc.contextOffsets.getD ci 0) (contextEnd doc ci) none
          none).map fun score => if best < score then score else best) ⊥ = some best ∧
            best ≤ rangeScore query doc 0 doc.count := by
    intro count most
    induction count with
    | zero => exact ⟨⊥, rfl, bot_le⟩
    | succ count ih =>
      obtain ⟨best, run, below⟩ := ih (Nat.le_of_succ_le most)
      obtain ⟨inside, within⟩ := contextEnd_bounds doc most
      have score := maxSimTokenRangeWeighted_unit query doc inside within none none (fun _ => rfl)
        fun _ => rfl
      rw [if_neg (not_not.mpr same)] at score
      have part : rangeScore query doc (doc.contextOffsets.getD count 0) (contextEnd doc count) ≤
          rangeScore query doc 0 doc.count :=
        sum_le_sum fun qi _ => bestOver_mono _ _ _ _ (Nat.zero_le _) within
      rw [List.range_succ, List.foldlM_append, run]
      refine ⟨if best < rangeScore query doc (doc.contextOffsets.getD count 0)
        (contextEnd doc count) then rangeScore query doc (doc.contextOffsets.getD count 0)
        (contextEnd doc count) else best, ?_, ?_⟩
      · simp only [List.foldlM_cons, List.foldlM_nil, score]
        rfl
      split_ifs
      · exact part
      · exact below
  exact upTo _ le_rfl

/-- **The best context** never scores more than the whole document. -/
theorem maxSimContextLevel_le (kernel : MaxSimKernel) (query doc : MultiVector) :
    (maxSimContextLevel kernel query doc).isSome = (maxSim kernel query doc).isSome ∧
      ∀ best ∈ maxSimContextLevel kernel query doc, ∀ flat ∈ maxSim kernel query doc,
        best ≤ flat := by
  unfold maxSimContextLevel
  split_ifs with different contexts
  · rw [maxSim_eq_rangeScore, if_pos different]
    exact ⟨rfl, fun best none => absurd none (Option.not_mem_none best)⟩
  · refine ⟨rfl, fun best given flat given' => ?_⟩
    rw [Option.mem_unique given given']
  · obtain ⟨best, run, below⟩ := bestContext_le query doc (not_not.mp different)
    rw [maxSim_eq_rangeScore, if_neg different, run]
    refine ⟨rfl, fun best' given flat given' => ?_⟩
    rw [Option.mem_some.mp given, Option.mem_some.mp given'] at below
    exact below

/-- A document with one context that has all its tokens. -/
def withOneContext (doc : MultiVector) : MultiVector :=
  { doc with
    contextOffsets := [0]
    contexts := .inr rfl
    rising := List.pairwise_singleton _ _
    inside := fun start member => by
      rw [List.mem_singleton.mp member]
      exact List.length_pos_of_ne_nil doc.nonempty }

theorem bestContext_withOneContext (query doc : MultiVector)
    (queryWeights : Option (Nat → Weight)) (queryMask : Option (Nat → Bool)) :
    bestContext query (withOneContext doc) queryWeights queryMask =
      maxSimTokenRangeWeighted query doc 0 doc.count queryWeights queryMask := by
  have first : bestContext query (withOneContext doc) queryWeights queryMask =
      ((maxSimTokenRangeWeighted query doc 0 doc.count queryWeights queryMask).map fun score =>
        if ⊥ < score then score else ⊥) >>= pure := rfl
  have keep : (fun score : WithBot Rat => if ⊥ < score then score else ⊥) = id := by
    funext score
    rw [id_eq, ite_eq_left_iff, not_bot_lt_iff]
    exact Eq.symm
  rw [first, keep, Option.map_id, bind_pure]
  rfl

/-- **One context with all tokens** scores as the flat document. -/
theorem maxSimContextLevel_withOneContext (kernel : MaxSimKernel) (query doc : MultiVector) :
    maxSimContextLevel kernel query (withOneContext doc) = maxSim kernel query doc := by
  have contexts : (withOneContext doc).hasContexts = true := rfl
  have sameDim : (withOneContext doc).dim = doc.dim := rfl
  have score := maxSimTokenRangeWeighted_unit query doc (count_pos doc) le_rfl none none
    (fun _ => rfl) fun _ => rfl
  rw [maxSimContextLevel, contexts, sameDim, bestContext_withOneContext, score,
    maxSim_eq_rangeScore kernel query doc]
  by_cases different : query.dim ≠ doc.dim
  · rw [if_pos different, if_pos different]
  · rw [if_neg different, if_neg different]
    rfl

/-- **The late-interaction score is one function.** In exact arithmetic the blocked kernels agree
with the plain loop, unit weights change nothing, the symmetric average is symmetric, the best
context is at most the flat score, and a single context with all tokens gives it. -/
theorem maxSim_family (kernel : MaxSimKernel) (dot : DotKernel) (query doc : MultiVector) :
    maxSimBlocked dot query doc = maxSimWithDot dotProductF32Scalar query doc ∧
      maxSimWeighted kernel query doc (some fun _ => .finite 1) none = maxSim kernel query doc ∧
      symmetricMaxSimAverage dot query doc = symmetricMaxSimAverage dot doc query ∧
      ((maxSimContextLevel kernel query doc).isSome = (maxSim kernel query doc).isSome ∧
        ∀ best ∈ maxSimContextLevel kernel query doc, ∀ flat ∈ maxSim kernel query doc,
          best ≤ flat) ∧
      maxSimContextLevel kernel query (withOneContext doc) = maxSim kernel query doc :=
  ⟨maxSimBlocked_eq dot query doc, maxSimWeighted_unit kernel query doc,
    symmetricMaxSimAverage_comm dot query doc, maxSimContextLevel_le kernel query doc,
    maxSimContextLevel_withOneContext kernel query doc⟩

end TurboHybrid.MaxSimKernels
