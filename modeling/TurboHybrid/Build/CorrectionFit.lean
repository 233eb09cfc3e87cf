/-
**The correction fit.**

A build for a cosine or inner product index shifts and scales each dimension of the preprocessed
vectors by their mean and deviation. The statistics are kept in three ways: vector by vector, by
runs of equal vectors, and by the participants of a parallel scan, whose shares the leader combines.

* `streamFit_eq`, `runFit_eq`, `combineFit_eq`: each way gives the statistics by two passes;
* `fits_agree`: with the sidecar that they lead to.
-/
import TurboHybrid.Library.Moments
import Mathlib.Algebra.Order.Field.Basic
import Mathlib.Algebra.Order.Ring.Rat
import Mathlib.Data.List.TakeWhile
import Mathlib.Data.Rat.Cast.CharZero

set_option linter.unusedSectionVars false

namespace TurboHybrid.CorrectionFit

open TurboHybrid.Library

inductive ScoreMode where
  | l2
  | cosine
  | ip
  | l1
  deriving DecidableEq, Repr

def ScoreMode.fits (mode : ScoreMode) : Bool := mode == .cosine || mode == .ip

/-- The statistics of a build state, one mean and one sum of squared deviations a dimension. -/
@[ext] structure FitState (K : Type*) (dimensions : Nat) where
  fitCount : Nat
  fitMean : Fin dimensions → K
  fitM2 : Fin dimensions → K

structure CorrectionSidecar (F : Type*) (dimensions : Nat) where
  ecShift : Fin dimensions → F
  ecScale : Fin dimensions → F

section Fit

variable {K V : Type*} [Field K] [DecidableEq V] {dimensions : Nat}
  (preprocess : V → Fin dimensions → K) (vectorHash : V → Nat) (mode : ScoreMode)

def emptyFit : FitState K dimensions := ⟨0, fun _ => 0, fun _ => 0⟩

/-! ### Vector by vector -/

def streamFitVector (state : FitState K dimensions) (vector : V) : FitState K dimensions :=
  if mode.fits then
    let newN : K := state.fitCount + 1
    let delta := fun dim => preprocess vector dim - state.fitMean dim
    let fitMean := fun dim => state.fitMean dim + delta dim / newN
    { fitCount := state.fitCount + 1
      fitMean := fitMean
      fitM2 := fun dim => state.fitM2 dim + delta dim * (preprocess vector dim - fitMean dim) }
  else state

def streamFit (corpus : List V) : FitState K dimensions :=
  corpus.foldl (streamFitVector preprocess mode) emptyFit

/-! ### Runs of equal vectors -/

def buildVectorsEqual (left right : V) : Bool :=
  vectorHash left == vectorHash right && left == right

/-- A run of equal vectors from a row on. The row is the number of vectors before it. -/
def fitRun (state : FitState K dimensions) (vector : V) (run : Nat) : FitState K dimensions :=
  let priorN : K := state.fitCount
  let newN : K := priorN + run
  let delta := fun dim => preprocess vector dim - state.fitMean dim
  { fitCount := state.fitCount + run
    fitMean := fun dim => state.fitMean dim + delta dim * run / newN
    fitM2 := fun dim => state.fitM2 dim + delta dim * delta dim * priorN * run / newN }

def fitRuns (state : FitState K dimensions) : List V → FitState K dimensions
  | [] => state
  | row :: rest =>
    fitRuns (fitRun preprocess state row
      ((rest.takeWhile (buildVectorsEqual vectorHash row)).length + 1))
      (rest.dropWhile (buildVectorsEqual vectorHash row))
termination_by rows => rows.length
decreasing_by exact Nat.lt_succ_of_le (List.length_dropWhile_le _ _)

def runFit (corpus : List V) : FitState K dimensions :=
  fitRuns preprocess vectorHash emptyFit corpus

/-! ### Shares -/

def participantFitVector (state : FitState K dimensions) (vector : V) : FitState K dimensions :=
  if mode.fits then streamFitVector preprocess mode state vector
  else { state with fitCount := state.fitCount + 1 }

def participantFit (share : List V) : FitState K dimensions :=
  share.foldl (participantFitVector preprocess mode) emptyFit

/-- A slot of the shared memory; those without a vector are passed over. -/
def combineSlot (state slot : FitState K dimensions) : FitState K dimensions :=
  if slot.fitCount = 0 then state
  else
    let total : K := state.fitCount + slot.fitCount
    let delta := fun dim => slot.fitMean dim - state.fitMean dim
    { fitCount := state.fitCount + slot.fitCount
      fitMean := fun dim => state.fitMean dim + delta dim * (slot.fitCount / total)
      fitM2 := fun dim => state.fitM2 dim + (slot.fitM2 dim +
        delta dim * delta dim * (state.fitCount * slot.fitCount / total)) }

def combineFit (slots : List (FitState K dimensions)) : FitState K dimensions :=
  if mode.fits then slots.foldl combineSlot emptyFit
  else ⟨(slots.map FitState.fitCount).sum, fun _ => 0, fun _ => 0⟩

/-! ### The sidecar -/

section Sidecar

variable {F : Type*} [LinearOrder K] (sqrt : K → K) (toFloat : K → F) (floatEpsilon : K)

def FitState.variance (state : FitState K dimensions) (dim : Fin dimensions) : K :=
  if 1 < state.fitCount then state.fitM2 dim / (state.fitCount - 1) else 0

def ecScale (variance : K) : F :=
  let stddev := if 0 < variance then sqrt variance else 0
  if floatEpsilon < stddev then toFloat (1 / stddev) else toFloat 1

def correctionOf (state : FitState K dimensions) : CorrectionSidecar F dimensions :=
  ⟨fun dim => toFloat (-state.fitMean dim),
    fun dim => ecScale sqrt toFloat floatEpsilon (state.variance dim)⟩

/-- The end of a fit vector by vector, and of a combined one. -/
def finishStreamingFit (state : FitState K dimensions) : Option (CorrectionSidecar F dimensions) :=
  if state.fitCount = 0 ∨ dimensions = 0 ∨ mode.fits = false then none
  else some (correctionOf sqrt toFloat floatEpsilon state)

def fitCorrection (corpus : List V) : Option (CorrectionSidecar F dimensions) :=
  if corpus.length = 0 ∨ dimensions = 0 ∨ mode.fits = false then none
  else some (correctionOf sqrt toFloat floatEpsilon (runFit preprocess vectorHash corpus))

end Sidecar

/-! ### Two passes -/

def directFit (corpus : List V) : FitState K dimensions :=
  let mean := fun dim => (corpus.map fun vector => preprocess vector dim).sum / corpus.length
  ⟨corpus.length, mean,
    fun dim => (corpus.map fun vector => (preprocess vector dim - mean dim) ^ 2).sum⟩

def FitState.at (state : FitState K dimensions) (dim : Fin dimensions) : Moments K :=
  ⟨state.fitCount, state.fitMean dim, state.fitM2 dim⟩

variable {preprocess vectorHash mode}

theorem FitState.eq_of_at {state other : FitState K dimensions}
    (count : state.fitCount = other.fitCount) (same : ∀ dim, state.at dim = other.at dim) :
    state = other := by
  ext dim
  · exact count
  · exact congrArg Moments.mean (same dim)
  · exact congrArg Moments.squares (same dim)

theorem directFit_at (corpus : List V) (dim : Fin dimensions) :
    (directFit preprocess corpus).at dim =
      Moments.of (corpus.map fun vector => preprocess vector dim) := by
  unfold directFit FitState.at Moments.of
  simp only [List.map_map, Function.comp_def, List.length_map]

@[simp] theorem directFit_nil : directFit preprocess ([] : List V) = emptyFit := by
  refine FitState.eq_of_at rfl fun dim => ?_
  rw [directFit_at]
  exact Moments.of_nil

theorem directFit_perm {corpus corpus' : List V} (same : corpus.Perm corpus') :
    directFit preprocess corpus = directFit preprocess corpus' := by
  refine FitState.eq_of_at same.length_eq fun dim => ?_
  rw [directFit_at, directFit_at]
  exact Moments.of_perm (same.map _)

variable [CharZero K]

/-! ### The three ways -/

theorem streamFitVector_direct (fits : mode.fits = true) (corpus : List V) (vector : V) :
    streamFitVector preprocess mode (directFit preprocess corpus) vector =
      directFit preprocess (corpus ++ [vector]) := by
  unfold streamFitVector
  rw [if_pos fits]
  refine FitState.eq_of_at ?_ fun dim => ?_
  · show corpus.length + 1 = (corpus ++ [vector]).length
    rw [List.length_append, List.length_singleton]
  · rw [directFit_at, List.map_append, List.map_singleton, ← Moments.push_of, ← directFit_at]
    rfl

variable (preprocess) in
theorem foldl_streamFitVector (fits : mode.fits = true) (before corpus : List V) :
    corpus.foldl (streamFitVector preprocess mode) (directFit preprocess before) =
      directFit preprocess (before ++ corpus) := by
  induction corpus generalizing before with
  | nil => rw [List.append_nil, List.foldl_nil]
  | cons vector corpus ih =>
    rw [List.foldl_cons, streamFitVector_direct fits, ih, List.append_assoc, List.singleton_append]

/-- **Vector by vector.** -/
theorem streamFit_eq (fits : mode.fits = true) (corpus : List V) :
    streamFit preprocess mode corpus = directFit preprocess corpus := by
  have whole := foldl_streamFitVector preprocess fits [] corpus
  rwa [directFit_nil] at whole

theorem fitRun_direct (corpus : List V) (vector : V) (run : Nat) :
    fitRun preprocess (directFit preprocess corpus) vector run =
      directFit preprocess (corpus ++ List.replicate run vector) := by
  refine FitState.eq_of_at ?_ fun dim => ?_
  · show corpus.length + run = (corpus ++ List.replicate run vector).length
    rw [List.length_append, List.length_replicate]
  · rw [directFit_at, List.map_append, List.map_replicate, ← Moments.pushRun_of, ← directFit_at]
    rfl

theorem takeWhile_equal (vectorHash : V → Nat) (row : V) (rest : List V) :
    rest.takeWhile (buildVectorsEqual vectorHash row) =
      List.replicate (rest.takeWhile (buildVectorsEqual vectorHash row)).length row := by
  rw [List.eq_replicate_iff]
  refine ⟨rfl, fun vector member => ?_⟩
  have same := List.mem_takeWhile_imp member
  unfold buildVectorsEqual at same
  rw [Bool.and_eq_true, beq_iff_eq, beq_iff_eq] at same
  exact same.2.symm

variable (preprocess) in
theorem fitRuns_direct (vectorHash : V → Nat) (before corpus : List V) :
    fitRuns preprocess vectorHash (directFit preprocess before) corpus =
      directFit preprocess (before ++ corpus) := by
  suffices general : ∀ state : FitState K dimensions, state = directFit preprocess before →
      fitRuns preprocess vectorHash state corpus = directFit preprocess (before ++ corpus) from
    general _ rfl
  intro state summed
  fun_induction fitRuns preprocess vectorHash state corpus generalizing before with
  | case1 state => rw [summed, List.append_nil]
  | case2 state row rest ih =>
    rw [ih (before ++ row :: rest.takeWhile (buildVectorsEqual vectorHash row)), List.append_assoc,
      List.cons_append, List.takeWhile_append_dropWhile]
    rw [summed, fitRun_direct, List.replicate_succ, ← takeWhile_equal]

/-- **By runs.** -/
theorem runFit_eq (vectorHash : V → Nat) (corpus : List V) :
    runFit preprocess vectorHash corpus = directFit preprocess corpus := by
  have whole := fitRuns_direct preprocess vectorHash [] corpus
  rwa [directFit_nil] at whole

theorem participantFit_eq (fits : mode.fits = true) (share : List V) :
    participantFit preprocess mode share = directFit preprocess share := by
  rw [← streamFit_eq fits]
  unfold participantFit streamFit
  congr 1
  funext state vector
  unfold participantFitVector
  rw [if_pos fits]

theorem combineSlot_direct (before share : List V) :
    combineSlot (directFit preprocess before) (directFit preprocess share) =
      directFit preprocess (before ++ share) := by
  unfold combineSlot
  split_ifs with empty
  · rw [List.length_eq_zero_iff.mp empty, List.append_nil]
  · refine FitState.eq_of_at ?_ fun dim => ?_
    · show before.length + share.length = (before ++ share).length
      rw [List.length_append]
    · rw [directFit_at, List.map_append, Moments.of_append, ← directFit_at, ← directFit_at]
      rfl

variable (preprocess) in
theorem foldl_combineSlot (before : List V) (shares : List (List V)) :
    (shares.map (directFit preprocess)).foldl combineSlot (directFit preprocess before) =
      directFit preprocess (before ++ shares.flatten) := by
  induction shares generalizing before with
  | nil => rw [List.flatten_nil, List.append_nil, List.map_nil, List.foldl_nil]
  | cons share shares ih =>
    rw [List.map_cons, List.foldl_cons, combineSlot_direct, ih, List.flatten_cons,
      List.append_assoc]

/-- **By shares**, in any order and with any that are empty. -/
theorem combineFit_eq (fits : mode.fits = true) {corpus : List V} {shares : List (List V)}
    (parts : shares.flatten.Perm corpus) :
    combineFit mode (shares.map (participantFit preprocess mode)) = directFit preprocess corpus := by
  have whole := foldl_combineSlot preprocess [] shares
  rw [directFit_nil, List.nil_append, directFit_perm parts] at whole
  unfold combineFit
  rw [if_pos fits, ← whole]
  congr 2
  funext share
  exact participantFit_eq fits share

section Agree

variable [LinearOrder K] {F : Type*} (sqrt : K → K) (toFloat : K → F) (floatEpsilon : K)

/-- **The three ways agree**: the statistics are those of two passes over the corpus, and so is the
sidecar. -/
theorem fits_agree (fits : mode.fits = true) (vectorHash : V → Nat) {corpus : List V}
    {shares : List (List V)} (parts : shares.flatten.Perm corpus) :
    let combined := combineFit mode (shares.map (participantFit preprocess mode))
    let direct : FitState K dimensions := directFit preprocess corpus
    (streamFit preprocess mode corpus = direct ∧ runFit preprocess vectorHash corpus = direct ∧
      combined = direct) ∧
    finishStreamingFit mode sqrt toFloat floatEpsilon (streamFit preprocess mode corpus) =
      finishStreamingFit mode sqrt toFloat floatEpsilon direct ∧
    fitCorrection preprocess vectorHash mode sqrt toFloat floatEpsilon corpus =
      finishStreamingFit mode sqrt toFloat floatEpsilon direct ∧
    finishStreamingFit mode sqrt toFloat floatEpsilon combined =
      finishStreamingFit mode sqrt toFloat floatEpsilon direct := by
  intro combined direct
  have streamed : streamFit preprocess mode corpus = direct := streamFit_eq fits corpus
  have byRuns : runFit preprocess vectorHash corpus = direct := runFit_eq vectorHash corpus
  have byShares : combined = direct := combineFit_eq fits parts
  refine ⟨⟨streamed, byRuns, byShares⟩, ?_, ?_, ?_⟩
  · rw [streamed]
  · unfold fitCorrection finishStreamingFit
    rw [byRuns]
    rfl
  · rw [byShares]

end Agree

end Fit

/-- Three vectors of one dimension, in two shares with an empty one between them. -/
theorem fits_agree_three :
    let preprocess : Int → Fin 1 → ℚ := fun vector _ => vector
    let direct : FitState ℚ 1 := directFit preprocess [1, 2, 3]
    let combined := combineFit .cosine
      ([[3], [], [1, 2]].map (participantFit preprocess .cosine))
    (streamFit preprocess .cosine [1, 2, 3] = direct ∧
      runFit preprocess Int.natAbs [1, 2, 3] = direct ∧ combined = direct) ∧
    finishStreamingFit .cosine id id 0 (streamFit preprocess .cosine [1, 2, 3]) =
      finishStreamingFit .cosine id id 0 direct ∧
    fitCorrection preprocess Int.natAbs .cosine id id 0 [1, 2, 3] =
      finishStreamingFit .cosine id id 0 direct ∧
    finishStreamingFit .cosine id id 0 combined = finishStreamingFit .cosine id id 0 direct :=
  fits_agree id id 0 rfl Int.natAbs (by decide)

end TurboHybrid.CorrectionFit
