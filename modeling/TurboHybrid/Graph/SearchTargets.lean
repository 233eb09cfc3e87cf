/-
**The targets of a graph scan.**

A scan searches with two limits: how many results it wants and how many candidates it keeps while it
looks for them. They are derived from what is requested and from the settings, in 64 bits, and
widened again when a traversal finds too little.

* `initialTargets_sound`: the limits of the first traversal, where no product leaves its type;
* `adaptiveWiden_sound_iff`: widening keeps to the node count if there is room for one more;
* `tightL2_sound`, `uncertaintyRetry_sound`: the other two widenings always do;
* `searchTargets_sound_iff`: exactly when a whole scan keeps its limits in order;
* `initialTargets_tooFew`: a limit and a node count that are too large.
-/
import TurboHybrid.Graph.FinalRescore

namespace TurboHybrid.Graph.Dense

open Library.Lanes

/-! ### Machine integers -/

def intMax : Int := 2147483647

def int64Max : Int := 9223372036854775807

def Fits (bits : Nat) (value : Int) : Prop := -2 ^ (bits - 1) ≤ value ∧ value < 2 ^ (bits - 1)

/-- The integer of a double in 64 bits; one that is too large becomes the least integer. -/
def toInt64 (value : Int) : Int :=
  if -int64Max ≤ value ∧ value ≤ int64Max then value else -int64Max - 1

/-- A value of 64 bits as an `int` of at most `INT_MAX`. -/
def clampInt (value : Int) : Int := wrap 32 (min intMax value)

/-- A multiplier of at least one and of moderate size. -/
def Multiplies (multiply : Int → Int) : Prop :=
  ∀ count, 0 ≤ count → count ≤ intMax → count ≤ multiply count ∧ multiply count ≤ int64Max

/-! ### What the limits depend on -/

/-- `PgturbohybridNativeSegmentBudgetMode`. -/
inductive SegmentBudget where
  | auto
  | off
  | sqrt
  | linear
  deriving DecidableEq, Repr

/-- The products of a count and a multiplier of double precision, and the rows over the estimated
selectivity, all rounded up. -/
structure Doubles where
  rowsOverSelectivity : Int → Int
  budget : Int → Int
  segments : SegmentBudget → Int → Int
  adaptive : Int → Int
  adaptiveMax : Int → Int
  retry : Int → Int
  rowsOverSelectivity_nonneg : ∀ count, 0 ≤ count → 0 ≤ rowsOverSelectivity count
  budget_le : ∀ count, 0 ≤ count → count ≤ budget count
  segments_multiplies : ∀ mode, Multiplies (segments mode)
  adaptive_multiplies : Multiplies adaptive
  adaptiveMax_multiplies : Multiplies adaptiveMax
  retry_multiplies : Multiplies retry

/-- The metapage, the options and the request; the ranges are those of the options and of the types
of the fields. -/
structure SearchSettings where
  tqNodeCount : Int
  dimensions : Int
  bits : Int
  scoreL2 : Bool
  tqSegmentCount : Int
  effectiveEf : Int
  graphOversampling : Int
  graphRescoreBand : RescoreBand
  minResultTarget : Int
  tupleTargetRows : Option Int
  hasPayloadFilter : Bool
  partialSelectivity : Bool
  denseBudgetPolicy : DenseBudgetPolicy
  denseMaxCandidateMultiplier : Int
  maxScanTuples : Int
  nativeSegmentBudget : SegmentBudget
  linearProfile : Bool
  nodeCount_range : 0 < tqNodeCount ∧ tqNodeCount < 4294967296
  effectiveEf_range : 1 ≤ effectiveEf ∧ effectiveEf ≤ 1000
  graphOversampling_range : 1 ≤ graphOversampling ∧ graphOversampling ≤ 1000
  minResultTarget_range : minResultTarget ≤ intMax
  tupleTargetRows_range : ∀ rows ∈ tupleTargetRows, 0 ≤ rows ∧ rows ≤ int64Max

structure Targets where
  resultTarget : Int
  searchEf : Int
  deriving DecidableEq, Repr

/-- What the results of a traversal with given limits decide. -/
structure Outcome where
  widens : Targets → Bool
  tight : Targets → Bool
  retries : Targets → Bool

variable (settings : SearchSettings) (doubles : Doubles) (outcome : Outcome)

/-! ### The first limits -/

def candidateOversampling : Int :=
  if settings.hasPayloadFilter ∧ settings.scoreL2 = false then
    min (max settings.graphOversampling 1) 2
  else max settings.graphOversampling 1

def rowsTarget (rows : Int) : Int :=
  let rows := max 1 rows
  let resultTarget :=
    clampInt (max (wrap 64 (rows * candidateOversampling settings)) settings.effectiveEf)
  if settings.partialSelectivity then
    let filteredTarget :=
      wrap 64 (toInt64 (doubles.rowsOverSelectivity rows) * candidateOversampling settings)
    clampInt (max resultTarget filteredTarget)
  else resultTarget

/-- `PGTURBOHYBRID_DEFAULT_FINAL_K`. -/
def defaultFinalK : Int := 10

def limitTarget : Int :=
  match settings.tupleTargetRows with
  | some rows => rowsTarget settings doubles rows
  | none => if 0 < settings.minResultTarget then settings.minResultTarget else defaultFinalK

def requestTarget : Int :=
  if 0 < settings.minResultTarget then
    clampInt (max (limitTarget settings doubles) settings.minResultTarget)
  else limitTarget settings doubles

def l2Target : Int :=
  let l2Target := wrap 64 (settings.effectiveEf * max settings.graphOversampling 1)
  if 1024 ≤ settings.dimensions then
    if settings.bits < 4 then wrap 64 (l2Target * 2) else wrap 64 (settings.effectiveEf * 8)
  else l2Target

/-- The target widened for L2 distances and for filters that the index does not know. -/
def widenedTarget : Int :=
  let resultTarget :=
    if settings.graphRescoreBand = .auto ∧ settings.scoreL2 then
      clampInt (max (requestTarget settings doubles) (l2Target settings))
    else requestTarget settings doubles
  if settings.hasPayloadFilter = false ∧ settings.partialSelectivity then
    clampInt (max resultTarget (min settings.tqNodeCount settings.maxScanTuples))
  else resultTarget

def requestedBaseTarget : Int :=
  let base :=
    max 1 (if 0 < settings.minResultTarget then settings.minResultTarget else defaultFinalK)
  match settings.tupleTargetRows with
  | some rows => max base (max 1 rows)
  | none => base

/-- `PgturbohybridGraphUseLatencyDenseBudget`. -/
def useLatencyDenseBudget : Bool :=
  let hasFilter := settings.hasPayloadFilter || settings.partialSelectivity
  match settings.denseBudgetPolicy with
  | .quality => false
  | .latency => !hasFilter
  | .balanced => !hasFilter
  | .auto => decide (1024 ≤ settings.dimensions) && !hasFilter

/-- The target cut to the budget of a scan that is to be fast. -/
def budgetTarget : Int :=
  let resultTarget := widenedTarget settings doubles
  if useLatencyDenseBudget settings then
    let adaptiveCap := toInt64 (doubles.budget (requestedBaseTarget settings))
    let maxCap :=
      wrap 64 (requestedBaseTarget settings * max settings.denseMaxCandidateMultiplier 1)
    let budgetCap := max settings.effectiveEf (min adaptiveCap maxCap)
    if 0 < budgetCap ∧ budgetCap < resultTarget then clampInt budgetCap else resultTarget
  else resultTarget

/-- `PgturbohybridGraphEffectiveSegmentBudgetMode`. -/
def effectiveSegmentBudget : SegmentBudget :=
  if settings.tqSegmentCount ≤ 1 then .off
  else
    match settings.nativeSegmentBudget with
    | .off => .off
    | .sqrt => .sqrt
    | .linear => .linear
    | .auto => if settings.linearProfile then .linear else .sqrt

/-- `PgturbohybridGraphScaleSearchEfForSegments`. -/
def scaleSearchEf (searchEf : Int) : Int :=
  if effectiveSegmentBudget settings = .off then searchEf
  else
    let scaledSearchEf :=
      toInt64 (doubles.segments (effectiveSegmentBudget settings) (max searchEf 1))
    wrap 32 (max (min (min scaledSearchEf settings.tqNodeCount) intMax) searchEf)

/-- **The limits of the first traversal.** -/
def initialTargets : Targets :=
  let resultTarget := min (max (budgetTarget settings doubles) 1) (wrap 32 settings.tqNodeCount)
  let searchEf := min (max settings.effectiveEf resultTarget) (wrap 32 settings.tqNodeCount)
  ⟨resultTarget, scaleSearchEf settings doubles searchEf⟩

/-! ### The widened limits -/

def scanCap : Int :=
  if 0 < settings.maxScanTuples then settings.maxScanTuples else settings.tqNodeCount

def adaptiveWideTarget (targets : Targets) : Int :=
  let adaptiveMax := max (toInt64 (doubles.adaptiveMax targets.resultTarget))
    (targets.resultTarget + 1)
  let adaptiveTarget := min (toInt64 (doubles.adaptive targets.resultTarget)) adaptiveMax
  let adaptiveTarget := min (min adaptiveTarget (scanCap settings)) settings.tqNodeCount
  clampInt (max adaptiveTarget (targets.resultTarget + 1))

/-- The limits after a traversal whose results call for a wider one. -/
def adaptiveWiden (targets : Targets) : Targets :=
  let wideTarget := adaptiveWideTarget settings doubles targets
  if targets.resultTarget < wideTarget then
    ⟨wideTarget, min (max (wrap 32 (targets.searchEf + 1)) wideTarget)
      (wrap 32 settings.tqNodeCount)⟩
  else targets

/-- The limits after a traversal that found few results, all near. -/
def tightL2 (targets : Targets) : Targets :=
  let fill := wrap 64 (wrap 64 (settings.effectiveEf * max settings.graphOversampling 1) * 8)
  let wideTarget := wrap 32 (min settings.tqNodeCount (max targets.resultTarget fill))
  if targets.resultTarget < wideTarget then
    ⟨wideTarget, min (max settings.effectiveEf wideTarget) (wrap 32 settings.tqNodeCount)⟩
  else targets

/-- `PgturbohybridGraphApplyUncertaintyRetry`, where a retry is due. -/
def uncertaintyRetry (targets : Targets) : Targets :=
  let targetCap := max (min settings.tqNodeCount (scanCap settings)) 1
  let wideTarget := min (min (toInt64 (doubles.retry targets.resultTarget)) targetCap) intMax
  let wideTarget := min (max wideTarget (targets.resultTarget + 1)) targetCap
  let wideEf := max (toInt64 (doubles.retry targets.searchEf)) wideTarget
  let wideEf := min (min wideEf targetCap) intMax
  if wideTarget ≤ targets.resultTarget ∧ wideEf ≤ targets.searchEf then targets
  else
    let resultTarget := wrap 32 (max wideTarget 1)
    ⟨resultTarget, wrap 32 (max wideEf resultTarget)⟩

def mayBeTight : Bool :=
  !useLatencyDenseBudget settings && decide (settings.graphRescoreBand = .auto) &&
    settings.scoreL2

def secondTargets : Targets :=
  let targets := initialTargets settings doubles
  if outcome.widens targets then adaptiveWiden settings doubles targets else targets

def thirdTargets : Targets :=
  let targets := secondTargets settings doubles outcome
  if mayBeTight settings && outcome.tight targets then tightL2 settings targets else targets

/-- **The limits of a scan's traversals**, in order. -/
def searchTargets : List Targets :=
  let targets := thirdTargets settings doubles outcome
  [initialTargets settings doubles, secondTargets settings doubles outcome, targets,
    if outcome.retries targets then uncertaintyRetry settings doubles targets else targets]

/-! ### Limits in order -/

/-- What is asked for: the limit of rows and the target of the caller. -/
def requestedCount : Int :=
  match settings.tupleTargetRows with
  | some rows => max rows settings.minResultTarget
  | none => if 0 < settings.minResultTarget then settings.minResultTarget else defaultFinalK

/-- Limits in order: as many results as are asked for or as there are nodes, not more than
candidates are kept, and not more candidates than there are nodes. -/
structure Targets.Sound (targets : Targets) : Prop where
  positive : 0 < targets.resultTarget
  requested : min (requestedCount settings) settings.tqNodeCount ≤ targets.resultTarget
  resultTarget_le : targets.resultTarget ≤ targets.searchEf
  searchEf_le : targets.searchEf ≤ settings.tqNodeCount

/-! ### The operations -/

def requestOperations : List (Nat × Int) :=
  match settings.tupleTargetRows with
  | some rows =>
    (64, max 1 rows * candidateOversampling settings) ::
      if settings.partialSelectivity then
        [(64, doubles.rowsOverSelectivity (max 1 rows)),
          (64, toInt64 (doubles.rowsOverSelectivity (max 1 rows)) *
            candidateOversampling settings)]
      else []
  | none => []

def l2Operations : List (Nat × Int) :=
  [(64, settings.effectiveEf * max settings.graphOversampling 1),
    (64, wrap 64 (settings.effectiveEf * max settings.graphOversampling 1) * 2),
    (64, settings.effectiveEf * 8)]

def budgetOperations : List (Nat × Int) :=
  if useLatencyDenseBudget settings then
    [(64, doubles.budget (requestedBaseTarget settings)),
      (64, requestedBaseTarget settings * max settings.denseMaxCandidateMultiplier 1)]
  else []

def segmentOperations : List (Nat × Int) :=
  if effectiveSegmentBudget settings = .off then []
  else
    [(64, doubles.segments (effectiveSegmentBudget settings)
      (max (min (max settings.effectiveEf (initialTargets settings doubles).resultTarget)
        (wrap 32 settings.tqNodeCount)) 1))]

/-- The exact values of the sums, products and conversions of the first limits, with the bits that
are there for them; what is cut to `INT_MAX` before its conversion is left out. -/
def initialOperations : List (Nat × Int) :=
  requestOperations settings doubles ++ l2Operations settings ++
    budgetOperations settings doubles ++ (32, settings.tqNodeCount) ::
    segmentOperations settings doubles

def widenOperations (targets : Targets) : List (Nat × Int) :=
  [(64, doubles.adaptive targets.resultTarget), (64, doubles.adaptiveMax targets.resultTarget),
    (64, targets.resultTarget + 1)] ++
    if targets.resultTarget < adaptiveWideTarget settings doubles targets then
      [(32, targets.searchEf + 1)]
    else []

def tightOperations (targets : Targets) : List (Nat × Int) :=
  let fill := wrap 64 (settings.effectiveEf * max settings.graphOversampling 1)
  [(64, settings.effectiveEf * max settings.graphOversampling 1), (64, fill * 8),
    (32, min settings.tqNodeCount (max targets.resultTarget (wrap 64 (fill * 8))))]

def retryOperations (targets : Targets) : List (Nat × Int) :=
  let retried := uncertaintyRetry settings doubles targets
  [(64, doubles.retry targets.resultTarget), (64, doubles.retry targets.searchEf),
    (64, targets.resultTarget + 1), (32, retried.resultTarget), (32, retried.searchEf)]

def searchOperations : List (Nat × Int) :=
  let first := initialTargets settings doubles
  let second := secondTargets settings doubles outcome
  let third := thirdTargets settings doubles outcome
  initialOperations settings doubles ++
    (if outcome.widens first then widenOperations settings doubles first else []) ++
    (if mayBeTight settings && outcome.tight second then tightOperations settings second else []) ++
    if outcome.retries third then retryOperations settings doubles third else []

/-- **When the limits are in order**: the node count is an `int`, the products of the rows, of the
rows over the selectivity and of the budget fit in 64 bits, and where the first traversal calls for
a wider one there is room for one more result and one more candidate. -/
structure InRange : Prop where
  nodeCount : settings.tqNodeCount ≤ intMax
  rows : ∀ rows ∈ settings.tupleTargetRows,
    max 1 rows * candidateOversampling settings ≤ int64Max
  filtered : settings.partialSelectivity = true → ∀ rows ∈ settings.tupleTargetRows,
    doubles.rowsOverSelectivity (max 1 rows) ≤ int64Max ∧
    doubles.rowsOverSelectivity (max 1 rows) * candidateOversampling settings ≤ int64Max
  budget : useLatencyDenseBudget settings = true →
    doubles.budget (requestedBaseTarget settings) ≤ int64Max ∧
    requestedBaseTarget settings * max settings.denseMaxCandidateMultiplier 1 ≤ int64Max
  widened : outcome.widens (initialTargets settings doubles) = true →
    (initialTargets settings doubles).resultTarget = intMax ∨
    (initialTargets settings doubles).resultTarget < settings.tqNodeCount ∧
      (initialTargets settings doubles).searchEf < intMax

section Machine

theorem fits64_iff {value : Int} :
    Fits 64 value ↔ -int64Max - 1 ≤ value ∧ value ≤ int64Max := by
  unfold Fits int64Max
  norm_num
  omega

theorem fits32_iff {value : Int} : Fits 32 value ↔ -intMax - 1 ≤ value ∧ value ≤ intMax := by
  unfold Fits intMax
  norm_num
  omega

theorem fits64_iff_le {value : Int} (low : 0 ≤ value) : Fits 64 value ↔ value ≤ int64Max := by
  rw [fits64_iff]
  exact ⟨fun both => both.2, fun high => ⟨by unfold int64Max; omega, high⟩⟩

theorem wrap64_eq {value : Int} (low : 0 ≤ value) (high : value ≤ int64Max) :
    wrap 64 value = value := by
  have inside := fits64_iff.mpr ⟨by unfold int64Max; omega, high⟩
  exact wrap_eq (by decide) inside.1 inside.2

theorem wrap32_eq {value : Int} (low : 0 ≤ value) (high : value ≤ intMax) :
    wrap 32 value = value := by
  have inside := fits32_iff.mpr ⟨by unfold intMax; omega, high⟩
  exact wrap_eq (by decide) inside.1 inside.2

theorem toInt64_eq {value : Int} (low : 0 ≤ value) (high : value ≤ int64Max) :
    toInt64 value = value :=
  if_pos ⟨by unfold int64Max; omega, high⟩

theorem clampInt_eq {value : Int} (low : 0 ≤ value) : clampInt value = min intMax value :=
  wrap32_eq (le_min (by decide) low) (min_le_left _ _)

end Machine

/-! ### The first limits -/

section First

variable {settings doubles}

theorem candidateOversampling_range :
    1 ≤ candidateOversampling settings ∧ candidateOversampling settings ≤ 1000 := by
  have range := settings.graphOversampling_range
  unfold candidateOversampling
  split_ifs <;> omega

theorem rowsTarget_range (rows : Int) :
    1 ≤ rowsTarget settings doubles rows ∧ rowsTarget settings doubles rows ≤ intMax := by
  have positive := settings.effectiveEf_range.1
  have large : 1 ≤ intMax := by decide
  unfold rowsTarget
  dsimp only
  rw [clampInt_eq (show 0 ≤ max _ settings.effectiveEf by omega)]
  split_ifs
  · rw [clampInt_eq (by omega)]
    omega
  · omega

theorem le_rowsTarget {rows : Int} (nonneg : 0 ≤ rows)
    (fits : max 1 rows * candidateOversampling settings ≤ int64Max) :
    min intMax rows ≤ rowsTarget settings doubles rows := by
  have positive := settings.effectiveEf_range.1
  have large : 1 ≤ intMax := by decide
  have product : max 1 rows ≤ max 1 rows * candidateOversampling settings :=
    le_mul_of_one_le_right (by omega) candidateOversampling_range.1
  unfold rowsTarget
  dsimp only
  rw [wrap64_eq (by omega) fits, clampInt_eq (show 0 ≤ max _ settings.effectiveEf by omega)]
  split_ifs
  · rw [clampInt_eq (by omega)]
    omega
  · omega

theorem limitTarget_range :
    1 ≤ limitTarget settings doubles ∧ limitTarget settings doubles ≤ intMax := by
  have most := settings.minResultTarget_range
  unfold limitTarget
  cases settings.tupleTargetRows with
  | some rows => exact rowsTarget_range rows
  | none =>
    dsimp only
    split_ifs
    · omega
    · decide

theorem requestTarget_range :
    1 ≤ requestTarget settings doubles ∧ requestTarget settings doubles ≤ intMax := by
  have limit := @limitTarget_range settings doubles
  unfold requestTarget
  split_ifs
  · rw [clampInt_eq (by omega)]
    omega
  · exact limit

theorem le_requestTarget (fits : ∀ rows ∈ settings.tupleTargetRows,
      max 1 rows * candidateOversampling settings ≤ int64Max) :
    min intMax (requestedCount settings) ≤ requestTarget settings doubles := by
  have range := @limitTarget_range settings doubles
  have least : min intMax (requestedCount settings) ≤ limitTarget settings doubles ∨
      0 < settings.minResultTarget ∧ min intMax (requestedCount settings) ≤
        max (limitTarget settings doubles) settings.minResultTarget := by
    unfold requestedCount limitTarget
    cases known : settings.tupleTargetRows with
    | none => exact Or.inl (min_le_right _ _)
    | some rows =>
      have nonneg := (settings.tupleTargetRows_range rows known).1
      have rows_le := @le_rowsTarget settings doubles rows nonneg (fits rows known)
      dsimp only
      omega
  unfold requestTarget
  split_ifs with asked
  · rw [clampInt_eq (by omega)]
    omega
  · exact least.resolve_right fun both => asked both.1

theorem widenedTarget_range :
    requestTarget settings doubles ≤ widenedTarget settings doubles ∧
      widenedTarget settings doubles ≤ intMax := by
  have request := @requestTarget_range settings doubles
  unfold widenedTarget
  dsimp only
  split_ifs
  · rw [clampInt_eq (show 0 ≤ max (requestTarget settings doubles) _ by omega),
      clampInt_eq (by omega)]
    omega
  · rw [clampInt_eq (by omega)]
    omega
  · rw [clampInt_eq (by omega)]
    omega
  · exact ⟨le_rfl, request.2⟩

theorem requestedCount_le : requestedCount settings ≤ requestedBaseTarget settings ∧
    1 ≤ requestedBaseTarget settings := by
  unfold requestedCount requestedBaseTarget
  cases settings.tupleTargetRows with
  | some rows =>
    dsimp only
    split_ifs <;> omega
  | none =>
    dsimp only
    split_ifs <;> omega

theorem le_budgetTarget
    (rows : ∀ rows ∈ settings.tupleTargetRows,
      max 1 rows * candidateOversampling settings ≤ int64Max)
    (budget : useLatencyDenseBudget settings = true →
      doubles.budget (requestedBaseTarget settings) ≤ int64Max ∧
      requestedBaseTarget settings * max settings.denseMaxCandidateMultiplier 1 ≤ int64Max) :
    min intMax (requestedCount settings) ≤ budgetTarget settings doubles ∧
      1 ≤ budgetTarget settings doubles ∧ budgetTarget settings doubles ≤ intMax := by
  have request := @requestTarget_range settings doubles
  have asked := @le_requestTarget settings doubles rows
  have widened := @widenedTarget_range settings doubles
  obtain ⟨count_le, positive⟩ := @requestedCount_le settings
  have ef := settings.effectiveEf_range.1
  have large : 1 ≤ intMax := by decide
  unfold budgetTarget
  dsimp only
  split_ifs with latency cut
  · obtain ⟨first, second⟩ := budget latency
    have adaptive := doubles.budget_le (requestedBaseTarget settings) (by omega)
    have product : requestedBaseTarget settings ≤
        requestedBaseTarget settings * max settings.denseMaxCandidateMultiplier 1 :=
      le_mul_of_one_le_right (by omega) (le_max_right _ _)
    rw [toInt64_eq (by omega) first, wrap64_eq (by omega) second] at cut ⊢
    rw [clampInt_eq (by omega)]
    omega
  · omega
  · omega

theorem scaleSearchEf_range (whole : settings.tqNodeCount ≤ intMax) {searchEf : Int}
    (positive : 1 ≤ searchEf) (within : searchEf ≤ settings.tqNodeCount) :
    searchEf ≤ scaleSearchEf settings doubles searchEf ∧
      scaleSearchEf settings doubles searchEf ≤ settings.tqNodeCount := by
  unfold scaleSearchEf
  split_ifs
  · exact ⟨le_rfl, within⟩
  · have multiplies := doubles.segments_multiplies (effectiveSegmentBudget settings)
      (max searchEf 1) (by omega) (by omega)
    dsimp only
    rw [toInt64_eq (by omega) multiplies.2, wrap32_eq (by omega) (by omega)]
    omega

/-- **The first limits are in order** where no product leaves its type. -/
theorem initialTargets_sound (whole : settings.tqNodeCount ≤ intMax)
    (rows : ∀ rows ∈ settings.tupleTargetRows,
      max 1 rows * candidateOversampling settings ≤ int64Max)
    (budget : useLatencyDenseBudget settings = true →
      doubles.budget (requestedBaseTarget settings) ≤ int64Max ∧
      requestedBaseTarget settings * max settings.denseMaxCandidateMultiplier 1 ≤ int64Max) :
    (initialTargets settings doubles).Sound settings := by
  have nodes := settings.nodeCount_range.1
  have ef := settings.effectiveEf_range.1
  obtain ⟨asked, positive, most⟩ := @le_budgetTarget settings doubles rows budget
  have same : wrap 32 settings.tqNodeCount = settings.tqNodeCount := wrap32_eq (by omega) whole
  have scaled := @scaleSearchEf_range settings doubles whole
    (min (max settings.effectiveEf
      (min (max (budgetTarget settings doubles) 1) settings.tqNodeCount)) settings.tqNodeCount)
    (by omega) (by omega)
  unfold initialTargets
  dsimp only
  rw [same]
  exact ⟨by dsimp only; omega, by dsimp only; omega, by dsimp only; omega, scaled.2⟩

end First

/-! ### Widening -/

section Widening

variable {settings doubles} {targets : Targets}

theorem adaptiveWideTarget_eq (whole : settings.tqNodeCount ≤ intMax)
    (sound : targets.Sound settings) :
    targets.resultTarget < adaptiveWideTarget settings doubles targets ∧
        adaptiveWideTarget settings doubles targets ≤
          min intMax (max settings.tqNodeCount (targets.resultTarget + 1)) ∨
      targets.resultTarget = intMax ∧ adaptiveWideTarget settings doubles targets = intMax := by
  obtain ⟨positive, _, result_le, searchEf_le⟩ := sound
  unfold adaptiveWideTarget
  dsimp only
  rw [clampInt_eq (by omega)]
  omega

/-- **Widening keeps the limits in order** exactly where there is room for one more result and one
more candidate, or where nothing is widened. -/
theorem adaptiveWiden_sound_iff (whole : settings.tqNodeCount ≤ intMax)
    (sound : targets.Sound settings) :
    ((adaptiveWiden settings doubles targets).Sound settings ∧
      ∀ operation ∈ widenOperations settings doubles targets, Fits operation.1 operation.2) ↔
    targets.resultTarget = intMax ∨
      targets.resultTarget < settings.tqNodeCount ∧ targets.searchEf < intMax := by
  have wide := @adaptiveWideTarget_eq settings doubles targets whole sound
  obtain ⟨positive, requested, result_le, searchEf_le⟩ := sound
  have same : wrap 32 settings.tqNodeCount = settings.tqNodeCount := wrap32_eq (by omega) whole
  have adaptive := doubles.adaptive_multiplies targets.resultTarget (by omega) (by omega)
  have adaptiveMax := doubles.adaptiveMax_multiplies targets.resultTarget (by omega) (by omega)
  have small : intMax < int64Max := by decide
  have always : ∀ operation ∈ [(64, doubles.adaptive targets.resultTarget),
      (64, doubles.adaptiveMax targets.resultTarget), (64, targets.resultTarget + 1)],
      Fits operation.1 operation.2 := by
    simp only [List.mem_cons, List.not_mem_nil, or_false, forall_eq_or_imp, forall_eq, fits64_iff]
    omega
  unfold adaptiveWiden widenOperations
  dsimp only
  rw [same]
  by_cases room : targets.resultTarget < adaptiveWideTarget settings doubles targets
  · rw [if_pos room, if_pos room]
    constructor
    · rintro ⟨⟨_, _, fits, within⟩, operations⟩
      dsimp only at fits within
      have next := fits32_iff.mp (operations (32, targets.searchEf + 1)
        (List.mem_append_right _ (List.mem_singleton_self _)))
      omega
    · rintro (full | ⟨free, candidate⟩)
      · omega
      · rw [wrap32_eq (by omega) (by omega)]
        refine ⟨⟨?_, ?_, ?_, min_le_right _ _⟩, fun operation member => ?_⟩
        · dsimp only
          omega
        · dsimp only
          omega
        · dsimp only
          omega
        · rcases List.mem_append.mp member with first | last
          · exact always operation first
          · rw [List.mem_singleton.mp last, fits32_iff]
            omega
  · rw [if_neg room, if_neg room, List.append_nil]
    have full : targets.resultTarget = intMax := by omega
    exact ⟨fun _ => Or.inl full,
      fun _ => ⟨⟨positive, requested, result_le, searchEf_le⟩, always⟩⟩

/-- **The widening for L2 distances keeps the limits in order.** -/
theorem tightL2_sound (whole : settings.tqNodeCount ≤ intMax) (sound : targets.Sound settings) :
    (tightL2 settings targets).Sound settings ∧
      ∀ operation ∈ tightOperations settings targets, Fits operation.1 operation.2 := by
  have ef := settings.effectiveEf_range
  have oversampling := settings.graphOversampling_range
  obtain ⟨positive, requested, result_le, searchEf_le⟩ := sound
  have same : wrap 32 settings.tqNodeCount = settings.tqNodeCount := wrap32_eq (by omega) whole
  have low : 0 ≤ settings.effectiveEf * max settings.graphOversampling 1 :=
    mul_nonneg (by omega) (by omega)
  have high : settings.effectiveEf * max settings.graphOversampling 1 ≤ 1000 * 1000 :=
    mul_le_mul ef.2 (by omega) (by omega) (by omega)
  have large : 8000000 ≤ int64Max := by decide
  have fill : wrap 64 (settings.effectiveEf * max settings.graphOversampling 1) =
      settings.effectiveEf * max settings.graphOversampling 1 := wrap64_eq low (by omega)
  have filled : wrap 64 (settings.effectiveEf * max settings.graphOversampling 1 * 8) =
      settings.effectiveEf * max settings.graphOversampling 1 * 8 :=
    wrap64_eq (by omega) (by omega)
  constructor
  · unfold tightL2
    dsimp only
    rw [fill, filled, same, wrap32_eq (by omega) (by omega)]
    split_ifs
    · exact ⟨by dsimp only; omega, by dsimp only; omega, by dsimp only; omega, min_le_right _ _⟩
    · exact ⟨positive, requested, result_le, searchEf_le⟩
  · unfold tightOperations
    simp only [List.mem_cons, List.not_mem_nil, or_false, forall_eq_or_imp, forall_eq, fits64_iff,
      fits32_iff, fill, filled]
    omega

/-- **A retry keeps the limits in order.** -/
theorem uncertaintyRetry_sound (whole : settings.tqNodeCount ≤ intMax)
    (sound : targets.Sound settings) :
    (uncertaintyRetry settings doubles targets).Sound settings ∧
      ∀ operation ∈ retryOperations settings doubles targets, Fits operation.1 operation.2 := by
  obtain ⟨positive, requested, result_le, searchEf_le⟩ := sound
  have result := doubles.retry_multiplies targets.resultTarget (by omega) (by omega)
  have candidates := doubles.retry_multiplies targets.searchEf (by omega) (by omega)
  have small : intMax < int64Max := by decide
  have kept : (uncertaintyRetry settings doubles targets).Sound settings := by
    unfold uncertaintyRetry
    dsimp only
    rw [toInt64_eq (by omega) result.2, toInt64_eq (by omega) candidates.2]
    split_ifs with idle
    · exact ⟨positive, requested, result_le, searchEf_le⟩
    · rw [wrap32_eq (show 0 ≤ max _ (1 : Int) by omega) (by omega),
        wrap32_eq (by omega) (by omega)]
      exact ⟨by dsimp only; omega, by dsimp only; omega, by dsimp only; omega,
        by dsimp only; omega⟩
  refine ⟨kept, ?_⟩
  obtain ⟨next, _, next_le, next_within⟩ := kept
  unfold retryOperations
  dsimp only
  simp only [List.mem_cons, List.not_mem_nil, or_false, forall_eq_or_imp, forall_eq, fits64_iff,
    fits32_iff]
  omega

end Widening

/-! ### A whole scan -/

section Scan

variable {settings doubles outcome}

theorem requestOperations_iff :
    (∀ operation ∈ requestOperations settings doubles, Fits operation.1 operation.2) ↔
    ∀ rows ∈ settings.tupleTargetRows,
      max 1 rows * candidateOversampling settings ≤ int64Max ∧
      (settings.partialSelectivity = true →
        doubles.rowsOverSelectivity (max 1 rows) ≤ int64Max ∧
        doubles.rowsOverSelectivity (max 1 rows) * candidateOversampling settings ≤
          int64Max) := by
  have oversampling := @candidateOversampling_range settings
  unfold requestOperations
  cases settings.tupleTargetRows with
  | none => exact ⟨fun _ _ wrong => (Option.not_mem_none _ wrong).elim,
      fun _ _ wrong => absurd wrong List.not_mem_nil⟩
  | some rows =>
    have low : 0 ≤ max 1 rows * candidateOversampling settings :=
      mul_nonneg (by omega) (by omega)
    have quotient := doubles.rowsOverSelectivity_nonneg (max 1 rows) (by omega)
    have product : 0 ≤ doubles.rowsOverSelectivity (max 1 rows) * candidateOversampling settings :=
      mul_nonneg quotient (by omega)
    have members : ∀ known, known ∈ some rows ↔ known = rows := fun known => by
      rw [Option.mem_some_iff, eq_comm]
    simp only [members, forall_eq, List.forall_mem_cons, fits64_iff_le low]
    refine and_congr_right fun _ => ?_
    split_ifs with selective
    · simp only [List.forall_mem_cons, List.not_mem_nil, false_imp_iff, implies_true, and_true,
        fits64_iff_le quotient, selective, true_imp_iff]
      refine and_congr_right fun fits => ?_
      rw [toInt64_eq quotient fits, fits64_iff_le product]
    · exact ⟨fun _ wrong => absurd wrong selective, fun _ _ wrong => absurd wrong List.not_mem_nil⟩

theorem l2Operations_fit :
    ∀ operation ∈ l2Operations settings, Fits operation.1 operation.2 := by
  have ef := settings.effectiveEf_range
  have oversampling := settings.graphOversampling_range
  have low : 0 ≤ settings.effectiveEf * max settings.graphOversampling 1 :=
    mul_nonneg (by omega) (by omega)
  have high : settings.effectiveEf * max settings.graphOversampling 1 ≤ 1000 * 1000 :=
    mul_le_mul ef.2 (by omega) (by omega) (by omega)
  have large : 8000000 ≤ int64Max := by decide
  unfold l2Operations
  rw [wrap64_eq low (by omega)]
  simp only [List.mem_cons, List.not_mem_nil, or_false, forall_eq_or_imp, forall_eq, fits64_iff]
  omega

theorem budgetOperations_iff :
    (∀ operation ∈ budgetOperations settings doubles, Fits operation.1 operation.2) ↔
    (useLatencyDenseBudget settings = true →
      doubles.budget (requestedBaseTarget settings) ≤ int64Max ∧
      requestedBaseTarget settings * max settings.denseMaxCandidateMultiplier 1 ≤ int64Max) := by
  have positive := (@requestedCount_le settings).2
  have budget := doubles.budget_le (requestedBaseTarget settings) (by omega)
  have product : 0 ≤ requestedBaseTarget settings * max settings.denseMaxCandidateMultiplier 1 :=
    mul_nonneg (by omega) (by omega)
  unfold budgetOperations
  split_ifs with latency
  · simp only [List.forall_mem_cons, List.not_mem_nil, false_imp_iff, implies_true, and_true,
      fits64_iff_le product, fits64_iff_le (le_trans (by omega) budget), latency, true_imp_iff]
  · exact ⟨fun _ wrong => absurd wrong latency, fun _ _ wrong => absurd wrong List.not_mem_nil⟩

theorem segmentOperations_fit (whole : settings.tqNodeCount ≤ intMax) :
    ∀ operation ∈ segmentOperations settings doubles, Fits operation.1 operation.2 := by
  have nodes := settings.nodeCount_range.1
  have same : wrap 32 settings.tqNodeCount = settings.tqNodeCount := wrap32_eq (by omega) whole
  unfold segmentOperations
  split_ifs
  · exact fun _ wrong => absurd wrong List.not_mem_nil
  · have multiplies := doubles.segments_multiplies (effectiveSegmentBudget settings)
      (max (min (max settings.effectiveEf (initialTargets settings doubles).resultTarget)
        settings.tqNodeCount) 1) (by omega) (by omega)
    rw [same, List.forall_mem_singleton, fits64_iff_le (by omega)]
    exact multiplies.2

/-- **Exactly when a scan keeps its limits in order**: in every traversal the result target lies
between the request and the number of candidates, these are at most the nodes, and no operation
leaves its type. -/
theorem searchTargets_sound_iff (settings : SearchSettings) (doubles : Doubles)
    (outcome : Outcome) :
    ((∀ targets ∈ searchTargets settings doubles outcome, targets.Sound settings) ∧
      ∀ operation ∈ searchOperations settings doubles outcome, Fits operation.1 operation.2) ↔
    InRange settings doubles outcome := by
  unfold searchOperations
  dsimp only
  rw [List.forall_mem_append, List.forall_mem_append, List.forall_mem_append]
  have initial : (∀ operation ∈ initialOperations settings doubles,
      Fits operation.1 operation.2) ↔
      (∀ operation ∈ requestOperations settings doubles, Fits operation.1 operation.2) ∧
      (∀ operation ∈ budgetOperations settings doubles, Fits operation.1 operation.2) ∧
      settings.tqNodeCount ≤ intMax := by
    unfold initialOperations
    rw [List.forall_mem_append, List.forall_mem_append, List.forall_mem_append,
      List.forall_mem_cons, fits32_iff]
    have nodes := settings.nodeCount_range.1
    constructor
    · rintro ⟨⟨⟨request, _⟩, budget⟩, whole, _⟩
      exact ⟨request, budget, whole.2⟩
    · rintro ⟨request, budget, whole⟩
      exact ⟨⟨⟨request, l2Operations_fit⟩, budget⟩, ⟨by unfold intMax; omega, whole⟩,
        segmentOperations_fit whole⟩
  rw [initial, requestOperations_iff, budgetOperations_iff]
  constructor
  · rintro ⟨sound, ⟨⟨⟨request, budget, whole⟩, widen⟩, _⟩, _⟩
    refine ⟨whole, fun rows given => (request rows given).1,
      fun selective rows given => (request rows given).2 selective, budget, fun widens => ?_⟩
    have first := sound (initialTargets settings doubles) List.mem_cons_self
    have second := sound (secondTargets settings doubles outcome)
      (List.mem_cons_of_mem _ List.mem_cons_self)
    rw [if_pos widens] at widen
    unfold secondTargets at second
    dsimp only at second
    rw [if_pos widens] at second
    exact (adaptiveWiden_sound_iff whole first).mp ⟨second, widen⟩
  · rintro ⟨whole, rows, filtered, budget, widened⟩
    have first := initialTargets_sound whole rows budget
    have second : (secondTargets settings doubles outcome).Sound settings ∧
        ∀ operation ∈ (if outcome.widens (initialTargets settings doubles) = true then
          widenOperations settings doubles (initialTargets settings doubles) else []),
          Fits operation.1 operation.2 := by
      unfold secondTargets
      dsimp only
      split_ifs with widens
      · exact (adaptiveWiden_sound_iff whole first).mpr (widened widens)
      · exact ⟨first, fun _ wrong => absurd wrong List.not_mem_nil⟩
    have third : (thirdTargets settings doubles outcome).Sound settings ∧
        ∀ operation ∈ (if (mayBeTight settings &&
            outcome.tight (secondTargets settings doubles outcome)) = true then
          tightOperations settings (secondTargets settings doubles outcome) else []),
          Fits operation.1 operation.2 := by
      unfold thirdTargets
      dsimp only
      split_ifs
      · exact tightL2_sound whole second.1
      · exact ⟨second.1, fun _ wrong => absurd wrong List.not_mem_nil⟩
    have fourth : (if outcome.retries (thirdTargets settings doubles outcome) = true then
          uncertaintyRetry settings doubles (thirdTargets settings doubles outcome)
        else thirdTargets settings doubles outcome).Sound settings ∧
        ∀ operation ∈ (if outcome.retries (thirdTargets settings doubles outcome) = true then
          retryOperations settings doubles (thirdTargets settings doubles outcome) else []),
          Fits operation.1 operation.2 := by
      split_ifs
      · exact uncertaintyRetry_sound whole third.1
      · exact ⟨third.1, fun _ wrong => absurd wrong List.not_mem_nil⟩
    refine ⟨fun targets member => ?_, ⟨⟨⟨fun rows_ given => ⟨rows rows_ given, fun selective =>
      filtered selective rows_ given⟩, budget, whole⟩, second.2⟩, third.2⟩, fourth.2⟩
    unfold searchTargets at member
    dsimp only at member
    rw [List.mem_cons, List.mem_cons, List.mem_cons, List.mem_singleton] at member
    rcases member with rfl | rfl | rfl | rfl
    · exact first
    · exact second.1
    · exact third.1
    · exact fourth.1

end Scan

/-! ### A limit that is too large -/

theorem multiplies_double : Multiplies fun count => 2 * count := by
  intro count nonneg within
  unfold intMax at within
  unfold int64Max
  dsimp only
  omega

theorem twice_nonneg (count : Int) (nonneg : 0 ≤ count) : 0 ≤ 2 * count := by omega

theorem le_twice (count : Int) (nonneg : 0 ≤ count) : count ≤ 2 * count := by omega

def doubling : Doubles :=
  { rowsOverSelectivity := fun count => 2 * count
    budget := fun count => 2 * count
    segments := fun _ count => 2 * count
    adaptive := fun count => 2 * count
    adaptiveMax := fun count => 2 * count
    retry := fun count => 2 * count
    rowsOverSelectivity_nonneg := twice_nonneg
    budget_le := le_twice
    segments_multiplies := fun _ => multiplies_double
    adaptive_multiplies := multiplies_double
    adaptiveMax_multiplies := multiplies_double
    retry_multiplies := multiplies_double }

theorem hugeLimit_range :
    ∀ rows ∈ some (4611686018427387904 : Int), 0 ≤ rows ∧ rows ≤ int64Max := by
  intro rows known
  rw [← Option.mem_some_iff.mp known]
  decide

/-- A scan over 1000 nodes with the default options whose `LIMIT` is `2 ^ 62`. -/
def hugeLimit : SearchSettings :=
  { tqNodeCount := 1000, dimensions := 128, bits := 4, scoreL2 := false, tqSegmentCount := 1
    effectiveEf := 64, graphOversampling := 4, graphRescoreBand := .auto, minResultTarget := 0
    tupleTargetRows := some 4611686018427387904, hasPayloadFilter := false
    partialSelectivity := false, denseBudgetPolicy := .auto, denseMaxCandidateMultiplier := 4
    maxScanTuples := 20000, nativeSegmentBudget := .auto, linearProfile := false
    nodeCount_range := by decide
    effectiveEf_range := by decide
    graphOversampling_range := by decide
    minResultTarget_range := by decide
    tupleTargetRows_range := hugeLimit_range }

theorem manyNodes_range : ∀ rows ∈ some (10 : Int), 0 ≤ rows ∧ rows ≤ int64Max := by
  intro rows known
  rw [← Option.mem_some_iff.mp known]
  decide

/-- The same with `LIMIT 10` over `2 ^ 31` nodes. -/
def manyNodes : SearchSettings :=
  { hugeLimit with
    tqNodeCount := 2147483648
    tupleTargetRows := some 10
    nodeCount_range := by decide
    tupleTargetRows_range := manyNodes_range }

/-- **A scan that is asked for all nodes looks for 64 of them**, since four times its limit is zero,
and one over too many nodes for an `int` has negative limits. -/
theorem initialTargets_tooFew :
    initialTargets hugeLimit doubling = ⟨64, 64⟩ ∧
      ¬(initialTargets hugeLimit doubling).Sound hugeLimit ∧
      initialTargets manyNodes doubling = ⟨-2147483648, -2147483648⟩ ∧
      ¬(initialTargets manyNodes doubling).Sound manyNodes := by
  have limits : initialTargets hugeLimit doubling = ⟨64, 64⟩ := by decide
  have negative : initialTargets manyNodes doubling = ⟨-2147483648, -2147483648⟩ := by decide
  refine ⟨limits, fun sound => ?_, negative, fun sound => ?_⟩
  · have asked := sound.requested
    rw [limits] at asked
    exact absurd asked (by decide)
  · have positive := sound.positive
    rw [negative] at positive
    exact absurd positive (by decide)

end TurboHybrid.Graph.Dense
