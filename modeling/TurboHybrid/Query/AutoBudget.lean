/-
**The automatic budget of a query's branches.**

A branch whose candidate count is a default is cut to a multiple of the first constant LIMIT that a
walk of the plan finds, at least a minimum and at most a cap. The walk looks at no OFFSET and takes
the LIMIT of any node it comes to, while the executor asks a scan for the count and the offset of the
limits above it, and for all tuples below a node that reads its input to the end.

* `demands`: how many tuples the executor may ask each scan of a plan for;
* `effectiveQuery_keepsDemand_iff`: no branch is cut below what is asked exactly where the budget of
  the first LIMIT covers the request or the demand;
* `effectiveQuery_offset`: a LIMIT with an OFFSET for which it does not.
-/
import Mathlib.Algebra.Order.Group.Int
import Mathlib.Data.List.Dedup
import Mathlib.Data.List.Perm.Subperm
import Mathlib.Order.WithBot
import Mathlib.Algebra.Order.Monoid.WithTop
import Mathlib.Tactic.Common
import Mathlib.Tactic.Push

namespace TurboHybrid.Budget

/-! ### Plans -/

inductive ConstType where
  | int2
  | int4
  | int8
  | other
  deriving DecidableEq

/-- The count or the offset of a limit node; `computed` is an expression with its value in the run. -/
inductive LimitExpr where
  | absent
  | nullConst
  | const (consttype : ConstType) (constvalue : Int)
  | computed (value : Option Int)

/-- A plan: the walk follows left and right trees, but neither the list of an append, whose plans are
nested pairs here, nor the plan of a subquery scan. A node passes rows on one by one (results and
gathers without a condition), or it may read its input to the end. -/
inductive Plan where
  | null
  | indexScan (noQual : Bool)
  | limit (limitCount limitOffset : LimitExpr) (lefttree : Plan)
  | passThrough (lefttree : Plan)
  | append (first rest : Plan)
  | subqueryScan (noQual : Bool) (subplan : Plan)
  | other (lefttree righttree : Plan)

def intMax : Int := 2147483647

def constLimitValue : LimitExpr → Int
  | .const .other _ => 0
  | .const _ value => if value ≤ 0 then 0 else if intMax < value then intMax else value
  | _ => 0

def findLimitInPlan : Plan → Int
  | .null => 0
  | .indexScan _ => 0
  | .limit limitCount _ lefttree =>
    let limit := constLimitValue limitCount
    if 0 < limit then limit else findLimitInPlan lefttree
  | .passThrough lefttree => findLimitInPlan lefttree
  | .append _ _ => 0
  | .subqueryScan _ _ => 0
  | .other lefttree righttree =>
    let limit := findLimitInPlan lefttree
    if 0 < limit then limit else findLimitInPlan righttree

/-- The limit of the current statement, where there is one. -/
def currentLimit : Option Plan → Int
  | none => 0
  | some plan => findLimitInPlan plan

/-! ### What the executor asks for -/

/-- The rows that a limit lets through; none is no limit. -/
def LimitExpr.count : LimitExpr → WithTop Nat
  | .absent | .nullConst | .computed none => ⊤
  | .const _ value | .computed (some value) => (value.toNat : Nat)

def LimitExpr.offset : LimitExpr → Nat
  | .absent | .nullConst | .computed none => 0
  | .const _ value | .computed (some value) => value.toNat

/-- How many tuples each scan of a plan may be asked for, where the plan is asked for `asked`. -/
def demands : Plan → WithTop Nat → List (WithTop Nat)
  | .null, _ => []
  | .indexScan noQual, asked => [if noQual then asked else ⊤]
  | .limit limitCount limitOffset lefttree, asked =>
    demands lefttree (min limitCount.count asked + limitOffset.offset)
  | .passThrough lefttree, asked => demands lefttree asked
  | .append first rest, asked => demands first asked ++ demands rest asked
  | .subqueryScan noQual subplan, asked => demands subplan (if noQual then asked else ⊤)
  | .other lefttree righttree, _ => demands lefttree ⊤ ++ demands righttree ⊤

/-! ### The budget -/

def autoBudget : Bool := true
def autoBudgetMinDenseK : Int := 32
def autoBudgetMinBm25K : Int := 32
def autoBudgetLimitMultiplier : Int := 8
def autoBudgetQualityCap : Int := 400

def applyAutoBudget (requested limit minBudget : Int) (defaulted branchPresent : Bool) : Int :=
  if !autoBudget || !defaulted || !branchPresent || decide (requested ≤ 0) || decide (limit ≤ 0) then
    requested
  else
    let target :=
      if intMax / autoBudgetLimitMultiplier < limit then intMax
      else limit * autoBudgetLimitMultiplier
    let target := max target minBudget
    let target := if 0 < autoBudgetQualityCap then min target autoBudgetQualityCap else target
    min requested target

/-- The candidate counts of a query, which of them are defaults and which branches it has. -/
structure QueryHeader where
  denseK : Int
  multivectorK : Int
  bm25K : Int
  denseKDefaulted : Bool
  bm25KDefaulted : Bool
  hasVector : Bool
  hasMultiVector : Bool
  hasTsQuery : Bool

def effectiveQuery (query : QueryHeader) (limit : Int) : QueryHeader :=
  { query with
    denseK := applyAutoBudget query.denseK limit autoBudgetMinDenseK query.denseKDefaulted
      query.hasVector
    multivectorK := applyAutoBudget query.multivectorK limit autoBudgetMinDenseK
      query.denseKDefaulted query.hasMultiVector
    bm25K := applyAutoBudget query.bm25K limit autoBudgetMinBm25K query.bm25KDefaulted
      query.hasTsQuery }

/-- The documents that the branches find, best first, each once. -/
structure Candidates where
  dense : List Nat
  multivector : List Nat
  lexical : List Nat
  distinct : dense.Nodup ∧ multivector.Nodup ∧ lexical.Nodup

/-- The documents a scan returns: those of its branches up to their candidate counts. -/
def scanDocuments (candidates : Candidates) (query : QueryHeader) : List Nat :=
  (candidates.dense.take query.denseK.toNat ++
    (candidates.multivector.take query.multivectorK.toNat ++
      candidates.lexical.take query.bm25K.toNat)).dedup

/-- **The budget keeps what is asked for**: no branch falls below the smaller of its request and the
demand on the scan, and a scan still returns what is asked for where it would without the budget. -/
structure KeepsDemand (plan : Plan) (query : QueryHeader) : Prop where
  counts : ∀ demand ∈ demands plan ⊤, ∀ asked : Nat, (asked : WithTop Nat) ≤ demand →
    let effective := effectiveQuery query (currentLimit (some plan))
    min query.denseK asked ≤ effective.denseK ∧
      min query.multivectorK asked ≤ effective.multivectorK ∧
        min query.bm25K asked ≤ effective.bm25K
  documents : ∀ demand ∈ demands plan ⊤, ∀ asked : Nat, (asked : WithTop Nat) ≤ demand →
    ∀ candidates, asked ≤ (scanDocuments candidates query).length →
      asked ≤ (scanDocuments candidates
        (effectiveQuery query (currentLimit (some plan)))).length

/-! ### When it does -/

/-- The positive integer constants among the limits that the walk comes to, in its order. -/
def limitConstants : Plan → List Nat
  | .null => []
  | .indexScan _ => []
  | .limit (.const .other _) _ lefttree => limitConstants lefttree
  | .limit (.const _ value) _ lefttree =>
    (if 0 < value then [value.toNat] else []) ++ limitConstants lefttree
  | .limit _ _ lefttree => limitConstants lefttree
  | .passThrough lefttree => limitConstants lefttree
  | .append _ _ => []
  | .subqueryScan _ _ => []
  | .other lefttree righttree => limitConstants lefttree ++ limitConstants righttree

/-- Eight times a limit, at least 32 and at most 400. -/
def covered (limit : Nat) : Nat := min (max (8 * limit) 32) 400

/-- A branch whose count is not a default or that is absent, or a count or a demand that is
covered. -/
def BranchCovered (limit : Nat) (demand : WithTop Nat) (requested : Int)
    (defaulted branchPresent : Bool) : Prop :=
  defaulted = false ∨ branchPresent = false ∨ requested ≤ covered limit ∨
    demand ≤ (covered limit : Nat)

/-- The first constant limit covers every branch at every scan. -/
def LimitCovers (plan : Plan) (query : QueryHeader) : Prop :=
  ∀ limit, (limitConstants plan).head? = some limit → ∀ demand ∈ demands plan ⊤,
    BranchCovered limit demand query.denseK query.denseKDefaulted query.hasVector ∧
      BranchCovered limit demand query.multivectorK query.denseKDefaulted query.hasMultiVector ∧
        BranchCovered limit demand query.bm25K query.bm25KDefaulted query.hasTsQuery

/-! ### The walk finds the first constant limit -/

section Walk

theorem limitConstants_positive (plan : Plan) : ∀ limit ∈ limitConstants plan, 0 < limit := by
  induction plan with
  | null => exact fun limit member => absurd member List.not_mem_nil
  | indexScan noQual => exact fun limit member => absurd member List.not_mem_nil
  | append first rest => exact fun limit member => absurd member List.not_mem_nil
  | subqueryScan noQual subplan => exact fun limit member => absurd member List.not_mem_nil
  | passThrough lefttree ih => exact ih
  | other lefttree righttree left right =>
    intro limit member
    rcases List.mem_append.mp member with early | late
    · exact left limit early
    · exact right limit late
  | limit limitCount limitOffset lefttree ih =>
    have constant (value : Int) (limit : Nat)
        (member : limit ∈ (if 0 < value then [value.toNat] else []) ++ limitConstants lefttree) :
        0 < limit := by
      rcases List.mem_append.mp member with here | below
      · split_ifs at here with positive
        · rw [List.mem_singleton.mp here]
          omega
        · exact absurd here List.not_mem_nil
      · exact ih limit below
    cases limitCount with
    | const consttype value => cases consttype <;> first | exact constant value | exact ih
    | absent => exact ih
    | nullConst => exact ih
    | computed value => exact ih

/-- What the walk returns for the constants it comes to. -/
def walkedLimit : List Nat → Int
  | [] => 0
  | limit :: _ => min (limit : Int) intMax

theorem walkedLimit_append {first second : List Nat} (positive : ∀ limit ∈ first, 0 < limit) :
    walkedLimit (first ++ second) =
      if 0 < walkedLimit first then walkedLimit first else walkedLimit second := by
  cases first with
  | nil => rfl
  | cons limit rest =>
    have above := positive limit List.mem_cons_self
    have found : 0 < min (limit : Int) intMax := by
      unfold intMax
      omega
    exact (if_pos found).symm

theorem findLimitInPlan_eq (plan : Plan) :
    findLimitInPlan plan = walkedLimit (limitConstants plan) := by
  induction plan with
  | null => rfl
  | indexScan noQual => rfl
  | append first rest => rfl
  | subqueryScan noQual subplan => rfl
  | passThrough lefttree ih => exact ih
  | other lefttree righttree left right =>
    rw [limitConstants, walkedLimit_append (limitConstants_positive lefttree), ← left, ← right]
    rfl
  | limit limitCount limitOffset lefttree ih =>
    have constant (value : Int) :
        (let limit := if value ≤ 0 then 0 else if intMax < value then intMax else value
          if 0 < limit then limit else findLimitInPlan lefttree) =
          walkedLimit ((if 0 < value then [value.toNat] else []) ++ limitConstants lefttree) := by
      rw [ih]
      by_cases positive : 0 < value
      · rw [if_pos positive]
        show _ = min (value.toNat : Int) intMax
        unfold intMax
        dsimp only
        split_ifs <;> omega
      · rw [if_neg positive, if_pos (not_lt.mp positive)]
        exact if_neg (lt_irrefl 0)
    have skipped : (if 0 < (0 : Int) then 0 else findLimitInPlan lefttree) =
        walkedLimit (limitConstants lefttree) := by
      rw [if_neg (lt_irrefl 0)]
      exact ih
    cases limitCount with
    | const consttype value => cases consttype <;> first | exact constant value | exact skipped
    | absent => exact skipped
    | nullConst => exact skipped
    | computed value => exact skipped

end Walk

/-! ### The budget of a branch -/

section Branch

variable {requested : Int} {defaulted branchPresent : Bool}

theorem applyAutoBudget_noLimit (requested minBudget : Int) (defaulted branchPresent : Bool) :
    applyAutoBudget requested 0 minBudget defaulted branchPresent = requested := by
  unfold applyAutoBudget
  simp

theorem applyAutoBudget_eq {limit : Nat} (positive : 0 < limit) (requested : Int)
    (defaulted branchPresent : Bool) :
    applyAutoBudget requested (min (limit : Int) intMax) 32 defaulted branchPresent =
      if defaulted = true ∧ branchPresent = true ∧ 0 < requested then min requested (covered limit)
      else requested := by
  have found : ¬ min (limit : Int) intMax ≤ 0 := by
    unfold intMax
    omega
  unfold applyAutoBudget
  by_cases applies : defaulted = true ∧ branchPresent = true ∧ 0 < requested
  · obtain ⟨rfl, rfl, some'⟩ := applies
    have cut : (if true = true ∧ true = true ∧ 0 < requested then
        min requested (covered limit : Int) else requested) = min requested (covered limit) :=
      if_pos ⟨rfl, rfl, some'⟩
    rw [cut, if_neg (by simp [autoBudget, found, some'])]
    unfold covered intMax autoBudgetLimitMultiplier autoBudgetQualityCap
    dsimp only
    split_ifs <;> omega
  · rw [if_neg applies, if_pos]
    simp only [autoBudget, Bool.or_eq_true, decide_eq_true_eq, Bool.not_eq_true',
      Bool.not_true, Bool.false_eq_true, false_or]
    by_contra other
    push Not at other
    obtain ⟨⟨given, present⟩, some'⟩ := other.1
    exact applies ⟨by simpa using given, by simpa using present, some'⟩

theorem applyAutoBudget_le {limit : Nat} (positive : 0 < limit) (requested : Int)
    (defaulted branchPresent : Bool) :
    applyAutoBudget requested (min (limit : Int) intMax) 32 defaulted branchPresent ≤ requested := by
  rw [applyAutoBudget_eq positive]
  split_ifs
  · exact min_le_left _ _
  · exact le_rfl

/-- **One branch** keeps what is asked for exactly where it is covered. -/
theorem branchCovered_iff {limit : Nat} (positive : 0 < limit) (demand : WithTop Nat)
    (requested : Int) (defaulted branchPresent : Bool) :
    (∀ asked : Nat, (asked : WithTop Nat) ≤ demand → min requested asked ≤
        applyAutoBudget requested (min (limit : Int) intMax) 32 defaulted branchPresent) ↔
      BranchCovered limit demand requested defaulted branchPresent := by
  rw [applyAutoBudget_eq positive]
  unfold BranchCovered
  constructor
  · intro keeps
    by_contra uncovered
    push Not at uncovered
    obtain ⟨given, present, greater, more⟩ := uncovered
    have next : ((covered limit + 1 : Nat) : WithTop Nat) ≤ demand := by
      cases demand with
      | top => exact le_top
      | coe demand => exact WithTop.coe_le_coe.mpr (WithTop.coe_lt_coe.mp more)
    have cut := keeps (covered limit + 1) next
    rw [if_pos ⟨by simpa using given, by simpa using present, by omega⟩] at cut
    omega
  · intro holds asked below
    split_ifs with applies
    · rcases holds with absent | absent | small | small
      · rw [absent] at applies
        cases applies.1
      · rw [absent] at applies
        cases applies.2.1
      · rw [min_eq_left small]
        exact min_le_left _ _
      · have bound : asked ≤ covered limit := WithTop.coe_le_coe.mp (below.trans small)
        omega
    · exact min_le_left _ _

end Branch

/-! ### The documents of a scan -/

section Documents

variable {asked : Nat} {requested effective : Int} {found documents : List Nat}

theorem branch_kept (keeps : min requested asked ≤ effective) (cut : effective ≤ requested)
    (found : List Nat) : found.take effective.toNat = found.take requested.toNat ∨
      asked ≤ (found.take effective.toNat).length := by
  rw [List.length_take]
  rcases lt_or_ge effective asked with few | enough
  · have same : effective = requested := by omega
    exact .inl (by rw [same])
  · rcases Nat.lt_or_ge found.length asked with short | long
    · rw [List.take_of_length_le (by omega), List.take_of_length_le (by omega)]
      exact .inl rfl
    · exact .inr (by omega)

theorem length_le_dedup (distinct : found.Nodup) (inside : found ⊆ documents) :
    found.length ≤ documents.dedup.length :=
  (distinct.subperm fun _ member => List.mem_dedup.mpr (inside member)).length_le

theorem scanDocuments_kept {query cut : QueryHeader} (candidates : Candidates)
    (dense : min query.denseK asked ≤ cut.denseK ∧ cut.denseK ≤ query.denseK)
    (multivector : min query.multivectorK asked ≤ cut.multivectorK ∧
      cut.multivectorK ≤ query.multivectorK)
    (lexical : min query.bm25K asked ≤ cut.bm25K ∧ cut.bm25K ≤ query.bm25K)
    (enough : asked ≤ (scanDocuments candidates query).length) :
    asked ≤ (scanDocuments candidates cut).length := by
  obtain ⟨one, two, three⟩ := candidates.distinct
  unfold scanDocuments at enough ⊢
  rcases branch_kept dense.1 dense.2 candidates.dense with same | many
  · rcases branch_kept multivector.1 multivector.2 candidates.multivector with same' | many
    · rcases branch_kept lexical.1 lexical.2 candidates.lexical with same'' | many
      · rwa [same, same', same'']
      · refine many.trans (length_le_dedup (three.sublist (List.take_sublist _ _)) ?_)
        exact fun document member => List.mem_append_right _ (List.mem_append_right _ member)
    · refine many.trans (length_le_dedup (two.sublist (List.take_sublist _ _)) ?_)
      exact fun document member => List.mem_append_right _ (List.mem_append_left _ member)
  · refine many.trans (length_le_dedup (one.sublist (List.take_sublist _ _)) ?_)
    exact fun document member => List.mem_append_left _ member

end Documents

/-! ### The condition -/

section Condition

variable {plan : Plan} {query : QueryHeader}

theorem effectiveQuery_noLimit (query : QueryHeader) : effectiveQuery query 0 = query := by
  unfold effectiveQuery
  rw [applyAutoBudget_noLimit, applyAutoBudget_noLimit, applyAutoBudget_noLimit]

/-- **The budget keeps what is asked for exactly where the first constant limit covers it.** -/
theorem effectiveQuery_keepsDemand_iff (plan : Plan) (query : QueryHeader) :
    KeepsDemand plan query ↔ LimitCovers plan query := by
  have walked : currentLimit (some plan) = walkedLimit (limitConstants plan) :=
    findLimitInPlan_eq plan
  cases limits : limitConstants plan with
  | nil =>
    -- no limit is found, and nothing is cut
    rw [limits] at walked
    have same : effectiveQuery query (currentLimit (some plan)) = query := by
      rw [walked]
      exact effectiveQuery_noLimit query
    refine iff_of_true ⟨fun demand _ asked _ => ?_, fun demand _ asked _ candidates => ?_⟩
      fun limit first => ?_
    · rw [same]
      exact ⟨min_le_left _ _, min_le_left _ _, min_le_left _ _⟩
    · rw [same]
      exact id
    · rw [limits] at first
      cases first
  | cons limit rest =>
    have positive : 0 < limit :=
      limitConstants_positive plan limit (by rw [limits]; exact List.mem_cons_self)
    rw [limits] at walked
    have head (other : Nat) : (limitConstants plan).head? = some other ↔ other = limit := by
      rw [limits, List.head?_cons, Option.some.injEq, eq_comm]
    have cut : effectiveQuery query (currentLimit (some plan)) =
        effectiveQuery query (min (limit : Int) intMax) := by rw [walked]; rfl
    constructor
    · intro keeps other first demand member
      obtain rfl := (head other).mp first
      have counts := keeps.counts demand member
      rw [cut] at counts
      exact ⟨(branchCovered_iff positive ..).mp fun asked below => (counts asked below).1,
        (branchCovered_iff positive ..).mp fun asked below => (counts asked below).2.1,
        (branchCovered_iff positive ..).mp fun asked below => (counts asked below).2.2⟩
    · intro covers
      have counts (demand : WithTop Nat) (member : demand ∈ demands plan ⊤) (asked : Nat)
          (below : (asked : WithTop Nat) ≤ demand) :
          let effective := effectiveQuery query (min (limit : Int) intMax)
          min query.denseK asked ≤ effective.denseK ∧
            min query.multivectorK asked ≤ effective.multivectorK ∧
              min query.bm25K asked ≤ effective.bm25K := by
        obtain ⟨dense, multivector, lexical⟩ := covers limit ((head limit).mpr rfl) demand member
        exact ⟨(branchCovered_iff positive ..).mpr dense asked below,
          (branchCovered_iff positive ..).mpr multivector asked below,
          (branchCovered_iff positive ..).mpr lexical asked below⟩
      refine ⟨fun demand member asked below => ?_, fun demand member asked below candidates => ?_⟩
      · rw [cut]
        exact counts demand member asked below
      · rw [cut]
        obtain ⟨dense, multivector, lexical⟩ := counts demand member asked below
        exact scanDocuments_kept candidates ⟨dense, applyAutoBudget_le positive ..⟩
          ⟨multivector, applyAutoBudget_le positive ..⟩ ⟨lexical, applyAutoBudget_le positive ..⟩

end Condition

/-! ### A limit with an offset -/

def defaultQuery : QueryHeader := ⟨100, 100, 100, true, true, true, false, false⟩

/-- **LIMIT 10 OFFSET 90**: the scan is asked for a hundred tuples, which it would return, and is cut
to eighty. -/
theorem effectiveQuery_offset :
    let plan := Plan.limit (.const .int8 10) (.const .int8 90) (.indexScan true)
    demands plan ⊤ = [100] ∧
      (effectiveQuery defaultQuery (currentLimit (some plan))).denseK = 80 ∧
        ¬ KeepsDemand plan defaultQuery := by
  refine ⟨rfl, rfl, fun keeps => ?_⟩
  have cut := (keeps.counts 100 (List.mem_singleton_self _) 100 le_rfl).1
  revert cut
  decide

end TurboHybrid.Budget
