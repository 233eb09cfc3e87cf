/-
**The selection of the fused results.**

The results of a query are ordered by their fused score, then by the branches that found them, their
ranks there and the node. Two different results can compare equal, and the sort of the C library
leaves their order open.

* `scoreCompare_lt_iff`: the comparison is the order of one key, the heap's its exact reverse;
* `selectTopN_split`: the heap keeps results of which none comes behind one left out;
* `selections_sort`: both bounded selections give the first results of a full sort.
-/
import TurboHybrid.Scan.Accumulator
import TurboHybrid.Library.BoundedHeap
import Mathlib.Algebra.Order.Ring.Rat

set_option linter.unusedSectionVars false

namespace TurboHybrid.Fusion

open TurboHybrid.Library TurboHybrid.Scan

variable {R : Type*} [Field R] [LinearOrder R] [IsStrictOrderedRing R]

/-! ### Results and their order -/

structure FusedResult (R : Type*) where
  nodeId : Nat
  heaptid : ItemPointer
  denseDistance : R
  denseSimilarity : R
  multivectorDistance : R
  multivectorSimilarity : R
  bm25Score : R
  fusedScore : R
  denseRank : Int
  multivectorRank : Int
  bm25Rank : Int
  hasDense : Bool
  hasMultivector : Bool
  hasBm25 : Bool
  exactScored : Bool

def intMax : Int := 2147483647

namespace FusedResult

def both (result : FusedResult R) : Int :=
  if (result.hasDense || result.hasMultivector) && result.hasBm25 then 1 else 0

def denseOrder (result : FusedResult R) : Int :=
  if result.hasDense then result.denseRank else intMax

def multivectorOrder (result : FusedResult R) : Int :=
  if result.hasMultivector then result.multivectorRank else intMax

def bm25Order (result : FusedResult R) : Int :=
  if result.hasBm25 then result.bm25Rank else intMax

def rank (result : FusedResult R) : Rᵒᵈ ×ₗ Intᵒᵈ ×ₗ Int ×ₗ Int ×ₗ Int ×ₗ Nat :=
  toLex (OrderDual.toDual result.fusedScore, toLex (OrderDual.toDual result.both,
    toLex (result.denseOrder, toLex (result.multivectorOrder,
      toLex (result.bm25Order, result.nodeId)))))

end FusedResult

def threeWay (one other : Int) : Int :=
  (if other < one then 1 else 0) - (if one < other then 1 else 0)

/-- Negative where the first comes before the second. -/
def scoreCompare (one other : FusedResult R) : Int :=
  if other.fusedScore < one.fusedScore then -1
  else if one.fusedScore < other.fusedScore then 1
  else if one.both ≠ other.both then other.both - one.both
  else if one.denseOrder ≠ other.denseOrder then threeWay one.denseOrder other.denseOrder
  else if one.multivectorOrder ≠ other.multivectorOrder then
    threeWay one.multivectorOrder other.multivectorOrder
  else if one.bm25Order ≠ other.bm25Order then threeWay one.bm25Order other.bm25Order
  else threeWay one.nodeId other.nodeId

def scoreWorse (left right : FusedResult R) : Bool := decide (0 < scoreCompare left right)

theorem threeWay_neg {one other : Int} : threeWay one other < 0 ↔ one < other := by
  unfold threeWay
  split_ifs <;> omega

theorem threeWay_pos {one other : Int} : 0 < threeWay one other ↔ other < one := by
  unfold threeWay
  split_ifs <;> omega

theorem rank_lt_iff {one other : FusedResult R} : one.rank < other.rank ↔
    other.fusedScore < one.fusedScore ∨ one.fusedScore = other.fusedScore ∧
      (other.both < one.both ∨ one.both = other.both ∧
        (one.denseOrder < other.denseOrder ∨ one.denseOrder = other.denseOrder ∧
          (one.multivectorOrder < other.multivectorOrder ∨
            one.multivectorOrder = other.multivectorOrder ∧
            (one.bm25Order < other.bm25Order ∨ one.bm25Order = other.bm25Order ∧
              one.nodeId < other.nodeId)))) := by
  simp only [FusedResult.rank, Prod.Lex.toLex_lt_toLex, OrderDual.toDual_lt_toDual,
    EmbeddingLike.apply_eq_iff_eq]

/-- **The comparison** is the order of the ranks. -/
theorem scoreCompare_lt_iff {one other : FusedResult R} :
    scoreCompare one other < 0 ↔ one.rank < other.rank := by
  rw [rank_lt_iff, scoreCompare]
  split_ifs with less more both dense multivector bm25
  · simp [less]
  · simp [less, more.ne]
  · have same := le_antisymm (not_lt.mp less) (not_lt.mp more)
    simp only [same, lt_irrefl, false_or, true_and, both, false_and, or_false]
    omega
  all_goals
    have same := le_antisymm (not_lt.mp less) (not_lt.mp more)
    rw [threeWay_neg]
    simp_all

theorem scoreCompare_pos_iff {one other : FusedResult R} :
    0 < scoreCompare one other ↔ other.rank < one.rank := by
  rw [rank_lt_iff, scoreCompare]
  split_ifs with less more both dense multivector bm25
  · simp [less.not_gt, less.ne]
  · simp [more]
  · have same := le_antisymm (not_lt.mp less) (not_lt.mp more)
    simp only [same, lt_irrefl, false_or, true_and, Ne.symm both, false_and, or_false]
    omega
  all_goals
    have same := le_antisymm (not_lt.mp less) (not_lt.mp more)
    rw [threeWay_pos]
    simp_all [eq_comm]

theorem scoreCompare_le_iff {one other : FusedResult R} :
    scoreCompare one other ≤ 0 ↔ one.rank ≤ other.rank := by
  rw [← not_lt, scoreCompare_pos_iff, not_lt]

theorem scoreCompare_eq_iff {one other : FusedResult R} :
    scoreCompare one other = 0 ↔ one.rank = other.rank := by
  rw [le_antisymm_iff, le_antisymm_iff, scoreCompare_le_iff,
    show 0 ≤ scoreCompare one other ↔ other.rank ≤ one.rank from
      not_lt.symm.trans (scoreCompare_lt_iff.not.trans not_lt)]

theorem scoreWorse_compares :
    BinaryHeap.Compares (OrderDual.toDual ∘ FusedResult.rank (R := R)) scoreWorse :=
  fun _ _ => decide_eq_true_iff.trans scoreCompare_pos_iff

/-! ### The selection -/

/-- The sorting function of the C library: some arrangement in the order of the comparison. -/
structure QSort {α : Type*} (compare : α → α → Int) where
  run : List α → List α
  perm : ∀ items, (run items).Perm items
  sorted : ∀ items, (run items).Pairwise fun one other => compare one other ≤ 0

/-- One entry of the bounded heap, whose root is the worst entry kept. -/
def topNOffer (target : Nat) (heap : Array (FusedResult R)) (item : FusedResult R) :
    Array (FusedResult R) :=
  if heap.size < target then BinaryHeap.push scoreWorse heap item
  else
    match heap[0]? with
    | some root =>
      if scoreCompare item root < 0 then BinaryHeap.replaceRoot scoreWorse heap item else heap
    | none => heap

def selectTopN (qsort : QSort (scoreCompare (R := R))) (items : List (FusedResult R))
    (target : Int) : List (FusedResult R) :=
  if target ≤ 0 ∨ items.length = 0 then []
  else
    let heap := items.foldl (topNOffer target.toNat) #[]
    if 1 < heap.size then qsort.run heap.toList else heap.toList

theorem topNOffer_eq (target : Nat) :
    topNOffer (R := R) target = BoundedHeap.offer scoreWorse target := by
  funext heap item
  have same (root : FusedResult R) : (scoreCompare item root < 0) ↔ scoreWorse root item = true :=
    scoreCompare_lt_iff.trans (scoreWorse_compares root item).symm
  rw [topNOffer, BoundedHeap.offer]
  simp only [same]
  split_ifs
  · rfl
  · cases heap[0]? <;> rfl

variable {qsort : QSort (scoreCompare (R := R))} {items : List (FusedResult R)} {target : Int}

/-- **What is selected** is sorted, and no entry left out comes before one selected. -/
theorem selectTopN_split (qsort : QSort (scoreCompare (R := R))) (items : List (FusedResult R))
    (target : Int) :
    ∃ rest, items.Perm (selectTopN qsort items target ++ rest) ∧
      (selectTopN qsort items target).Pairwise (fun one other => scoreCompare one other ≤ 0) ∧
      (∀ one ∈ selectTopN qsort items target, ∀ other ∈ rest, scoreCompare one other ≤ 0) ∧
      (selectTopN qsort items target).length = min target.toNat items.length := by
  unfold selectTopN
  by_cases none : target ≤ 0 ∨ items.length = 0
  · rw [if_pos none]
    refine ⟨items, List.Perm.refl _, List.Pairwise.nil, by simp, ?_⟩
    rw [List.length_nil]
    omega
  · rw [if_neg none, topNOffer_eq]
    have positive : 0 < target.toNat := by omega
    have keeps := BoundedHeap.offerAll_keepsBy scoreWorse_compares positive
      (BoundedHeap.keepsBy_empty _ _) items
    rw [List.nil_append] at keeps
    obtain ⟨rest, split, below⟩ := keeps.split
    have count : (items.foldl (BoundedHeap.offer scoreWorse target.toNat) #[]).toList.length =
        min target.toNat items.length := by
      simpa using keeps.selects.count
    generalize items.foldl (BoundedHeap.offer scoreWorse target.toNat) #[] = heap at split below count ⊢
    by_cases many : 1 < heap.size
    · rw [if_pos many]
      have perm := qsort.perm heap.toList
      refine ⟨rest, split.trans (perm.symm.append_right rest), qsort.sorted _,
        fun one member other outside => ?_, perm.length_eq.trans count⟩
      exact scoreCompare_le_iff.mpr (below one (perm.mem_iff.mp member) other outside)
    · rw [if_neg many]
      refine ⟨rest, split, ?_, fun one member other outside =>
        scoreCompare_le_iff.mpr (below one member other outside), count⟩
      -- a single entry is sorted
      match listed : heap.toList with
      | [] => exact List.Pairwise.nil
      | [_] => exact List.pairwise_singleton _ _
      | _ :: _ :: _ =>
        have length := congrArg List.length listed
        simp only [Array.length_toList, List.length_cons] at length
        omega

/-- Two sorted arrangements of the same entries have the same ranks in the same places. -/
theorem ranks_of_sorted {one other : List (FusedResult R)} (same : one.Perm other)
    (sorted : one.Pairwise fun first second => scoreCompare first second ≤ 0)
    (sorted' : other.Pairwise fun first second => scoreCompare first second ≤ 0) :
    one.map FusedResult.rank = other.map FusedResult.rank := by
  have ordered {list : List (FusedResult R)}
      (sorted : list.Pairwise fun first second => scoreCompare first second ≤ 0) :
      (list.map FusedResult.rank).Pairwise (· ≤ ·) :=
    List.pairwise_map.mpr (sorted.imp scoreCompare_le_iff.mp)
  exact (same.map FusedResult.rank).eq_of_pairwise' (ordered sorted) (ordered sorted')

/-- A selection that agrees with the sort: it is the head of a sorted arrangement of the entries, in
every place it compares equal to the sort of all entries, and where no two different entries
compare equal it is the head of that sort. -/
structure SelectsSorted (qsort : QSort (scoreCompare (R := R))) (items : List (FusedResult R))
    (target : Int) : Prop where
  arranged : ∃ arranged : List (FusedResult R), arranged.Perm items ∧
    arranged.Pairwise (fun one other => scoreCompare one other ≤ 0) ∧
    selectTopN qsort items target = arranged.take target.toNat
  places : List.Forall₂ (fun one other => scoreCompare one other = 0)
    (selectTopN qsort items target) ((qsort.run items).take target.toNat)
  same : (∀ one ∈ items, ∀ other ∈ items, scoreCompare one other = 0 → one = other) →
    selectTopN qsort items target = (qsort.run items).take target.toNat

theorem selectTopN_sorted (qsort : QSort (scoreCompare (R := R))) (items : List (FusedResult R))
    (target : Int) : SelectsSorted qsort items target := by
  obtain ⟨rest, split, sorted, below, count⟩ := selectTopN_split qsort items target
  have perm := qsort.perm rest
  have whole : (selectTopN qsort items target ++ qsort.run rest).Perm items :=
    (perm.append_left _).trans split.symm
  have arranged : (selectTopN qsort items target ++ qsort.run rest).Pairwise
      fun one other => scoreCompare one other ≤ 0 :=
    List.pairwise_append.mpr ⟨sorted, qsort.sorted rest, fun one member other outside =>
      below one member other (perm.mem_iff.mp outside)⟩
  have head : selectTopN qsort items target =
      (selectTopN qsort items target ++ qsort.run rest).take target.toNat := by
    rcases Nat.le_total target.toNat items.length with few | all
    · rw [List.take_left' (count.trans (min_eq_left few))]
    · have lengths := whole.length_eq
      rw [List.take_of_length_le (lengths.trans_le all)]
      rw [List.length_append, count, min_eq_right all] at lengths
      rw [List.length_eq_zero_iff.mp (by omega : (qsort.run rest).length = 0), List.append_nil]
  have ranks := ranks_of_sorted (whole.trans (qsort.perm items).symm) arranged (qsort.sorted items)
  have kept : (selectTopN qsort items target).map FusedResult.rank =
      ((qsort.run items).take target.toNat).map FusedResult.rank := by
    rw [head, List.map_take, ranks, List.map_take]
  have places : List.Forall₂ (fun one other : FusedResult R => one.rank = other.rank)
      (selectTopN qsort items target) ((qsort.run items).take target.toNat) := by
    have equal := List.forall₂_eq_eq_eq ▸ kept
    exact List.forall₂_map_left_iff.mp (List.forall₂_map_right_iff.mp equal)
  refine ⟨⟨_, whole, arranged, head⟩, places.imp fun _ _ => scoreCompare_eq_iff.mpr,
    fun apart => ?_⟩
  have inside : ∀ one ∈ selectTopN qsort items target, one ∈ items := fun one member =>
    split.mem_iff.mpr (List.mem_append_left rest member)
  have inside' : ∀ other ∈ (qsort.run items).take target.toNat, other ∈ items :=
    fun other member => (qsort.perm items).mem_iff.mp (List.mem_of_mem_take member)
  generalize selectTopN qsort items target = chosen at places inside
  generalize (qsort.run items).take target.toNat = ordered at places inside'
  clear kept ranks head arranged whole split sorted below count
  induction places with
  | nil => rfl
  | cons same _ ih =>
    rw [apart _ (inside _ List.mem_cons_self) _ (inside' _ List.mem_cons_self)
        (scoreCompare_eq_iff.mpr same),
      ih (fun one member => inside one (List.mem_cons_of_mem _ member))
        (fun other member => inside' other (List.mem_cons_of_mem _ member))]

/-- A sort that keeps the order of entries that compare equal. -/
def stableSort : QSort (scoreCompare (R := R)) where
  run items := items.mergeSort fun one other => decide (scoreCompare one other ≤ 0)
  perm items := List.mergeSort_perm items _
  sorted items := by
    refine (List.pairwise_mergeSort (fun one other last before after => ?_)
      (fun one other => ?_) items).imp of_decide_eq_true
    · have first := scoreCompare_le_iff.mp (of_decide_eq_true before)
      exact decide_eq_true (scoreCompare_le_iff.mpr
        (first.trans (scoreCompare_le_iff.mp (of_decide_eq_true after))))
    · rw [Bool.or_eq_true, decide_eq_true_iff, decide_eq_true_iff, scoreCompare_le_iff,
        scoreCompare_le_iff]
      exact le_total _ _

end TurboHybrid.Fusion
