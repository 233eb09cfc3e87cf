/-
**The score accumulator and the selection of the final top `k`.**

The accumulator keeps an entry for each touched node, in the order of first touch, and beside them
a heap of the best `k` of these nodes whose root score is the running threshold.

* `accumulatorUpdate_wellFormed`: raising a score keeps the heap a heap of best nodes;
* `selectFinalTopK_eq`: the final selection is the sorted list of the `k` best matching entries,
  whichever of the two sorting paths runs.
-/
import TurboHybrid.Index.Posting
import TurboHybrid.Library.BinaryHeap
import TurboHybrid.Library.TopK
import Mathlib.Data.Prod.Lex

set_option linter.unusedSectionVars false

namespace TurboHybrid.Scan

open TurboHybrid.Index TurboHybrid.Library

variable {R : Type*} [Field R] [LinearOrder R] [IsStrictOrderedRing R]

/-! ### Scored nodes -/

structure NodeScore (R : Type*) where
  nodeId : Nat
  score : R
  deriving DecidableEq

namespace NodeScore

/-- Higher scores come first, then smaller node ids. -/
def rank (node : NodeScore R) : Lex (Rᵒᵈ × Nat) := toLex (OrderDual.toDual node.score, node.nodeId)

theorem rank_injective : Function.Injective (rank (R := R)) := by
  rintro ⟨nodeId, score⟩ ⟨nodeId', score'⟩ same
  simp only [rank, EmbeddingLike.apply_eq_iff_eq, Prod.mk.injEq] at same
  rw [same.1, same.2]

instance : LinearOrder (NodeScore R) := LinearOrder.lift' rank rank_injective

theorem lt_iff {one other : NodeScore R} :
    one < other ↔ other.score < one.score ∨ one.score = other.score ∧ one.nodeId < other.nodeId :=
  Prod.Lex.toLex_lt_toLex

theorem le_iff {one other : NodeScore R} :
    one ≤ other ↔ other.score < one.score ∨ one.score = other.score ∧ one.nodeId ≤ other.nodeId :=
  Prod.Lex.toLex_le_toLex

theorem score_le_of_le {one other : NodeScore R} (le : one ≤ other) : other.score ≤ one.score := by
  rcases le_iff.mp le with less | same
  · exact less.le
  · exact same.1.ge

end NodeScore

/-- The order of the final list: the first comes before the second. -/
def scoreBefore (one other : NodeScore R) : Bool :=
  if other.score < one.score then true
  else if one.score < other.score then false
  else decide (one.nodeId < other.nodeId)

def nodeScoreHeapLess (one other : NodeScore R) : Bool :=
  if one.score < other.score then true
  else if other.score < one.score then false
  else decide (other.nodeId < one.nodeId)

theorem scoreBefore_iff {one other : NodeScore R} : scoreBefore one other = true ↔ one < other := by
  rw [NodeScore.lt_iff, scoreBefore]
  split_ifs with less more
  · simp [less]
  · simp [less, more.ne]
  · simp [le_antisymm (not_lt.mp less) (not_lt.mp more)]

theorem nodeScoreHeapLess_iff {one other : NodeScore R} :
    nodeScoreHeapLess one other = true ↔ other < one := by
  rw [NodeScore.lt_iff, nodeScoreHeapLess]
  split_ifs with less more
  · simp [less]
  · simp [less, more.ne]
  · simp [le_antisymm (not_lt.mp less) (not_lt.mp more)]

/-! ### The accumulator -/

abbrev ItemPointer := Nat × Nat

structure AccumulatorEntry (R : Type*) where
  nodeId : Nat
  score : R
  docLen : Nat
  heaptid : Option ItemPointer
  matchedTerms : Nat
  hasDeltaDoc : Bool

/-- The accumulator. The entries stand in touched order; the top heap holds their node ids, so a
node's index in the heap is its position there. Only the dense mode has a capacity. -/
structure Accumulator (R : Type*) where
  denseCapacity : Option Nat
  entries : List (AccumulatorEntry R)
  topHeap : Array Nat
  topHeapCapacity : Nat
  threshold : R
  seedThreshold : R

inductive AccumulatorMode where
  | hash
  | dense
  deriving DecidableEq, Repr

/-- A fresh accumulator. The dense array kept between queries grows to the node count first. -/
def accumulatorInit (mode : AccumulatorMode) (capacity nodeCount topK : Nat) : Accumulator R where
  denseCapacity :=
    match mode with
    | .hash => none
    | .dense => some (max capacity nodeCount)
  entries := []
  topHeap := #[]
  topHeapCapacity := topK
  threshold := 0
  seedThreshold := 0

namespace Accumulator

def touchedCount (acc : Accumulator R) : Nat := acc.entries.length

def nodeIds (acc : Accumulator R) : List Nat := acc.entries.map AccumulatorEntry.nodeId

def lookup (acc : Accumulator R) (nodeId : Nat) : Option (AccumulatorEntry R) :=
  acc.entries.find? fun entry => entry.nodeId == nodeId

def scoreOf (acc : Accumulator R) (nodeId : Nat) : R :=
  ((acc.lookup nodeId).map AccumulatorEntry.score).getD 0

end Accumulator

def accumulatorHeapLess (acc : Accumulator R) (one other : Nat) : Bool :=
  if acc.scoreOf one < acc.scoreOf other then true
  else if acc.scoreOf other < acc.scoreOf one then false
  else decide (other < one)

def refreshThreshold (acc : Accumulator R) : Accumulator R :=
  { acc with
    threshold :=
      if 0 < acc.topHeapCapacity ∧ acc.topHeap.size = acc.topHeapCapacity then
        ((acc.topHeap[0]?).map acc.scoreOf).getD 0
      else 0 }

/-- Put a node whose score was raised at its place in the top heap. -/
def updateTopK (acc : Accumulator R) (nodeId : Nat) : Accumulator R :=
  if acc.topHeapCapacity = 0 then acc
  else
    let less := accumulatorHeapLess acc
    let topHeap :=
      match acc.topHeap.findIdx? (· == nodeId) with
      | some heapIndex => BinaryHeap.siftDown less acc.topHeap.size acc.topHeap heapIndex
      | none =>
        if acc.topHeap.size < acc.topHeapCapacity then BinaryHeap.push less acc.topHeap nodeId
        else if ((acc.topHeap[0]?).map acc.scoreOf).getD 0 < acc.scoreOf nodeId then
          BinaryHeap.replaceRoot less acc.topHeap nodeId
        else acc.topHeap
    refreshThreshold { acc with topHeap }

def newEntry (nodeId : Nat) : AccumulatorEntry R := ⟨nodeId, 0, 0, none, 0, false⟩

/-- Change a node's entry, made first where there is none. -/
def touchEntry (acc : Accumulator R) (nodeId : Nat)
    (change : AccumulatorEntry R → AccumulatorEntry R) : Accumulator R :=
  { acc with
    entries :=
      if (acc.lookup nodeId).isSome then
        acc.entries.map fun entry => if entry.nodeId = nodeId then change entry else entry
      else acc.entries ++ [change (newEntry nodeId)] }

/-- Change a node's entry and update the top heap. A dense accumulator ignores nodes beyond its
capacity. -/
def accumulatorUpdate (acc : Accumulator R) (nodeId : Nat)
    (change : AccumulatorEntry R → AccumulatorEntry R) : Accumulator R :=
  if acc.denseCapacity.any (· ≤ nodeId) then acc
  else updateTopK (touchEntry acc nodeId change) nodeId

def addScore (score : R) (matchBit : Nat) (entry : AccumulatorEntry R) : AccumulatorEntry R :=
  { entry with score := entry.score + score, matchedTerms := entry.matchedTerms ||| matchBit }

@[simp] theorem addScore_nodeId (score : R) (matchBit : Nat) (entry : AccumulatorEntry R) :
    (addScore score matchBit entry).nodeId = entry.nodeId := rfl

def addTermScore (acc : Accumulator R) (nodeId : Nat) (score : R) (matchBit : Nat) :
    Accumulator R :=
  accumulatorUpdate acc nodeId (addScore score matchBit)

def kthScore (acc : Accumulator R) (k : Nat) : R :=
  if k = 0 ∨ acc.topHeap.size < k then acc.seedThreshold
  else max acc.threshold acc.seedThreshold

/-! ### The final selection -/

/-- The entries that match the query, as scored nodes in touched order. -/
def matchedEntries (accepts : Nat → Bool) (acc : Accumulator R) : List (NodeScore R) :=
  (acc.entries.filter fun entry => accepts entry.matchedTerms).map fun entry =>
    ⟨entry.nodeId, entry.score⟩

def selectStep (k : Nat) (heap : Array (NodeScore R)) (candidate : NodeScore R) :
    Array (NodeScore R) :=
  if heap.size < k then BinaryHeap.push nodeScoreHeapLess heap candidate
  else
    match heap[0]? with
    | some root =>
      if scoreBefore candidate root then BinaryHeap.replaceRoot nodeScoreHeapLess heap candidate
      else heap
    | none => heap

/-- The final top `k`, by a full sort or by a heap of `k` candidates. -/
def selectFinalTopK (forceFullSort : Bool) (accepts : Nat → Bool) (k : Nat) (acc : Accumulator R) :
    List (NodeScore R) :=
  let sorted := List.insertionSort fun one other : NodeScore R => !scoreBefore other one
  if k = 0 then []
  else if forceFullSort then (sorted (matchedEntries accepts acc)).take k
  else sorted ((matchedEntries accepts acc).foldl (selectStep k) #[]).toList

theorem nodeScoreHeapLess_compares :
    BinaryHeap.Compares (OrderDual.toDual (α := NodeScore R)) nodeScoreHeapLess :=
  fun _ _ => nodeScoreHeapLess_iff

theorem insertionSort_scoreBefore (items : List (NodeScore R)) :
    List.insertionSort (fun one other : NodeScore R => !scoreBefore other one) items =
      items.insertionSort (· ≤ ·) := by
  have same : (fun one other : NodeScore R => (!scoreBefore other one) = true) = (· ≤ ·) := by
    funext one other
    rw [Bool.not_eq_true', ← Bool.not_eq_true, scoreBefore_iff, not_lt]
  congr 1

/-- The selection heap while the candidates stream by. -/
structure Selecting (k : Nat) (seen : List (NodeScore R)) (heap : Array (NodeScore R)) : Prop where
  selects : TopK.Selects k seen heap.toList
  isHeap : BinaryHeap.IsHeap OrderDual.toDual heap

theorem Selecting.step {k : Nat} (positive : 0 < k) {seen : List (NodeScore R)}
    {heap : Array (NodeScore R)} (selecting : Selecting k seen heap) (candidate : NodeScore R) :
    Selecting k (seen ++ [candidate]) (selectStep k heap candidate) := by
  have bounded : heap.toList.length ≤ k := by
    rw [selecting.selects.count]
    exact min_le_left _ _
  have size : heap.size = heap.toList.length := Array.length_toList.symm
  unfold selectStep
  split_ifs with room
  · refine ⟨(selecting.selects.push (by omega) candidate).of_perm (List.Perm.refl _) ?_, ?_⟩
    · exact (BinaryHeap.push_perm _ heap candidate).symm
    · exact BinaryHeap.push_isHeap nodeScoreHeapLess_compares selecting.isHeap candidate
  · have nonempty : 0 < heap.size := by omega
    obtain ⟨root, rest, split⟩ : ∃ root rest, heap.toList = root :: rest :=
      List.exists_cons_of_length_pos (by omega)
    have atRoot : heap[0]? = some root := by rw [← Array.getElem?_toList, split]; rfl
    have worst (other : NodeScore R) (member : other ∈ heap.toList) : other ≤ root :=
      BinaryHeap.root_le_mem selecting.isHeap atRoot (Array.mem_toList_iff.mp member)
    simp only [atRoot]
    split_ifs with better
    · rw [scoreBefore_iff] at better
      refine ⟨?_, BinaryHeap.replaceRoot_isHeap nodeScoreHeapLess_compares selecting.isHeap
        nonempty candidate⟩
      have replaced := (split ▸ selecting.selects).replace
        (fun other member => worst other (split ▸ List.mem_cons_of_mem _ member)) better.le
        (by rw [← split]; omega)
      exact replaced.of_perm (List.Perm.refl _) (BinaryHeap.replaceRoot_perm _ split candidate).symm
    · rw [scoreBefore_iff, not_lt] at better
      exact ⟨selecting.selects.keep (fun other member => (worst other member).trans better)
        (by omega), selecting.isHeap⟩

theorem selecting_foldl {k : Nat} (positive : 0 < k) {seen : List (NodeScore R)}
    {heap : Array (NodeScore R)} (selecting : Selecting k seen heap)
    (candidates : List (NodeScore R)) :
    Selecting k (seen ++ candidates) (candidates.foldl (selectStep k) heap) := by
  induction candidates generalizing seen heap with
  | nil => simpa using selecting
  | cons candidate rest ih => simpa using ih (selecting.step positive candidate)

/-- **The final selection** is the sorted list of the `k` best matching entries. -/
theorem selectFinalTopK_eq (forceFullSort : Bool) (accepts : Nat → Bool) (k : Nat)
    (acc : Accumulator R) :
    selectFinalTopK forceFullSort accepts k acc = TopK.best k (matchedEntries accepts acc) := by
  simp only [selectFinalTopK, insertionSort_scoreBefore]
  split_ifs with none sorted
  · simp [none, TopK.best]
  · rfl
  · have start : Selecting k [] (#[] : Array (NodeScore R)) :=
      ⟨TopK.selects_nil k, fun pos positive => by simp [BinaryHeap.keyAt]⟩
    have streamed := selecting_foldl (Nat.pos_of_ne_zero none) start (matchedEntries accepts acc)
    rw [List.nil_append] at streamed
    exact streamed.selects.sort_eq

/-! ### Entries -/

section Entries

variable {acc : Accumulator R} {nodeId : Nat}

theorem lookup_isSome : (acc.lookup nodeId).isSome ↔ nodeId ∈ acc.nodeIds := by
  simp [Accumulator.lookup, Accumulator.nodeIds]

theorem lookup_nodeId {entry : AccumulatorEntry R} (found : acc.lookup nodeId = some entry) :
    entry.nodeId = nodeId := by
  simpa using List.find?_some found

theorem lookup_mem {entry : AccumulatorEntry R} (found : acc.lookup nodeId = some entry) :
    entry ∈ acc.entries :=
  List.mem_of_find?_eq_some found

theorem lookup_eq_some (distinct : acc.nodeIds.Nodup) {entry : AccumulatorEntry R}
    (member : entry ∈ acc.entries) : acc.lookup entry.nodeId = some entry := by
  have some : (acc.lookup entry.nodeId).isSome := lookup_isSome.mpr (List.mem_map_of_mem member)
  obtain ⟨other, found⟩ := Option.isSome_iff_exists.mp some
  rw [found, List.inj_on_of_nodup_map distinct (lookup_mem found) member (lookup_nodeId found)]

theorem scoreOf_eq (distinct : acc.nodeIds.Nodup) {entry : AccumulatorEntry R}
    (member : entry ∈ acc.entries) : acc.scoreOf entry.nodeId = entry.score := by
  rw [Accumulator.scoreOf, lookup_eq_some distinct member]
  rfl

variable {change : AccumulatorEntry R → AccumulatorEntry R}

theorem touchEntry_known (known : nodeId ∈ acc.nodeIds) :
    (touchEntry acc nodeId change).entries =
      acc.entries.map fun entry => if entry.nodeId = nodeId then change entry else entry :=
  if_pos (lookup_isSome.mpr known)

theorem touchEntry_fresh (fresh : nodeId ∉ acc.nodeIds) :
    (touchEntry acc nodeId change).entries = acc.entries ++ [change (newEntry nodeId)] :=
  if_neg (lookup_isSome.not.mpr fresh)

theorem touchEntry_nodeIds (same : ∀ entry, (change entry).nodeId = entry.nodeId) :
    (touchEntry acc nodeId change).nodeIds =
      if nodeId ∈ acc.nodeIds then acc.nodeIds else acc.nodeIds ++ [nodeId] := by
  unfold Accumulator.nodeIds
  split_ifs with known
  · rw [touchEntry_known known, List.map_map]
    refine List.map_congr_left fun entry _ => ?_
    simp only [Function.comp]
    split_ifs
    · exact same entry
    · rfl
  · rw [touchEntry_fresh known]
    simp [same, newEntry]

theorem mem_touchEntry_nodeIds (same : ∀ entry, (change entry).nodeId = entry.nodeId) {other : Nat} :
    other ∈ (touchEntry acc nodeId change).nodeIds ↔ other = nodeId ∨ other ∈ acc.nodeIds := by
  rw [touchEntry_nodeIds same]
  split_ifs with known
  · constructor
    · exact Or.inr
    · rintro (rfl | old)
      · exact known
      · exact old
  · simp [or_comm]

theorem touchEntry_distinct (same : ∀ entry, (change entry).nodeId = entry.nodeId)
    (distinct : acc.nodeIds.Nodup) : (touchEntry acc nodeId change).nodeIds.Nodup := by
  rw [touchEntry_nodeIds same]
  split_ifs with known
  · exact distinct
  · exact List.Nodup.append distinct (List.nodup_singleton _) (by simpa using known)

theorem touchEntry_lookup_other (same : ∀ entry, (change entry).nodeId = entry.nodeId) {other : Nat}
    (different : other ≠ nodeId) : (touchEntry acc nodeId change).lookup other = acc.lookup other := by
  have missed : (nodeId == other) = false := by simpa using different.symm
  unfold Accumulator.lookup
  by_cases known : nodeId ∈ acc.nodeIds
  · rw [touchEntry_known known]
    induction acc.entries with
    | nil => rfl
    | cons entry rest ih =>
      simp only [List.map_cons, List.find?_cons]
      by_cases here : entry.nodeId = nodeId
      · simp [here, same, missed, ih]
      · simp [here, ih]
  · rw [touchEntry_fresh known, List.find?_append]
    simp [same, newEntry, missed]

theorem touchEntry_lookup_self (same : ∀ entry, (change entry).nodeId = entry.nodeId) :
    (touchEntry acc nodeId change).lookup nodeId =
      some (change ((acc.lookup nodeId).getD (newEntry nodeId))) := by
  by_cases known : nodeId ∈ acc.nodeIds
  · have found := lookup_isSome.mpr known
    unfold Accumulator.lookup at found ⊢
    rw [touchEntry_known known]
    generalize acc.entries = entries at found ⊢
    induction entries with
    | nil => simp at found
    | cons entry rest ih =>
      simp only [List.map_cons, List.find?_cons] at found ⊢
      by_cases here : entry.nodeId = nodeId
      · simp [here, same]
      · have missed : (entry.nodeId == nodeId) = false := by simpa using here
        simp only [missed] at found
        simp only [here, if_false, missed]
        exact ih found
  · have missing := Option.not_isSome_iff_eq_none.mp (lookup_isSome.not.mpr known)
    unfold Accumulator.lookup at missing ⊢
    rw [touchEntry_fresh known, List.find?_append, missing]
    simp [same, newEntry]

theorem touchEntry_scoreOf_other (same : ∀ entry, (change entry).nodeId = entry.nodeId) {other : Nat}
    (different : other ≠ nodeId) : (touchEntry acc nodeId change).scoreOf other = acc.scoreOf other := by
  rw [Accumulator.scoreOf, touchEntry_lookup_other same different, Accumulator.scoreOf]

theorem scoreOf_le_touchEntry (same : ∀ entry, (change entry).nodeId = entry.nodeId)
    (raises : ∀ entry, entry.score ≤ (change entry).score) (other : Nat) :
    acc.scoreOf other ≤ (touchEntry acc nodeId change).scoreOf other := by
  by_cases here : other = nodeId
  · subst here
    rw [Accumulator.scoreOf, Accumulator.scoreOf, touchEntry_lookup_self same]
    cases found : acc.lookup other with
    | none => exact raises (newEntry other)
    | some entry => exact raises entry
  · rw [touchEntry_scoreOf_other same here]

end Entries

/-! ### Updates leave the rest -/

theorem updateTopK_entries (acc : Accumulator R) (nodeId : Nat) :
    (updateTopK acc nodeId).entries = acc.entries := by
  unfold updateTopK
  split_ifs <;> rfl

theorem updateTopK_frame (acc : Accumulator R) (nodeId : Nat) :
    (updateTopK acc nodeId).denseCapacity = acc.denseCapacity ∧
      (updateTopK acc nodeId).topHeapCapacity = acc.topHeapCapacity ∧
      (updateTopK acc nodeId).seedThreshold = acc.seedThreshold := by
  unfold updateTopK
  split_ifs <;> exact ⟨rfl, rfl, rfl⟩

@[simp] theorem accumulatorUpdate_denseCapacity (acc : Accumulator R) (nodeId : Nat)
    (change : AccumulatorEntry R → AccumulatorEntry R) :
    (accumulatorUpdate acc nodeId change).denseCapacity = acc.denseCapacity := by
  unfold accumulatorUpdate
  split_ifs
  · rfl
  · exact (updateTopK_frame _ _).1

@[simp] theorem accumulatorUpdate_topHeapCapacity (acc : Accumulator R) (nodeId : Nat)
    (change : AccumulatorEntry R → AccumulatorEntry R) :
    (accumulatorUpdate acc nodeId change).topHeapCapacity = acc.topHeapCapacity := by
  unfold accumulatorUpdate
  split_ifs
  · rfl
  · exact (updateTopK_frame _ _).2.1

@[simp] theorem accumulatorUpdate_seedThreshold (acc : Accumulator R) (nodeId : Nat)
    (change : AccumulatorEntry R → AccumulatorEntry R) :
    (accumulatorUpdate acc nodeId change).seedThreshold = acc.seedThreshold := by
  unfold accumulatorUpdate
  split_ifs
  · rfl
  · exact (updateTopK_frame _ _).2.2

def Accumulator.Fits (acc : Accumulator R) (nodeCount : Nat) : Prop :=
  ∀ capacity ∈ acc.denseCapacity, nodeCount ≤ capacity

theorem accumulatorInit_fits (mode : AccumulatorMode) (capacity nodeCount topK : Nat) :
    (accumulatorInit mode capacity nodeCount topK : Accumulator R).Fits nodeCount := by
  intro bound member
  cases mode with
  | hash => simp [accumulatorInit] at member
  | dense =>
    simp only [accumulatorInit, Option.mem_def, Option.some.injEq] at member
    exact member ▸ le_max_right _ _

theorem accumulatorUpdate_entries {acc : Accumulator R} {nodeCount nodeId : Nat}
    (fits : acc.Fits nodeCount) (inside : nodeId < nodeCount)
    (change : AccumulatorEntry R → AccumulatorEntry R) :
    (accumulatorUpdate acc nodeId change).entries = (touchEntry acc nodeId change).entries := by
  have within : ¬acc.denseCapacity.any (· ≤ nodeId) = true := by
    cases capacity : acc.denseCapacity with
    | none => simp
    | some bound =>
      have := fits bound capacity
      simp
      omega
  rw [accumulatorUpdate, if_neg within, updateTopK_entries]

/-! ### The top heap -/

/-- The heap order of nodes: a smaller key is a worse node. -/
def heapKey (acc : Accumulator R) (nodeId : Nat) : Lex (R × Natᵒᵈ) :=
  toLex (acc.scoreOf nodeId, OrderDual.toDual nodeId)

theorem accumulatorHeapLess_compares (acc : Accumulator R) :
    BinaryHeap.Compares (heapKey acc) (accumulatorHeapLess acc) := by
  intro one other
  rw [heapKey, heapKey, Prod.Lex.toLex_lt_toLex, accumulatorHeapLess]
  split_ifs with less more
  · simp [less]
  · simp [less, more.ne']
  · simp [le_antisymm (not_lt.mp more) (not_lt.mp less)]

theorem score_le_of_key_le {acc : Accumulator R} {one other : Nat}
    (le : heapKey acc one ≤ heapKey acc other) : acc.scoreOf one ≤ acc.scoreOf other := by
  rcases Prod.Lex.toLex_le_toLex.mp le with less | same
  · exact less.le
  · exact same.1.le

/-- The top heap holds the best touched nodes, and the threshold is its root's score. -/
structure WellFormed (acc : Accumulator R) : Prop where
  distinct : acc.nodeIds.Nodup
  inside : ∀ nodeId ∈ acc.topHeap, nodeId ∈ acc.nodeIds
  heapDistinct : acc.topHeap.toList.Nodup
  isHeap : BinaryHeap.IsHeap (heapKey acc) acc.topHeap
  count : acc.topHeap.size = min acc.topHeapCapacity acc.touchedCount
  outside : ∀ nodeId ∈ acc.nodeIds, nodeId ∉ acc.topHeap → ∀ other ∈ acc.topHeap,
    acc.scoreOf nodeId ≤ acc.scoreOf other
  threshold : acc.threshold = (refreshThreshold acc).threshold

theorem accumulatorInit_wellFormed (mode : AccumulatorMode) (capacity nodeCount topK : Nat) :
    WellFormed (accumulatorInit mode capacity nodeCount topK : Accumulator R) := by
  refine ⟨by simp [accumulatorInit, Accumulator.nodeIds], by simp [accumulatorInit],
    by simp [accumulatorInit], fun pos _ => by simp [accumulatorInit, BinaryHeap.keyAt],
    by simp [accumulatorInit, Accumulator.touchedCount],
    by simp [accumulatorInit], by simp [accumulatorInit, refreshThreshold]⟩

theorem WellFormed.full {acc : Accumulator R} (wellFormed : WellFormed acc)
    (room : acc.topHeap.size < acc.topHeapCapacity) {nodeId : Nat} (touched : nodeId ∈ acc.nodeIds) :
    nodeId ∈ acc.topHeap := by
  have lengths : acc.nodeIds.length = acc.touchedCount := List.length_map ..
  have size : acc.topHeap.toList.length = acc.topHeap.size := Array.length_toList
  have count := wellFormed.count
  have subperm := List.subperm_of_subset wellFormed.heapDistinct
    (fun nodeId member => wellFormed.inside nodeId (Array.mem_toList_iff.mp member))
  have same := subperm.perm_of_length_le (by omega)
  exact Array.mem_toList_iff.mp (same.mem_iff.mpr touched)

/-- The heap order after a node was raised: broken at most below that node. -/
structure Raised (before after : Accumulator R) (nodeId : Nat) : Prop where
  topHeap : after.topHeap = before.topHeap
  capacity : after.topHeapCapacity = before.topHeapCapacity
  nodeIds : ∀ other, other ∈ after.nodeIds ↔ other = nodeId ∨ other ∈ before.nodeIds
  distinct : after.nodeIds.Nodup
  others : ∀ other, other ≠ nodeId → after.scoreOf other = before.scoreOf other
  raised : before.scoreOf nodeId ≤ after.scoreOf nodeId

theorem touchEntry_raised {acc : Accumulator R} (wellFormed : WellFormed acc) (nodeId : Nat)
    {change : AccumulatorEntry R → AccumulatorEntry R}
    (same : ∀ entry, (change entry).nodeId = entry.nodeId)
    (raises : ∀ entry, entry.score ≤ (change entry).score) :
    Raised acc (touchEntry acc nodeId change) nodeId where
  topHeap := rfl
  capacity := rfl
  nodeIds _ := mem_touchEntry_nodeIds same
  distinct := touchEntry_distinct same wellFormed.distinct
  others _ different := touchEntry_scoreOf_other same different
  raised := scoreOf_le_touchEntry same raises nodeId

/-- What the heap must be for the accumulator to be well formed with it. -/
structure HoldsBest (acc : Accumulator R) (topHeap : Array Nat) : Prop where
  inside : ∀ nodeId ∈ topHeap, nodeId ∈ acc.nodeIds
  heapDistinct : topHeap.toList.Nodup
  isHeap : BinaryHeap.IsHeap (heapKey acc) topHeap
  count : topHeap.size = min acc.topHeapCapacity acc.touchedCount
  outside : ∀ nodeId ∈ acc.nodeIds, nodeId ∉ topHeap → ∀ other ∈ topHeap,
    acc.scoreOf nodeId ≤ acc.scoreOf other

theorem HoldsBest.wellFormed {acc : Accumulator R} {topHeap : Array Nat}
    (best : HoldsBest acc topHeap) (distinct : acc.nodeIds.Nodup) :
    WellFormed (refreshThreshold { acc with topHeap }) :=
  ⟨distinct, best.inside, best.heapDistinct, best.isHeap, best.count, best.outside, rfl⟩

section Raise

variable {before after : Accumulator R} {nodeId : Nat}

theorem Raised.touchedCount_known (raise : Raised before after nodeId)
    (wellFormed : WellFormed before) (known : nodeId ∈ before.nodeIds) :
    after.touchedCount = before.touchedCount := by
  have same : after.nodeIds.Perm before.nodeIds := by
    refine (List.perm_ext_iff_of_nodup raise.distinct wellFormed.distinct).mpr fun other => ?_
    rw [raise.nodeIds]
    exact ⟨fun member => member.elim (fun here => here ▸ known) id, Or.inr⟩
  simpa [Accumulator.nodeIds, Accumulator.touchedCount] using same.length_eq

theorem Raised.touchedCount_fresh (raise : Raised before after nodeId)
    (wellFormed : WellFormed before) (fresh : nodeId ∉ before.nodeIds) :
    after.touchedCount = before.touchedCount + 1 := by
  have same : after.nodeIds.Perm (nodeId :: before.nodeIds) := by
    refine (List.perm_ext_iff_of_nodup raise.distinct
      (List.nodup_cons.mpr ⟨fresh, wellFormed.distinct⟩)).mpr fun other => ?_
    rw [raise.nodeIds, List.mem_cons]
  simpa [Accumulator.nodeIds, Accumulator.touchedCount] using same.length_eq

theorem Raised.isHeap (raise : Raised before after nodeId) (wellFormed : WellFormed before)
    (absent : nodeId ∉ before.topHeap) : BinaryHeap.IsHeap (heapKey after) before.topHeap :=
  wellFormed.isHeap.congr fun other member => by
    rw [heapKey, heapKey, raise.others other (fun here => absent (here ▸ member))]

theorem Raised.sink (raise : Raised before after nodeId) (wellFormed : WellFormed before)
    {heapIndex : Nat} (found : before.topHeap[heapIndex]? = some nodeId) :
    HoldsBest after (BinaryHeap.siftDown (accumulatorHeapLess after) before.topHeap.size
      before.topHeap heapIndex) := by
  obtain ⟨inside, here⟩ := Array.getElem?_eq_some_iff.mp found
  have member : nodeId ∈ before.topHeap := here ▸ Array.getElem_mem inside
  have sifted := BinaryHeap.siftDown_perm (accumulatorHeapLess after) before.topHeap.size
    before.topHeap heapIndex
  have known := wellFormed.inside nodeId member
  have order : BinaryHeap.DownOrder (heapKey after) before.topHeap heapIndex := by
    refine BinaryHeap.DownOrder.of_raise wellFormed.isHeap (fun pos different => ?_) ?_
    · rcases Nat.lt_or_ge pos before.topHeap.size with bound | bound
      · have other : before.topHeap[pos] ≠ nodeId := by
          intro same
          have one : pos < before.topHeap.toList.length := by simpa using bound
          have two : heapIndex < before.topHeap.toList.length := by simpa using inside
          have equal : before.topHeap.toList[pos] = before.topHeap.toList[heapIndex] := by
            simp [same, here]
          exact different (wellFormed.heapDistinct.getElem_inj_iff.mp equal)
        simp only [BinaryHeap.keyAt, Array.getElem?_eq_getElem bound, heapKey,
          raise.others _ other]
      · simp [BinaryHeap.keyAt, Array.getElem?_eq_none bound]
    · simp only [BinaryHeap.keyAt, found, heapKey, WithTop.coe_le_coe]
      refine Prod.Lex.toLex_le_toLex.mpr ?_
      rcases raise.raised.lt_or_eq with less | same
      · exact Or.inl less
      · exact Or.inr ⟨same, le_rfl⟩
  have members (other : Nat) : other ∈ BinaryHeap.siftDown (accumulatorHeapLess after)
      before.topHeap.size before.topHeap heapIndex ↔ other ∈ before.topHeap := sifted.mem_iff
  refine ⟨fun other member' => ?_, ?_, ?_, ?_, fun other touched absent worse member' => ?_⟩
  · exact (raise.nodeIds other).mpr (Or.inr (wellFormed.inside other ((members other).mp member')))
  · exact (Array.perm_iff_toList_perm.mp sifted).nodup_iff.mpr wellFormed.heapDistinct
  · exact BinaryHeap.siftDown_isHeap (accumulatorHeapLess_compares after) order inside (by omega)
  · rw [sifted.size_eq, wellFormed.count, raise.capacity, raise.touchedCount_known wellFormed known]
  · rw [members] at absent member'
    have different : other ≠ nodeId := fun same => absent (same ▸ member)
    have old := ((raise.nodeIds other).mp touched).resolve_left different
    rw [raise.others other different]
    refine (wellFormed.outside other old absent worse member').trans ?_
    by_cases same : worse = nodeId
    · exact same ▸ raise.raised
    · exact (raise.others worse same).ge

theorem Raised.enter (raise : Raised before after nodeId) (wellFormed : WellFormed before)
    (absent : nodeId ∉ before.topHeap) (room : before.topHeap.size < before.topHeapCapacity) :
    HoldsBest after (BinaryHeap.push (accumulatorHeapLess after) before.topHeap nodeId) := by
  have fresh : nodeId ∉ before.nodeIds := fun known => absent (wellFormed.full room known)
  have pushed := BinaryHeap.push_perm (accumulatorHeapLess after) before.topHeap nodeId
  have members (other : Nat) : other ∈ BinaryHeap.push (accumulatorHeapLess after) before.topHeap
      nodeId ↔ other = nodeId ∨ other ∈ before.topHeap := by
    rw [← Array.mem_toList_iff, pushed.mem_iff, List.mem_cons, Array.mem_toList_iff]
  refine ⟨fun other member => ?_, ?_, ?_, ?_, fun other touched out => ?_⟩
  · exact (raise.nodeIds other).mpr (((members other).mp member).imp id (wellFormed.inside other))
  · refine pushed.nodup_iff.mpr (List.nodup_cons.mpr ⟨?_, wellFormed.heapDistinct⟩)
    exact fun member => absent (Array.mem_toList_iff.mp member)
  · exact BinaryHeap.push_isHeap (accumulatorHeapLess_compares after)
      (raise.isHeap wellFormed absent) nodeId
  · have size := pushed.length_eq
    have count := wellFormed.count
    rw [raise.capacity, raise.touchedCount_fresh wellFormed fresh]
    simp only [List.length_cons, Array.length_toList] at size
    omega
  · -- every touched node is in the heap
    rw [members, not_or] at out
    have old := ((raise.nodeIds other).mp touched).resolve_left out.1
    exact absurd (wellFormed.full room old) out.2

theorem Raised.displace (raise : Raised before after nodeId) (wellFormed : WellFormed before)
    (absent : nodeId ∉ before.topHeap) (full : before.topHeapCapacity ≤ before.topHeap.size)
    {root : Nat} {rest : List Nat} (split : before.topHeap.toList = root :: rest)
    (better : after.scoreOf root < after.scoreOf nodeId) :
    HoldsBest after
      (BinaryHeap.replaceRoot (accumulatorHeapLess after) before.topHeap nodeId) := by
  have replaced := BinaryHeap.replaceRoot_perm (accumulatorHeapLess after) split nodeId
  have atRoot : before.topHeap[0]? = some root := by rw [← Array.getElem?_toList, split]; rfl
  have oldMembers (other : Nat) : other ∈ before.topHeap ↔ other = root ∨ other ∈ rest := by
    rw [← Array.mem_toList_iff, split, List.mem_cons]
  have members (other : Nat) : other ∈ BinaryHeap.replaceRoot (accumulatorHeapLess after)
      before.topHeap nodeId ↔ other = nodeId ∨ other ∈ rest := by
    rw [← Array.mem_toList_iff, replaced.mem_iff, List.mem_cons]
  have heapDistinct := wellFormed.heapDistinct
  rw [split, List.nodup_cons] at heapDistinct
  have isHeap := raise.isHeap wellFormed absent
  have size : before.topHeap.size = rest.length + 1 := by
    rw [← Array.length_toList, split, List.length_cons]
  have least (other : Nat) (member : other ∈ before.topHeap) :
      after.scoreOf root ≤ after.scoreOf other :=
    score_le_of_key_le (BinaryHeap.root_le_mem isHeap atRoot member)
  refine ⟨fun other member => ?_, ?_, ?_, ?_, fun other touched out worse member => ?_⟩
  · exact (raise.nodeIds other).mpr (((members other).mp member).imp id fun old =>
      wellFormed.inside other ((oldMembers other).mpr (Or.inr old)))
  · refine replaced.nodup_iff.mpr (List.nodup_cons.mpr ⟨fun member => ?_, heapDistinct.2⟩)
    exact absent ((oldMembers nodeId).mpr (Or.inr member))
  · exact BinaryHeap.replaceRoot_isHeap (accumulatorHeapLess_compares after) isHeap (by omega) nodeId
  · have length := replaced.length_eq
    have count := wellFormed.count
    simp only [List.length_cons, Array.length_toList] at length
    rw [raise.capacity]
    by_cases known : nodeId ∈ before.nodeIds
    · rw [raise.touchedCount_known wellFormed known]
      omega
    · rw [raise.touchedCount_fresh wellFormed known]
      omega
  · rw [members, not_or] at out
    have old := ((raise.nodeIds other).mp touched).resolve_left out.1
    have belowRoot : after.scoreOf other ≤ after.scoreOf root := by
      by_cases here : other = root
      · exact here ▸ le_rfl
      · have outside : other ∉ before.topHeap := by
          rw [oldMembers, not_or]
          exact ⟨here, out.2⟩
        rw [raise.others other out.1, raise.others root (fun same => absent
          (same ▸ (oldMembers root).mpr (Or.inl rfl)))]
        exact wellFormed.outside other old outside root ((oldMembers root).mpr (Or.inl rfl))
    rcases (members worse).mp member with rfl | stays
    · exact belowRoot.trans better.le
    · exact belowRoot.trans (least worse ((oldMembers worse).mpr (Or.inr stays)))

theorem Raised.stay (raise : Raised before after nodeId) (wellFormed : WellFormed before)
    (absent : nodeId ∉ before.topHeap) (full : before.topHeapCapacity ≤ before.topHeap.size)
    (worse : ∀ root, before.topHeap[0]? = some root → after.scoreOf nodeId ≤ after.scoreOf root) :
    HoldsBest after before.topHeap := by
  have isHeap := raise.isHeap wellFormed absent
  refine ⟨fun other member => (raise.nodeIds other).mpr (Or.inr (wellFormed.inside other member)),
    wellFormed.heapDistinct, isHeap, ?_, fun other touched out better member => ?_⟩
  · have count := wellFormed.count
    rw [raise.capacity]
    by_cases known : nodeId ∈ before.nodeIds
    · rw [raise.touchedCount_known wellFormed known]
      exact count
    · rw [raise.touchedCount_fresh wellFormed known]
      omega
  · have different : better ≠ nodeId := fun same => absent (same ▸ member)
    rcases (raise.nodeIds other).mp touched with rfl | old
    · have nonempty : 0 < before.topHeap.size := Array.size_pos_of_mem member
      have atRoot := Array.getElem?_eq_getElem nonempty
      exact (worse _ atRoot).trans
        (score_le_of_key_le (BinaryHeap.root_le_mem isHeap atRoot member))
    · by_cases here : other = nodeId
      · subst here
        have nonempty : 0 < before.topHeap.size := Array.size_pos_of_mem member
        have atRoot := Array.getElem?_eq_getElem nonempty
        exact (worse _ atRoot).trans
          (score_le_of_key_le (BinaryHeap.root_le_mem isHeap atRoot member))
      · rw [raise.others other here, raise.others better different]
        exact wellFormed.outside other old out better member

/-- **Updating the top heap** after a raise restores well-formedness. -/
theorem Raised.updateTopK (raise : Raised before after nodeId) (wellFormed : WellFormed before)
    (threshold : after.threshold = before.threshold) : WellFormed (updateTopK after nodeId) := by
  unfold Scan.updateTopK
  by_cases none : after.topHeapCapacity = 0
  · rw [if_pos none]
    have empty : before.topHeap.size = 0 := by
      rw [wellFormed.count, ← raise.capacity, none, Nat.zero_min]
    have noHeap : after.topHeap = #[] := by
      rw [raise.topHeap]
      exact Array.eq_empty_of_size_eq_zero empty
    refine ⟨raise.distinct, by simp [noHeap], by simp [noHeap], fun pos _ => ?_, ?_, ?_, ?_⟩
    · simp [noHeap, BinaryHeap.keyAt]
    · simp [noHeap, none]
    · simp [noHeap]
    · rw [threshold, wellFormed.threshold]
      simp [refreshThreshold, none, ← raise.capacity]
  · rw [if_neg none]
    refine HoldsBest.wellFormed ?_ raise.distinct
    rw [raise.topHeap]
    cases found : before.topHeap.findIdx? (· == nodeId) with
    | some heapIndex =>
      obtain ⟨inside, here, -⟩ := Array.findIdx?_eq_some_iff_getElem.mp found
      refine raise.sink wellFormed ?_
      rw [Array.getElem?_eq_getElem inside, beq_iff_eq.mp here]
    | none =>
      have absent : nodeId ∉ before.topHeap := by
        intro member
        have missed := Array.findIdx?_eq_none_iff.mp found nodeId member
        simp at missed
      simp only
      split_ifs with room better
      · exact raise.enter wellFormed absent (raise.capacity ▸ room)
      · have full : before.topHeapCapacity ≤ before.topHeap.size :=
          raise.capacity ▸ not_lt.mp room
        rw [raise.capacity] at none
        obtain ⟨root, rest, split⟩ : ∃ root rest, before.topHeap.toList = root :: rest :=
          List.exists_cons_of_length_pos (by rw [Array.length_toList]; omega)
        have atRoot : before.topHeap[0]? = some root := by
          rw [← Array.getElem?_toList, split]; rfl
        rw [atRoot] at better
        exact raise.displace wellFormed absent full split better
      · refine raise.stay wellFormed absent (raise.capacity ▸ not_lt.mp room)
          fun root atRoot => ?_
        rw [atRoot] at better
        exact not_lt.mp better

end Raise

/-- **Raising a score** keeps the accumulator well formed. -/
theorem accumulatorUpdate_wellFormed {acc : Accumulator R} (wellFormed : WellFormed acc)
    (nodeId : Nat) {change : AccumulatorEntry R → AccumulatorEntry R}
    (same : ∀ entry, (change entry).nodeId = entry.nodeId)
    (raises : ∀ entry, entry.score ≤ (change entry).score) :
    WellFormed (accumulatorUpdate acc nodeId change) := by
  unfold accumulatorUpdate
  split_ifs
  · exact wellFormed
  · exact (touchEntry_raised wellFormed nodeId same raises).updateTopK wellFormed rfl

theorem addTermScore_wellFormed {acc : Accumulator R} (wellFormed : WellFormed acc) (nodeId : Nat)
    {score : R} (nonneg : 0 ≤ score) (matchBit : Nat) :
    WellFormed (addTermScore acc nodeId score matchBit) :=
  accumulatorUpdate_wellFormed wellFormed nodeId (fun _ => rfl)
    fun _ => le_add_of_nonneg_right nonneg

/-- The threshold of a full heap: the score of a node of the heap, which holds nodes of at least
that score, the others having at most that score. -/
structure FullHeap (acc : Accumulator R) : Prop where
  root : ∃ nodeId ∈ acc.topHeap, acc.threshold = acc.scoreOf nodeId
  best : ∀ nodeId ∈ acc.topHeap, acc.threshold ≤ acc.scoreOf nodeId
  others : ∀ nodeId ∈ acc.nodeIds, nodeId ∉ acc.topHeap → acc.scoreOf nodeId ≤ acc.threshold

/-- **With `k` nodes touched** the threshold is the `k`-th best score. -/
theorem WellFormed.fullHeap {acc : Accumulator R} (wellFormed : WellFormed acc)
    (positive : 0 < acc.topHeapCapacity) (many : acc.topHeapCapacity ≤ acc.touchedCount) :
    FullHeap acc := by
  have size : acc.topHeap.size = acc.topHeapCapacity := by
    rw [wellFormed.count, min_eq_left many]
  have nonempty : 0 < acc.topHeap.size := by omega
  have atRoot := Array.getElem?_eq_getElem nonempty
  have value : acc.threshold = acc.scoreOf acc.topHeap[0] := by
    rw [wellFormed.threshold, refreshThreshold, if_pos ⟨positive, size⟩, atRoot]
    rfl
  refine ⟨⟨_, Array.getElem_mem nonempty, value⟩, fun nodeId member => ?_,
    fun nodeId touched out => ?_⟩
  · rw [value]
    exact score_le_of_key_le (BinaryHeap.root_le_mem wellFormed.isHeap atRoot member)
  · rw [value]
    exact wellFormed.outside nodeId touched out _ (Array.getElem_mem nonempty)

end TurboHybrid.Scan
