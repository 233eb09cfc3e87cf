/-
**The top heap of a running query.**

A query adds scores to its nodes in any order, to nodes in the top heap and to nodes outside it.
Whatever the storage holds from earlier queries:

* `modelCalls_scores`: a node's score is the sum of what was added to it;
* `runQuery_topHeap`: the heap holds the nodes with the largest scores, each entry knows its place
  there, and the threshold is the `k`-th largest score once `k` nodes have one.
-/
import TurboHybrid.Scan.AccumulatorStorage
import TurboHybrid.Scan.Exhaustive

set_option linter.unusedSectionVars false

namespace TurboHybrid.Scan

open TurboHybrid.Library

universe u

variable {R : Type u} [Field R] [LinearOrder R] [IsStrictOrderedRing R]

/-! ### What the calls add -/

section Calls

variable {nodeCount : Nat}

def addedScore (calls : List (TermScoreCall R nodeCount)) (nodeId : Nat) : R :=
  ((calls.filter fun call => decide (call.nodeId.val = nodeId)).map TermScoreCall.score).sum

theorem addedScore_cons (call : TermScoreCall R nodeCount) (rest : List (TermScoreCall R nodeCount))
    (nodeId : Nat) : addedScore (call :: rest) nodeId =
      (if call.nodeId.val = nodeId then call.score else 0) + addedScore rest nodeId := by
  unfold addedScore
  by_cases here : call.nodeId.val = nodeId
  · rw [if_pos here, List.filter_cons_of_pos (by simpa using here), List.map_cons, List.sum_cons]
  · rw [if_neg here, List.filter_cons_of_neg (by simpa using here), zero_add]

/-- The accumulator after the calls, told from the one before them. -/
structure AfterCalls (before : Accumulator R) (calls : List (TermScoreCall R nodeCount))
    (after : Accumulator R) : Prop where
  wellFormed : (∀ call ∈ calls, 0 ≤ call.score) → WellFormed before → WellFormed after
  capacity : after.topHeapCapacity = before.topHeapCapacity
  nodeIds : ∀ nodeId, nodeId ∈ after.nodeIds ↔
    nodeId ∈ before.nodeIds ∨ ∃ call ∈ calls, call.nodeId.val = nodeId
  scores : ∀ nodeId, after.scoreOf nodeId = before.scoreOf nodeId + addedScore calls nodeId

/-- **The calls** raise the scores of their nodes and leave the accumulator well formed. -/
theorem modelCalls_scores (calls : List (TermScoreCall R nodeCount)) {acc : Accumulator R}
    (fits : acc.Fits nodeCount) : AfterCalls acc calls (modelCalls acc calls) := by
  induction calls generalizing acc with
  | nil => exact ⟨fun _ kept => kept, rfl, by simp [modelCalls], by simp [modelCalls, addedScore]⟩
  | cons call rest ih =>
    have inside := call.nodeId.isLt
    have later : (addTermScore acc call.nodeId call.score call.matchBit).Fits nodeCount :=
      addTermScore_fits fits call.score call.matchBit
    have run := ih later
    refine ⟨fun nonneg kept => ?_, run.capacity.trans (accumulatorUpdate_topHeapCapacity ..),
      fun nodeId => (run.nodeIds nodeId).trans ?_, fun nodeId => (run.scores nodeId).trans ?_⟩
    · refine run.wellFormed (fun other member => nonneg other (List.mem_cons_of_mem _ member)) ?_
      exact addTermScore_wellFormed kept _ (nonneg call List.mem_cons_self) _
    · rw [mem_addTermScore_nodeIds fits inside]
      simp only [List.mem_cons, exists_eq_or_imp]
      tauto
    · rw [addTermScore_scoreOf fits inside, addedScore_cons, add_assoc]

end Calls

/-! ### The queries before -/

section Queries

variable (table : HashTable (StoredEntry R))

def storageAfter (storage : DenseStorage R) (queries : List (AccumulatorQuery R)) :
    DenseStorage R :=
  queries.foldl (fun storage query => keptStorage table storage (runQuery table storage query))
    storage

variable {table}

theorem storageAfter_past {storage : DenseStorage R} (past : storage.Past)
    (queries : List (AccumulatorQuery R)) : (storageAfter table storage queries).Past := by
  induction queries generalizing storage with
  | nil => exact past
  | cons query rest ih => exact ih (runQuery_spec past query).2.2

/-! ### The top heap -/

/-- The `k`-th largest of some scores. -/
def kthLargest (k : Nat) (scores : List R) : Option R := (scores.insertionSort (· ≥ ·))[k - 1]?

/-- **The top heap of a query's accumulator.** -/
structure HoldsLargest (acc : StoredAccumulator table) (query : AccumulatorQuery R) : Prop where
  touched : ∀ nodeId, nodeId ∈ acc.touched ↔ ∃ call ∈ query.calls, call.nodeId.val = nodeId
  scores : ∀ nodeId ∈ acc.touched, acc.scoreAt nodeId = addedScore query.calls nodeId
  distinct : acc.topHeap.toList.Nodup
  inside : ∀ nodeId ∈ acc.topHeap, nodeId ∈ acc.touched
  count : acc.topHeap.size = min query.topK acc.touched.length
  largest : ∀ nodeId ∈ acc.touched, nodeId ∉ acc.topHeap → ∀ other ∈ acc.topHeap,
    acc.scoreAt nodeId ≤ acc.scoreAt other
  placed : ∀ nodeId ∈ acc.touched, ∀ pos,
    (acc.slots.read nodeId).heapIndex = some pos ↔ acc.topHeap[pos]? = some nodeId
  threshold : 0 < query.topK → query.topK ≤ acc.touched.length →
    kthLargest query.topK (acc.touched.map acc.scoreAt) = some acc.threshold

variable {acc : StoredAccumulator table}

theorem Consistent.nodeIds_model (consistent : acc.Consistent) : acc.model.nodeIds = acc.touched := by
  unfold Accumulator.nodeIds StoredAccumulator.model
  rw [List.map_map]
  exact (List.map_congr_left consistent.ids).trans (List.map_id' _)

theorem threshold_kthLargest {model : Accumulator R} (wellFormed : WellFormed model)
    (positive : 0 < model.topHeapCapacity) (many : model.topHeapCapacity ≤ model.touchedCount) :
    kthLargest model.topHeapCapacity (model.nodeIds.map model.scoreOf) = some model.threshold := by
  obtain ⟨⟨root, inHeap, value⟩, best, others⟩ := wellFormed.fullHeap positive many
  have contained : model.topHeap.toList ⊆ model.nodeIds := fun nodeId member =>
    wellFormed.inside nodeId (Array.mem_toList_iff.mp member)
  obtain ⟨ordered, same, sublist⟩ := List.subperm_of_subset wellFormed.heapDistinct contained
  obtain ⟨rest, split⟩ := sublist.exists_perm_append
  have nodes : model.nodeIds.Perm (model.topHeap.toList ++ rest) :=
    split.trans (same.append_right rest)
  have apart := (List.nodup_append.mp (nodes.nodup wellFormed.distinct)).2.2
  have chosen : (model.topHeap.toList.map model.scoreOf).length = model.topHeapCapacity := by
    rw [List.length_map, Array.length_toList, wellFormed.count, min_eq_left many]
  have scores := nodes.map model.scoreOf
  rw [List.map_append] at scores
  rw [← chosen]
  refine @TopK.sort_getElem_of_split Rᵒᵈ _ _ _ _ model.threshold scores ?_ ?_ ?_
  · rw [value]
    exact List.mem_map_of_mem (Array.mem_toList_iff.mpr inHeap)
  · intro score member
    obtain ⟨nodeId, held, rfl⟩ := List.mem_map.mp member
    exact best nodeId (Array.mem_toList_iff.mp held)
  · intro score member
    obtain ⟨nodeId, left, rfl⟩ := List.mem_map.mp member
    refine others nodeId (nodes.mem_iff.mpr (List.mem_append_right _ left)) fun held => ?_
    exact apart nodeId (Array.mem_toList_iff.mpr held) nodeId left rfl

/-- **The top heap of every query**, after any scores in any order and whatever queries the backend
ran before. -/
theorem runQuery_topHeap (table : HashTable (StoredEntry R)) (memory : Nat → StoredEntry R)
    (earlier : List (AccumulatorQuery R)) (query : AccumulatorQuery R)
    (nonneg : ∀ call ∈ query.calls, 0 ≤ call.score) :
    HoldsLargest (runQuery table (storageAfter table (emptyStorage memory) earlier) query) query := by
  have empty : (emptyStorage memory).Past := fun _ inside => absurd inside (Nat.not_lt_zero _)
  obtain ⟨consistent, model, -⟩ :=
    @runQuery_spec _ _ _ _ table _ (storageAfter_past empty earlier) query
  have after := modelCalls_scores query.calls
    (accumulatorInit_fits (R := R) .hash 0 query.nodeCount query.topK)
  rw [← model] at after
  generalize runQuery table _ query = acc at consistent after ⊢
  have wellFormed := after.wellFormed nonneg (accumulatorInit_wellFormed ..)
  have nodeIds := Consistent.nodeIds_model consistent
  have capacity : acc.model.topHeapCapacity = query.topK := after.capacity
  have count : acc.model.touchedCount = acc.touched.length := List.length_map ..
  have score (nodeId : Nat) (known : nodeId ∈ acc.touched) :
      acc.model.scoreOf nodeId = acc.scoreAt nodeId := consistent.scoreOf_model known
  refine ⟨fun nodeId => ?_, fun nodeId known => ?_, wellFormed.heapDistinct, consistent.inside, ?_,
    fun nodeId known out other member => ?_, consistent.placed, fun positive many => ?_⟩
  · rw [← nodeIds, after.nodeIds]
    simp [accumulatorInit, Accumulator.nodeIds]
  · rw [← score nodeId known, after.scores]
    exact zero_add _
  · rw [← capacity, ← count]
    exact wellFormed.count
  · rw [← score nodeId known, ← score other (consistent.inside other member)]
    exact wellFormed.outside nodeId (nodeIds ▸ known) out other member
  · rw [← capacity] at positive many ⊢
    rw [← count] at many
    have ranked := threshold_kthLargest wellFormed positive many
    rw [nodeIds, List.map_congr_left score] at ranked
    exact ranked

end Queries

/-- Two nodes of which the second overtakes the first. -/
theorem runQuery_topHeap_pair :
    HoldsLargest (runQuery (HashTable.ofFunction (StoredEntry ℚ))
      (storageAfter (HashTable.ofFunction (StoredEntry ℚ)) (emptyStorage freshEntry)
        [pairQuery .hash]) (pairQuery .dense)) (pairQuery .dense) :=
  runQuery_topHeap _ _ _ _ (by
    intro call member
    rcases List.mem_cons.mp member with rfl | member
    · exact zero_le_one
    · rw [List.mem_singleton.mp member]
      exact zero_le_two)

end TurboHybrid.Scan
