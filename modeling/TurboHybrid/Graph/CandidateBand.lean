/-
**Filling the band of candidates.**

Where a scan's search found fewer nodes than wanted, the band is filled from all nodes: those that
the references of the payload name, or each node in turn. The nodes that are no results yet are
scored and offered to the heap of the results, so that a far result makes place for a nearer node.

* `bandNodes_eq`: both enumerations offer the same nodes in the same order;
* `fillCandidateBand_spec`: what the filled band is;
* `fillCandidateBand_evicts`: a selected candidate can lose its place.
-/
import TurboHybrid.Graph.Results

set_option linter.unusedSectionVars false

namespace TurboHybrid.Graph.Dense

open Library PayloadRefs

variable {Tid D : Type} [LinearOrder D]

/-! ### The band -/

/-- The nodes that are enumerated; none where the payload has no reference. An empty list of
references stands for references that were not built. -/
def bandNodes (tqNodeCount : Nat) (storage : PayloadStorage) (filter : PayloadFilter) :
    Option (List Nat) :=
  match payloadRefRange storage filter.payloadSlot filter.payloadValue with
  | some _ => some (rangeNodes storage filter.payloadSlot filter.payloadValue)
  | none =>
    if 0 ≤ filter.payloadSlot ∧ storage.payloadRefs ≠ [] then none
    else some (List.range tqNodeCount)

variable (graph : ScanGraph Tid D) (filter : PayloadFilter)

def unselected (results : Array (GraphResult Tid D)) (nodeId : Nat) : Bool :=
  decide (nodeId ∉ nodeIds results.toList) && graph.eligible filter nodeId

/-- **`PgturbohybridGraphFillCandidateBand`.** The nodes are scored in batches and offered in their
order. -/
def fillCandidateBand (storage : PayloadStorage) (resultTarget : Nat)
    (results : Array (GraphResult Tid D)) : Array (GraphResult Tid D) :=
  if resultTarget ≤ results.size ∨ resultTarget = 0 then results
  else
    match bandNodes graph.tqNodeCount storage filter with
    | none => results
    | some band =>
      ((band.filter (unselected graph filter results)).map graph.scored).foldl
        (offerCandidate resultTarget) results

/-- The nodes that can be added, in the order of their ids. -/
def remaining (results : Array (GraphResult Tid D)) : List Nat :=
  (List.range graph.tqNodeCount).filter (unselected graph filter results)

/-! ### Both enumerations -/

/-- **What a scan knows of payloads**: the stored nodes are those of the graph; references, where
they were built, are those of the nodes that can be loaded; a filter is for a column that exists. -/
structure Referenced (info : PayloadMeta) (storage : PayloadStorage) : Prop where
  count : storage.nodes.length = graph.tqNodeCount
  nodes : ∀ nodeId < graph.tqNodeCount, storage.nodes[nodeId]? = some (graph.nodes nodeId)
  refs : storage.payloadRefs ≠ [] → Indexed info storage ∧
    ∀ nodeId < graph.tqNodeCount, graph.loadCodePage nodeId = (graph.nodes nodeId).loaded
  arena : ∀ nodeId, (graph.nodes nodeId).payloads ≠ none → 0 < info.tqPayloadBytes
  column : 0 ≤ filter.payloadSlot → filter.payloadSlot < info.tqPayloadCount ∧
    (info.tqPayloadCount : Int) ≤ maxPayloads

variable {graph filter} {info : PayloadMeta} {storage : PayloadStorage}

theorem nodeMatchesPayload_iff (known : Referenced graph filter info storage)
    (slot : 0 ≤ filter.payloadSlot) (nodeId : Nat) :
    nodeMatchesPayload (graph.nodes nodeId) filter = true ↔
      (graph.nodes nodeId).payloadIn info filter.payloadSlot = some filter.payloadValue := by
  obtain ⟨column, few⟩ := known.column slot
  have arena := known.arena nodeId
  rw [nodeMatchesPayload, if_neg (by omega), if_neg (by omega), ScanNode.payloadIn]
  cases payloads : (graph.nodes nodeId).payloads with
  | none => simp
  | some values =>
    have bytes : 0 < info.tqPayloadBytes := arena (payloads ▸ Option.some_ne_none values)
    simp [bytes, slot, column]

theorem mem_nodesWithPayload {nodes : List ScanNode} {payloadSlot payloadValue : Int}
    {nodeId : Nat} : nodeId ∈ nodesWithPayload info nodes payloadSlot payloadValue ↔
      ∃ node, nodes[nodeId]? = some node ∧ node.loaded = true ∧ node.dead = false ∧
        node.payloadIn info payloadSlot = some payloadValue := by
  simp only [nodesWithPayload, List.mem_map, List.mem_filter, Prod.exists, Bool.and_eq_true,
    Bool.not_eq_true', decide_eq_true_eq, List.mem_zipIdx_iff_getElem?]
  constructor
  · rintro ⟨node, index, ⟨found, ⟨loaded, alive⟩, value⟩, rfl⟩
    exact ⟨node, found, loaded, alive, value⟩
  · rintro ⟨node, found, loaded, alive, value⟩
    exact ⟨node, nodeId, ⟨found, ⟨loaded, alive⟩, value⟩, rfl⟩

/-- **The references of a payload** name the nodes that may be results, in the order of their
ids. -/
theorem rangeNodes_eligible (known : Referenced graph filter info storage)
    (slot : 0 ≤ filter.payloadSlot) (built : storage.payloadRefs ≠ []) :
    rangeNodes storage filter.payloadSlot filter.payloadValue =
      (List.range graph.tqNodeCount).filter (graph.eligible filter) := by
  obtain ⟨indexed, loads⟩ := known.refs built
  rw [rangeNodes_eq indexed]
  refine List.Perm.eq_of_pairwise' (r := (· ≤ ·)) ?_ ?_ ?_
  · exact (nodesWithPayload_ascending _ _ _ _).imp le_of_lt
  · exact (List.pairwise_lt_range.filter _).imp le_of_lt
  · refine (List.perm_ext_iff_of_nodup ?_ (List.nodup_range.filter _)).mpr fun nodeId => ?_
    · exact (nodesWithPayload_ascending _ _ _ _).imp ne_of_lt
    · rw [mem_nodesWithPayload, List.mem_filter, List.mem_range]
      constructor
      · rintro ⟨node, found, loaded, alive, value⟩
        have inside : nodeId < graph.tqNodeCount :=
          known.count ▸ (List.getElem?_eq_some_iff.mp found).1
        obtain rfl := Option.some.inj ((known.nodes nodeId inside).symm.trans found)
        refine ⟨inside, ?_⟩
        simp [ScanGraph.eligible, loads nodeId inside, loaded, alive,
          (nodeMatchesPayload_iff known slot nodeId).mpr value]
      · rintro ⟨inside, eligible⟩
        simp only [ScanGraph.eligible, Bool.and_eq_true, Bool.not_eq_true', loads nodeId inside,
          nodeMatchesPayload_iff known slot] at eligible
        exact ⟨_, known.nodes nodeId inside, eligible.1.1, eligible.1.2, eligible.2⟩

/-- **Both enumerations** offer the same nodes in the same order: those that remain. -/
theorem bandNodes_eq (known : Referenced graph filter info storage)
    (results : Array (GraphResult Tid D)) :
    ((bandNodes graph.tqNodeCount storage filter).getD []).filter
      (unselected graph filter results) = remaining graph filter results := by
  have absent (none_ : payloadRefRange storage filter.payloadSlot filter.payloadValue = none) :
      rangeNodes storage filter.payloadSlot filter.payloadValue = [] := by
    rw [rangeNodes, none_]
  have part (slot : 0 ≤ filter.payloadSlot) (built : storage.payloadRefs ≠ []) :
      (rangeNodes storage filter.payloadSlot filter.payloadValue).filter
        (unselected graph filter results) = remaining graph filter results := by
    rw [rangeNodes_eligible known slot built, List.filter_filter, remaining]
    refine List.filter_congr fun nodeId _ => ?_
    rw [unselected, Bool.and_assoc, Bool.and_self]
  rw [bandNodes]
  cases range : payloadRefRange storage filter.payloadSlot filter.payloadValue with
  | some found =>
    have guard : ¬(filter.payloadSlot < 0 ∨ storage.payloadRefs.length = 0) := fun early => by
      rw [payloadRefRange, if_pos early] at range
      cases range
    rw [not_or, not_lt, List.length_eq_zero_iff] at guard
    exact part guard.1 guard.2
  | none =>
    dsimp only
    split_ifs with given
    · have same := part given.1 given.2
      rw [absent range] at same
      exact same
    · rfl

theorem fillCandidateBand_eq (known : Referenced graph filter info storage) (resultTarget : Nat)
    (results : Array (GraphResult Tid D)) :
    fillCandidateBand graph filter storage resultTarget results =
      if resultTarget ≤ results.size ∨ resultTarget = 0 then results
      else ((remaining graph filter results).map graph.scored).foldl (offerCandidate resultTarget)
        results := by
  rw [fillCandidateBand, ← bandNodes_eq known results]
  cases bandNodes graph.tqNodeCount storage filter <;> rfl

/-! ### The filled band -/

theorem keepsBy_self {target : Nat} {results : Array (GraphResult Tid D)}
    (heap : BinaryHeap.IsHeap (OrderDual.toDual ∘ GraphResult.key) results)
    (room : results.size ≤ target) :
    BoundedHeap.KeepsBy GraphResult.key target results.toList results := by
  refine ⟨⟨⟨[], ?_, fun _ _ _ none_ => absurd none_ List.not_mem_nil⟩, ?_⟩,
    List.Subperm.refl _, heap⟩
  · rw [List.append_nil]
  · rw [List.length_map, Array.length_toList, min_eq_right room]

theorem nodeIds_remaining {results : Array (GraphResult Tid D)}
    (distinct : (nodeIds results.toList).Nodup) :
    (nodeIds (results.toList ++ (remaining graph filter results).map graph.scored)).Nodup := by
  rw [nodeIds, List.map_append, ← nodeIds, ← nodeIds, nodeIds_scored]
  refine distinct.append (List.nodup_range.filter _) fun nodeId old new => ?_
  have fresh := (List.mem_filter.mp new).2
  rw [unselected, Bool.and_eq_true, decide_eq_true_eq] at fresh
  exact fresh.1 old

/-- **What the filled band is.** It holds each node once, all of them live with the payload, as many
as wanted or all there are: the nearest of the selected candidates and the remaining nodes together.
It is the same whether the nodes are enumerated by references or one by one, and a heap again. -/
theorem fillCandidateBand_spec (known : Referenced graph filter info storage)
    {results : Array (GraphResult Tid D)} (resultTarget : Nat)
    (heap : BinaryHeap.IsHeap (OrderDual.toDual ∘ GraphResult.key) results)
    (distinct : (nodeIds results.toList).Nodup)
    (selected : ∀ result ∈ results.toList, graph.eligible filter result.nodeId = true) :
    let band := fillCandidateBand graph filter storage resultTarget results
    (nodeIds band.toList).Nodup ∧
    (∀ result ∈ band.toList, graph.eligible filter result.nodeId = true) ∧
    (resultTarget ≤ results.size → band = results) ∧
    (results.size < resultTarget →
      band.size = min resultTarget (results.size + (remaining graph filter results).length) ∧
      keys (sortResults band.toList) = TopK.best resultTarget
        (keys (results.toList ++ (remaining graph filter results).map graph.scored)) ∧
      BinaryHeap.IsHeap (OrderDual.toDual ∘ GraphResult.key) band) ∧
    band = fillCandidateBand graph filter { storage with payloadRefs := [] } resultTarget
      results := by
  intro band
  have plain : Referenced graph filter info { storage with payloadRefs := [] } :=
    ⟨known.count, known.nodes, fun built => absurd rfl built, known.arena, known.column⟩
  have filled : band = _ := fillCandidateBand_eq known resultTarget results
  have same : band = fillCandidateBand graph filter { storage with payloadRefs := [] }
      resultTarget results := filled.trans (fillCandidateBand_eq plain resultTarget results).symm
  rcases Nat.lt_or_ge results.size resultTarget with room | full
  · have positive : 0 < resultTarget := Nat.zero_lt_of_lt room
    rw [if_neg (by omega)] at filled
    have keeps := offerCandidate_keeps positive (keepsBy_self heap room.le)
      ((remaining graph filter results).map graph.scored)
    rw [← filled] at keeps
    have part := keeps.part
    refine ⟨?_, fun result member => ?_, fun full => absurd full (Nat.not_le.mpr room),
      fun _ => ⟨?_, ?_, keeps.isHeap⟩, same⟩
    · obtain ⟨kept, perm, sublist⟩ := part
      exact (perm.map GraphResult.nodeId).nodup_iff.mp
        ((nodeIds_remaining distinct).sublist (sublist.map _))
    · rcases List.mem_append.mp (part.subset member) with old | new
      · exact selected result old
      · obtain ⟨nodeId, listed, rfl⟩ := List.mem_map.mp new
        have fresh := (List.mem_filter.mp listed).2
        rw [unselected, Bool.and_eq_true] at fresh
        exact fresh.2
    · have count := keeps.selects.count
      rwa [List.length_map, List.length_map, Array.length_toList, List.length_append,
        Array.length_toList, List.length_map] at count
    · rw [sortResults_keys]
      exact keeps.selects.sort_eq
  · rw [if_pos (Or.inl full)] at filled
    rw [filled]
    exact ⟨distinct, selected, fun _ => rfl, fun room => absurd full (Nat.not_le.mpr room),
      filled ▸ same⟩

/-! ### A selected candidate that loses its place -/

/-- Three live nodes without payloads, the later ones nearer. -/
def threeNodes : ScanGraph Unit Nat :=
  { tqNodeCount := 3
    nodes := fun _ => ⟨true, false, none, 0⟩
    heaptid := fun _ => ()
    loadCodePage := fun _ => true
    loadAdjPage := fun _ => true
    neighbors := fun _ => []
    scoreNode := fun nodeId => 10 - nodeId }

def threeStored : PayloadStorage := ⟨List.replicate 3 ⟨true, false, none, 0⟩, []⟩

/-- The band of two has no place for the selected node 0 at the distance 10. -/
theorem fillCandidateBand_evicts :
    nodeIds (sortResults (fillCandidateBand threeNodes ⟨-1, 0⟩ threeStored 2
      #[⟨0, (), 10, false⟩]).toList) = [2, 1] := by
  decide

theorem threeStored_referenced : Referenced threeNodes ⟨-1, 0⟩ ⟨0, 0⟩ threeStored := by
  refine ⟨rfl, fun nodeId inside => ?_, fun built => absurd rfl built,
    fun _ some_ => absurd rfl some_, fun slot => absurd slot (by decide)⟩
  rw [threeStored, List.getElem?_replicate]
  exact if_pos inside

theorem fillCandidateBand_spec_three :
    keys (sortResults (fillCandidateBand threeNodes ⟨-1, 0⟩ threeStored 2
        #[⟨0, (), 10, false⟩]).toList) =
      TopK.best 2 [toLex (10, 0), toLex (9, 1), toLex (8, 2)] :=
  have single : BinaryHeap.IsHeap (OrderDual.toDual ∘ GraphResult.key)
      #[(⟨0, (), 10, false⟩ : GraphResult Unit Nat)] :=
    BinaryHeap.push_isHeap resultGreater_compares
      (BoundedHeap.keepsBy_empty GraphResult.key 2).isHeap ⟨0, (), 10, false⟩
  ((fillCandidateBand_spec threeStored_referenced 2 single (by decide) (by decide)).2.2.2.1
    (by decide)).2.1

end TurboHybrid.Graph.Dense
