/-
**The results of a scan of the graph.**

A scan collects nodes with their distances: in a bounded heap whose root is the worst one, then
sorted.

* `GraphResult.key`: nodes are ordered by distance, then by id;
* `offerCandidate_keeps`: offered nodes leave the nearest of them in the heap;
* `sortResults_keys`: what the sort returns;
* `nodeMatchesPayload`, `ScanGraph.eligible`: the nodes that may be results.
-/
import TurboHybrid.Library.BoundedHeap
import TurboHybrid.Graph.PayloadRefs
import Mathlib.Data.Prod.Lex

namespace TurboHybrid.Graph.Dense

open Library

/-! ### Results -/

structure GraphResult (Tid D : Type) where
  nodeId : Nat
  heaptid : Tid
  distance : D
  exactScored : Bool
  deriving DecidableEq, Repr

section Results

variable {Tid D : Type} [LinearOrder D]

def GraphResult.key (result : GraphResult Tid D) : D ×ₗ Nat :=
  toLex (result.distance, result.nodeId)

/-- `PgturbohybridGraphResultLess`. -/
def resultLess (a b : GraphResult Tid D) : Bool :=
  if a.distance ≠ b.distance then decide (a.distance < b.distance)
  else decide (a.nodeId < b.nodeId)

/-- `PgturbohybridGraphResultGreater`. -/
def resultGreater (a b : GraphResult Tid D) : Bool :=
  if a.distance ≠ b.distance then decide (a.distance > b.distance)
  else decide (a.nodeId > b.nodeId)

/-- `PgturbohybridGraphResultCompare`. -/
def resultCompare (ra rb : GraphResult Tid D) : Int :=
  if ra.distance < rb.distance then -1
  else if ra.distance > rb.distance then 1
  else (if ra.nodeId > rb.nodeId then 1 else 0) - (if ra.nodeId < rb.nodeId then 1 else 0)

/-- `qsort` by the comparison; different nodes have only one sorted arrangement. -/
def sortResults (results : List (GraphResult Tid D)) : List (GraphResult Tid D) :=
  results.insertionSort fun ra rb => resultCompare ra rb ≤ 0

/-- `PgturbohybridGraphOfferCandidate`. -/
def offerCandidate (target : Nat) (results : Array (GraphResult Tid D))
    (item : GraphResult Tid D) : Array (GraphResult Tid D) :=
  if target = 0 then results else BoundedHeap.offer resultGreater target results item

def nodeIds (results : List (GraphResult Tid D)) : List Nat := results.map GraphResult.nodeId

def keys (results : List (GraphResult Tid D)) : List (D ×ₗ Nat) := results.map GraphResult.key

theorem resultLess_iff (a b : GraphResult Tid D) : resultLess a b = true ↔ a.key < b.key := by
  rw [GraphResult.key, GraphResult.key, Prod.Lex.toLex_lt_toLex, resultLess]
  split_ifs with apart
  · rw [decide_eq_true_iff]
    exact ⟨Or.inl, fun less => less.elim id fun same => absurd same.1 apart⟩
  · rw [decide_eq_true_iff]
    have same : a.distance = b.distance := not_not.mp apart
    exact ⟨fun less => Or.inr ⟨same, less⟩, fun less =>
      less.elim (fun nearer => absurd same nearer.ne) And.right⟩

theorem resultGreater_eq (a b : GraphResult Tid D) : resultGreater a b = resultLess b a := by
  rw [resultGreater, resultLess]
  simp only [ne_comm, gt_iff_lt]

theorem resultGreater_compares :
    BinaryHeap.Compares (OrderDual.toDual ∘ GraphResult.key)
      (resultGreater : GraphResult Tid D → GraphResult Tid D → Bool) := by
  intro a b
  rw [resultGreater_eq]
  exact resultLess_iff b a

theorem resultCompare_le (ra rb : GraphResult Tid D) :
    resultCompare ra rb ≤ 0 ↔ ra.key ≤ rb.key := by
  rw [GraphResult.key, GraphResult.key, Prod.Lex.toLex_le_toLex, resultCompare]
  rcases lt_trichotomy ra.distance rb.distance with less | same | more
  · rw [if_pos less]
    exact ⟨fun _ => Or.inl less, fun _ => by decide⟩
  · rw [if_neg same.not_lt, if_neg same.not_gt]
    have order : ((if ra.nodeId > rb.nodeId then (1 : Int) else 0) -
        (if ra.nodeId < rb.nodeId then 1 else 0) ≤ 0) ↔ ra.nodeId ≤ rb.nodeId := by
      split_ifs <;> omega
    rw [order]
    exact ⟨fun below => Or.inr ⟨same, below⟩, fun below =>
      below.elim (fun less => absurd same less.ne) And.right⟩
  · rw [if_neg more.not_gt, if_pos more]
    refine ⟨fun wrong => absurd wrong (by decide), fun below => ?_⟩
    exact below.elim (fun less => absurd less more.not_gt) fun same => absurd same.1 more.ne'

/-! ### Sorting -/

theorem sortResults_perm (results : List (GraphResult Tid D)) :
    (sortResults results).Perm results :=
  List.perm_insertionSort _ results

theorem sortResults_keys (results : List (GraphResult Tid D)) :
    keys (sortResults results) = (keys results).insertionSort (· ≤ ·) := by
  rw [keys, sortResults, keys]
  exact List.map_insertionSort _ _ GraphResult.key results fun a _ b _ => resultCompare_le a b

/-! ### The bounded heap -/

/-- **Offers keep the nearest.** -/
theorem offerCandidate_keeps {target : Nat} (positive : 0 < target)
    {seen : List (GraphResult Tid D)} {heap : Array (GraphResult Tid D)}
    (keeps : BoundedHeap.KeepsBy GraphResult.key target seen heap)
    (items : List (GraphResult Tid D)) :
    BoundedHeap.KeepsBy GraphResult.key target (seen ++ items)
      (items.foldl (offerCandidate target) heap) := by
  have same : (offerCandidate target : Array (GraphResult Tid D) → _ → _) =
      BoundedHeap.offer resultGreater target := by
    funext results item
    exact if_neg positive.ne'
  rw [same]
  exact BoundedHeap.offerAll_keepsBy resultGreater_compares positive keeps items

end Results

/-! ### The graph that a scan reads -/

/-- `PGTURBOHYBRID_GRAPH_MAX_PAYLOADS`. -/
def maxPayloads : Int := 16

/-- The condition on a payload; a negative slot stands for none. -/
structure PayloadFilter where
  payloadSlot : Int
  payloadValue : Int

/-- `PgturbohybridGraphNodeMatchesPayload`. -/
def nodeMatchesPayload (node : PayloadRefs.ScanNode) (filter : PayloadFilter) : Bool :=
  if filter.payloadSlot < 0 then true
  else if maxPayloads ≤ filter.payloadSlot then false
  else
    match node.payloads with
    | none => false
    | some payloads =>
      if node.payloadMask.getLsbD filter.payloadSlot.toNat = false then false
      else decide (payloads filter.payloadSlot.toNat = filter.payloadValue)

/-- What a scan reads: the nodes with the pages that can be loaded, the lists of the lowest level,
and the score of a node against the query. -/
structure ScanGraph (Tid D : Type) where
  tqNodeCount : Nat
  nodes : Nat → PayloadRefs.ScanNode
  heaptid : Nat → Tid
  loadCodePage : Nat → Bool
  loadAdjPage : Nat → Bool
  neighbors : Nat → List Nat
  scoreNode : Nat → D

section Eligible

variable {Tid D : Type} (graph : ScanGraph Tid D) (filter : PayloadFilter)

/-- A node that can be loaded, is live and has the payload. -/
def ScanGraph.eligible (nodeId : Nat) : Bool :=
  graph.loadCodePage nodeId && !(graph.nodes nodeId).dead &&
    nodeMatchesPayload (graph.nodes nodeId) filter

def ScanGraph.scored (nodeId : Nat) : GraphResult Tid D :=
  ⟨nodeId, graph.heaptid nodeId, graph.scoreNode nodeId, false⟩

theorem nodeIds_scored (batch : List Nat) : nodeIds (batch.map graph.scored) = batch := by
  rw [nodeIds, List.map_map]
  exact List.map_id batch

end Eligible

end TurboHybrid.Graph.Dense
