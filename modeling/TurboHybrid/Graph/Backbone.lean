/-
**The backbone of the lowest level.**

A build may join the nodes in the order of their ids: each takes the next one and the previous one
into its list. A full list gives up its farthest neighbour outside the backbone.

* `worstOutsideBackbone_spec`: a full list has such a neighbour;
* `forceNeighbor_keeps`, `forceNeighbor_adds`: an edge of the backbone is added and none is lost;
* `backbone_reaches`: with the backbone, in one segment, every node is reached from every other;
* `segments_disconnected`: a build in two segments leaves its nodes apart.
-/
import Mathlib.Logic.Relation
import TurboHybrid.Graph.BuildEdges

set_option linter.unusedSectionVars false

namespace TurboHybrid.Graph.Build

open Library

variable {D : Type} [LinearOrder D]

/-! ### The neighbour that is given up -/

section Force

variable {nodes : BuildNodes D} {lists : BuildLists D} {src dst : Nat} {items : List (D × Nat)}

/-- **The farthest neighbour outside the backbone**, if there is one. -/
theorem worstOutsideBackbone_spec (nodes : BuildNodes D) (src : Nat) (items : List (D × Nat)) :
    (∀ slot, worstOutsideBackbone nodes src items = some slot →
      ∃ item, items[slot]? = some item ∧ isBackboneNeighbor nodes src item.2 = false) ∧
    (worstOutsideBackbone nodes src items = none →
      ∀ neighbor ∈ names items, isBackboneNeighbor nodes src neighbor = true) := by
  have run (count : Nat) : count ≤ items.length → ∀ worst,
      (List.range count).foldl (fun worst slot =>
        if (items[slot]?.any fun item => !isBackboneNeighbor nodes src item.2 &&
            worst.all fun chosen =>
              items[chosen]?.any fun other => decide (other.1 < item.1)) = true then some slot
        else worst) none = worst →
      (∀ slot, worst = some slot →
        ∃ item, items[slot]? = some item ∧ isBackboneNeighbor nodes src item.2 = false) ∧
      (worst = none → ∀ slot < count, ∀ item, items[slot]? = some item →
        isBackboneNeighbor nodes src item.2 = true) := by
    induction count with
    | zero =>
      rintro - worst rfl
      exact ⟨fun slot none_ => (by cases none_), fun _ slot before =>
        absurd before (Nat.not_lt_zero slot)⟩
    | succ count ih =>
      intro inside worst result
      obtain ⟨chosen, all⟩ := ih (Nat.le_of_succ_le inside) _ rfl
      rw [List.range_succ, List.foldl_append, List.foldl_cons, List.foldl_nil] at result
      generalize (List.range count).foldl _ none = before at result chosen all
      have here : items[count]? = some items[count] := List.getElem?_eq_getElem inside
      rw [here, Option.any_some] at result
      cases before with
      | none =>
        rw [Option.all_none, Bool.and_true] at result
        split_ifs at result with outside
        · subst result
          refine ⟨fun slot same => ?_, fun none_ => by cases none_⟩
          rw [← Option.some.inj same]
          exact ⟨_, here, by simpa using outside⟩
        · subst result
          refine ⟨chosen, fun _ slot before item at_ => ?_⟩
          rcases Nat.lt_succ_iff_lt_or_eq.mp before with earlier | rfl
          · exact all rfl slot earlier item at_
          · rw [here] at at_
            rw [← Option.some.inj at_]
            simpa using outside
      | some first =>
        split_ifs at result with outside
        · subst result
          refine ⟨fun slot same => ?_, fun none_ => by cases none_⟩
          rw [← Option.some.inj same]
          rw [Bool.and_eq_true] at outside
          exact ⟨_, here, by simpa using outside.1⟩
        · subst result
          exact ⟨chosen, fun none_ => by cases none_⟩
  obtain ⟨chosen, all⟩ := run items.length le_rfl _ rfl
  refine ⟨chosen, fun none_ neighbor member => ?_⟩
  obtain ⟨item, listed, rfl⟩ := List.mem_map.mp member
  obtain ⟨slot, at_⟩ := List.getElem?_of_mem listed
  exact all none_ slot (List.getElem?_eq_some_iff.mp at_).1 item at_

theorem mem_backbone (nodes : BuildNodes D) (src neighbor : Nat)
    (backbone : isBackboneNeighbor nodes src neighbor = true) :
    neighbor ∈ [src - 1, src + 1] := by
  rcases of_decide_eq_true backbone with ⟨-, same⟩ | ⟨-, same⟩
  · exact List.mem_cons.mpr (.inl same)
  · exact List.mem_cons_of_mem _ (List.mem_singleton.mpr same)

/-- **A full list** holds a neighbour outside the backbone. -/
theorem worstOutsideBackbone_full (list : ListSound nodes src 0 items)
    (full : ¬items.length < levelM nodes.m 0) :
    ∃ slot item, worstOutsideBackbone nodes src items = some slot ∧ items[slot]? = some item ∧
      isBackboneNeighbor nodes src item.2 = false := by
  obtain ⟨chosen, all⟩ := worstOutsideBackbone_spec nodes src items
  cases worst : worstOutsideBackbone nodes src items with
  | some slot =>
    obtain ⟨item, here, outside⟩ := chosen slot worst
    exact ⟨slot, item, rfl, here, outside⟩
  | none =>
    have inside : names items ⊆ [src - 1, src + 1] := fun neighbor member =>
      mem_backbone nodes src neighbor (all worst neighbor member)
    have few := (list.nodup.subperm inside).length_le
    have least := nodes.minM
    rw [names, List.length_map, List.length_cons, List.length_singleton] at few
    rw [levelM, if_pos rfl] at full
    omega

/-- **An edge of the backbone is added.** -/
theorem forceNeighbor_adds (sound : ListsSound nodes lists)
    (may : src ≠ dst ∧ nodes.hasLevel src 0 = true ∧ nodes.hasLevel dst 0 = true) :
    dst ∈ names (forceNeighbor nodes lists src dst 0 src 0) := by
  rw [forceNeighbor]
  by_cases missing : dst ∈ names (lists src 0)
  · rw [if_pos fun link => link.2.2.2 missing]
    exact missing
  · have link : mayLink nodes lists src dst 0 := ⟨may.1, may.2.1, may.2.2, missing⟩
    rw [if_neg (not_not.mpr link)]
    split_ifs with room
    · rw [BuildLists.set_same, names_append]
      exact List.mem_append_right _ (List.mem_singleton_self _)
    · obtain ⟨slot, item, worst, here, -⟩ := worstOutsideBackbone_full (sound src 0) room
      have inside := (List.getElem?_eq_some_iff.mp here).1
      rw [BuildLists.set_same, names_set, worst, Option.getD_some]
      refine List.mem_set ?_ _
      rw [names, List.length_map]
      exact inside

/-- **No edge of the backbone is lost.** -/
theorem forceNeighbor_keeps (sound : ListsSound nodes lists) {nodeId neighbor : Nat}
    (backbone : isBackboneNeighbor nodes nodeId neighbor = true)
    (member : neighbor ∈ names (lists nodeId 0)) :
    neighbor ∈ names (forceNeighbor nodes lists src dst 0 nodeId 0) := by
  rw [forceNeighbor]
  split_ifs with may room
  · by_cases here : nodeId = src
    · subst here
      rw [BuildLists.set_same, names_append]
      exact List.mem_append_left _ member
    · rw [BuildLists.set_other _ fun both => here both.1]
      exact member
  · by_cases here : nodeId = src
    · subst here
      obtain ⟨slot, item, worst, at_, outside⟩ := worstOutsideBackbone_full (sound nodeId 0) room
      rw [BuildLists.set_same, names_set, worst, Option.getD_some]
      refine mem_set_of_ne member (fun same => ?_) _
      rw [names, List.getElem?_map, at_, Option.map_some] at same
      rw [Option.some.inj same, backbone] at outside
      cases outside
    · rw [BuildLists.set_other _ fun both => here both.1]
      exact member
  · exact member

end Force

/-! ### The backbone joins all nodes -/

/-- The nodes up to one are joined, each with the next. -/
def Joined (nodes : BuildNodes D) (lists : BuildLists D) (count : Nat) : Prop :=
  ∀ nodeId < count, nodeId + 1 < nodes.nodeCount →
    nodeId + 1 ∈ names (lists nodeId 0) ∧ nodeId ∈ names (lists (nodeId + 1) 0)

theorem backbone_next (nodes : BuildNodes D) {nodeId : Nat}
    (inside : nodeId + 1 < nodes.nodeCount) :
    isBackboneNeighbor nodes nodeId (nodeId + 1) = true ∧
      isBackboneNeighbor nodes (nodeId + 1) nodeId = true :=
  ⟨decide_eq_true (.inr ⟨inside, rfl⟩), decide_eq_true (.inl ⟨Nat.succ_pos _, rfl⟩)⟩

/-- **One node more.** -/
theorem Joined.step {nodes : BuildNodes D} {lists : BuildLists D} {count : Nat}
    (joined : Joined nodes lists count) (sound : ListsSound nodes lists)
    (inside : count + 1 < nodes.nodeCount) :
    Joined nodes (forceNeighbor nodes (forceNeighbor nodes lists count (count + 1) 0)
      (count + 1) count 0) (count + 1) := by
  have first := forceNeighbor_sound sound count (count + 1) 0
  have lower : nodes.hasLevel count 0 = true :=
    decide_eq_true ⟨(Nat.lt_succ_self _).trans inside, Nat.zero_le _⟩
  have upper : nodes.hasLevel (count + 1) 0 = true := decide_eq_true ⟨inside, Nat.zero_le _⟩
  intro nodeId before next
  obtain ⟨forth, back⟩ := backbone_next nodes next
  rcases Nat.lt_succ_iff_lt_or_eq.mp before with earlier | rfl
  · obtain ⟨up, down⟩ := joined nodeId earlier next
    exact ⟨forceNeighbor_keeps first forth (forceNeighbor_keeps sound forth up),
      forceNeighbor_keeps first back (forceNeighbor_keeps sound back down)⟩
  · exact ⟨forceNeighbor_keeps first forth
        (forceNeighbor_adds sound ⟨Nat.ne_of_lt (Nat.lt_succ_self _), lower, upper⟩),
      forceNeighbor_adds first ⟨Nat.succ_ne_self _, upper, lower⟩⟩

/-- **The backbone** joins every node with the next. -/
theorem ensureLevel0Backbone_joined {nodes : BuildNodes D} {lists : BuildLists D}
    (sound : ListsSound nodes lists) :
    Joined nodes (ensureLevel0Backbone nodes lists) (nodes.nodeCount - 1) := by
  have run (count : Nat) : count ≤ nodes.nodeCount - 1 →
      ListsSound nodes ((List.range' 1 count).foldl (fun lists nodeId =>
        forceNeighbor nodes (forceNeighbor nodes lists (nodeId - 1) nodeId 0) nodeId
          (nodeId - 1) 0) lists) ∧
      Joined nodes ((List.range' 1 count).foldl (fun lists nodeId =>
        forceNeighbor nodes (forceNeighbor nodes lists (nodeId - 1) nodeId 0) nodeId
          (nodeId - 1) 0) lists) count := by
    induction count with
    | zero => exact fun _ => ⟨sound, fun nodeId before => absurd before (Nat.not_lt_zero _)⟩
    | succ count ih =>
      intro inside
      obtain ⟨before, joined⟩ := ih (Nat.le_of_succ_le inside)
      have place : 1 + 1 * count = count + 1 := by omega
      rw [List.range'_concat, List.foldl_append, List.foldl_cons, List.foldl_nil, place,
        Nat.add_sub_cancel]
      exact ⟨forceNeighbor_sound (forceNeighbor_sound before _ _ _) _ _ _,
        joined.step before (by omega)⟩
  exact (run _ le_rfl).2

/-- An edge of the lowest level, as the build writes it. -/
def LowestEdge (graph : BuiltGraph D) (one other : Nat) : Prop :=
  other ∈ writeAdjPages graph one 0

def BuildStrategy.single (strategy : BuildStrategy) (nodeCount : Nat) : Prop :=
  match strategy with
  | serial requestedSegments _ => min requestedSegments nodeCount ≤ 1
  | parallel _ => True

theorem buildEdges_segmentCount (nodes : BuildNodes D) (vectorsEqual : Nat → Nat → Bool)
    (requestedSegments : Nat) :
    (buildEdges nodes vectorsEqual requestedSegments).segmentCount =
      max (min requestedSegments nodes.nodeCount) 1 := by
  unfold buildEdges
  dsimp only
  split_ifs
  · rfl
  · refine List.foldlRecOn _ _ (motive := fun state : EdgeState D =>
      state.segmentCount = max (min requestedSegments nodes.nodeCount) 1) rfl ?_
    intro state before range _
    unfold buildSegment
    split
    · exact before
    · split_ifs <;> exact before

theorem edges_segmentCount {nodes : BuildNodes D} {strategy : BuildStrategy}
    (single : strategy.single nodes.nodeCount) : (strategy.edges nodes).segmentCount ≤ 1 := by
  cases strategy with
  | serial requestedSegments vectorsEqual =>
    have count := buildEdges_segmentCount nodes vectorsEqual requestedSegments
    rw [BuildStrategy.edges, count]
    exact max_le single le_rfl
  | parallel participants =>
    rw [BuildStrategy.edges, parallelEdges]
    dsimp only
    split <;> exact le_rfl

theorem reorderForLocality_keeps (graphReorder : Bool) (graph : BuiltGraph D) :
    (reorderForLocality graphReorder graph).segmentCount = graph.segmentCount ∧
      (reorderForLocality graphReorder graph).nodes.nodeCount = graph.nodes.nodeCount ∧
      (reorderForLocality graphReorder graph).nodes.m = graph.nodes.m := by
  unfold reorderForLocality
  dsimp only
  split_ifs <;> exact ⟨rfl, rfl, rfl⟩

theorem mem_writeAdjPages {graph : BuiltGraph D} {nodeId target : Nat}
    (inside : nodeId < graph.nodes.nodeCount) (member : target ∈ names (graph.lists nodeId 0)) :
    LowestEdge graph nodeId target := by
  rw [LowestEdge, writeAdjPages, if_pos ⟨inside, Nat.zero_le _⟩]
  exact member

theorem reach_of_steps {edge : Nat → Nat → Prop} {count : Nat}
    (steps : ∀ nodeId, nodeId + 1 < count → edge nodeId (nodeId + 1) ∧ edge (nodeId + 1) nodeId)
    {one : Nat} (inside : one < count) :
    Relation.ReflTransGen edge 0 one ∧ Relation.ReflTransGen edge one 0 := by
  induction one with
  | zero => exact ⟨.refl, .refl⟩
  | succ one ih =>
    obtain ⟨up, down⟩ := ih ((Nat.lt_succ_self _).trans inside)
    obtain ⟨forth, back⟩ := steps one inside
    exact ⟨up.tail forth, down.head back⟩

/-- **The backbone reaches every node.** A build with a backbone and in one segment joins every node
with the next one, whatever the lists were, so that the lowest level leads from every node to every
other. -/
theorem backbone_reaches (nodes : BuildNodes D) (options : BuildOptions)
    (graphBackbone : options.graphBackbone = true)
    (single : options.strategy.single nodes.nodeCount) :
    (∀ nodeId, nodeId + 1 < nodes.nodeCount →
      LowestEdge (buildGraph nodes options) nodeId (nodeId + 1) ∧
        LowestEdge (buildGraph nodes options) (nodeId + 1) nodeId) ∧
    ∀ one < nodes.nodeCount, ∀ other < nodes.nodeCount,
      Relation.ReflTransGen (LowestEdge (buildGraph nodes options)) one other := by
  have edges : ListsSound nodes (options.strategy.edges nodes).lists :=
    edges_sound options.strategy
  have reordered := reorder_sound ⟨nodes, (options.strategy.edges nodes).lists,
    (options.strategy.edges nodes).entryNodeId, (options.strategy.edges nodes).segmentCount⟩
    edges options.graphReorder
  have kept := reorderForLocality_keeps options.graphReorder (⟨nodes,
    (options.strategy.edges nodes).lists, (options.strategy.edges nodes).entryNodeId,
    (options.strategy.edges nodes).segmentCount⟩ : BuiltGraph D)
  generalize order : reorderForLocality options.graphReorder (⟨nodes,
    (options.strategy.edges nodes).lists, (options.strategy.edges nodes).entryNodeId,
    (options.strategy.edges nodes).segmentCount⟩ : BuiltGraph D) = graph at reordered kept
  have segments : graph.segmentCount ≤ 1 := kept.1.trans_le (edges_segmentCount single)
  have count : graph.nodes.nodeCount = nodes.nodeCount := kept.2.1
  have backbone : buildGraph nodes options =
      { graph with lists := ensureLevel0Backbone graph.nodes graph.lists } := by
    rw [buildGraph, order]
    exact if_pos ⟨graphBackbone, segments⟩
  have joined := ensureLevel0Backbone_joined reordered
  have steps : ∀ nodeId, nodeId + 1 < nodes.nodeCount →
      LowestEdge (buildGraph nodes options) nodeId (nodeId + 1) ∧
        LowestEdge (buildGraph nodes options) (nodeId + 1) nodeId := by
    intro nodeId inside
    rw [backbone]
    obtain ⟨forth, back⟩ := joined nodeId (by omega) (by omega)
    exact ⟨mem_writeAdjPages (show nodeId < graph.nodes.nodeCount by omega) forth,
      mem_writeAdjPages (show nodeId + 1 < graph.nodes.nodeCount by omega) back⟩
  refine ⟨steps, fun one first other second => ?_⟩
  exact (reach_of_steps steps first).2.trans (reach_of_steps steps second).1

/-! ### Two segments -/

def twoNodes : BuildNodes Nat where
  m := 16
  nodeCount := 2
  level := fun _ => 0
  distance := fun _ one other => if one = other then 0 else 1
  dblMax := 2
  efConstruction := 64
  buildFastEdges := false
  minM := by decide

def inSegments (requestedSegments : Nat) : BuildOptions where
  strategy := .serial requestedSegments fun _ _ => false
  graphReorder := true
  graphBackbone := true

theorem backbone_reaches_two :
    Relation.ReflTransGen (LowestEdge (buildGraph twoNodes (inSegments 1))) 1 0 :=
  (backbone_reaches twoNodes (inSegments 1) rfl (show min 1 2 ≤ 1 by decide)).2
    1 (by decide) 0 (by decide)

/-- **Two segments are never joined**, though the build asks for the backbone. -/
theorem segments_disconnected :
    (inSegments 2).graphBackbone = true ∧ 2 ≤ twoNodes.nodeCount ∧
      ¬Relation.ReflTransGen (LowestEdge (buildGraph twoNodes (inSegments 2))) 0 1 := by
  refine ⟨rfl, by decide, fun reached => ?_⟩
  rcases reached.cases_head with same | ⟨next, edge, -⟩
  · cases same
  · have none_ : writeAdjPages (buildGraph twoNodes (inSegments 2)) 0 0 = [] := rfl
    rw [LowestEdge, none_] at edge
    exact List.not_mem_nil edge

end TurboHybrid.Graph.Build
