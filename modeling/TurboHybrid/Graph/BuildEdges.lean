/-
**The edges of a build.**

The nodes are linked one after another in a scrambled order: a descent through the upper levels,
then a search of each level the node has, from which it selects its neighbours. The build works on
one range of nodes or on several segments, or on batches that several participants share; afterwards
the nodes may be renumbered and joined by a backbone.

* `buildGraph`: the whole build;
* `linkNode_sound`, `buildEdgesRange_sound`, `parallelEdges_sound`, `reorder_sound`: every stage
  keeps the lists well formed;
* `buildGraph_sound`: every list the build writes is well formed, and a selection is never empty.
-/
import Mathlib.Data.List.GetD
import TurboHybrid.Graph.BuildLists

set_option linter.unusedSectionVars false

namespace TurboHybrid.Graph.Build

open Library

variable {D : Type} [LinearOrder D]

/-! ### The searches -/

section Search

variable (nodes : BuildNodes D) (lists : BuildLists D) (inserted : List Nat)

/-- The neighbours a search may go to: inserted nodes of the level. -/
def openNeighbors (nodeId level : Nat) : List Nat :=
  (names (lists nodeId level)).filter fun neighbor =>
    decide (neighbor ∈ inserted) && nodes.hasLevel neighbor level

def greedyRound (query level : Nat) (current : D × Nat) : D × Nat :=
  (openNeighbors nodes lists inserted current.2 level).foldl (fun current neighbor =>
    let distance := nodes.distance (some query) query neighbor
    if distance < current.1 then (distance, neighbor) else current) current

/-- The rounds of the greedy search; each one that changes the node comes nearer. -/
def greedyRounds (query level : Nat) : Nat → D × Nat → D × Nat
  | 0, current => current
  | fuel + 1, current =>
    if nodes.hasLevel current.2 level = false then current
    else
      let next := greedyRound nodes lists inserted query level current
      if next.1 < current.1 then greedyRounds query level fuel next else current

/-- `PgturbohybridGraphBuildGreedySearch`. -/
def buildGreedySearch (query entryNodeId level : Nat) : D × Nat :=
  greedyRounds nodes lists inserted query level (nodes.nodeCount + 1)
    (nodes.distance (some query) query entryNodeId, entryNodeId)

def layerContext (query level : Nat) : SearchContext D where
  nodeCount := nodes.nodeCount
  neighbors := fun nodeId =>
    if nodes.hasLevel nodeId level then openNeighbors nodes lists inserted nodeId level else []
  dead := fun _ => false
  score := fun nodeId => nodes.distance (some query) query nodeId
  resultDistance := fun _ distance => distance
  exactRescore := fun _ distance => distance

/-- **`PgturbohybridGraphBuildSearchLayer`**: the nearest nodes, as the heap holds them. -/
def buildSearchLayer (query : Nat) (entry : D × Nat) (level ef : Nat) : List (D × Nat) :=
  let ctx := layerContext nodes lists inserted query level
  (searchLoop ctx ef nodes.nodeCount (enterEntry ctx ef ⟨[], #[], #[]⟩ entry)).nearest.toList

end Search

/-! ### One node -/

/-- `Max(state->efConstruction, PgturbohybridGraphLevelM(state->m, 0))`. -/
def BuildNodes.ef (nodes : BuildNodes D) : Nat := max nodes.efConstruction (levelM nodes.m 0)

/-- The new node is offered to the neighbours of its list. -/
def addBacklinks (nodes : BuildNodes D) (prepared : Option Nat) (nodeId level : Nat)
    (items : List (D × Nat)) (lists : BuildLists D) : BuildLists D :=
  items.foldl (fun lists item =>
    addNeighbor nodes prepared lists item.2 nodeId level item.1) lists

/-- One level of a node, with the entry of the next one; a batch adds the backlinks later. -/
def linkLevel (nodes : BuildNodes D) (inserted : List Nat) (query : Nat) (backlinks : Bool)
    (state : BuildLists D × (D × Nat)) (level : Nat) : BuildLists D × (D × Nat) :=
  if nodes.hasLevel state.2.2 level = false then state
  else
    let nearest := buildSearchLayer nodes state.1 inserted query state.2 level nodes.ef
    let selected := selectNeighbors nodes (some query) query nearest level
    let items := withDistances nodes nearest selected
    let lists := state.1.set query level items
    let lists := if backlinks then addBacklinks nodes (some query) query level items lists
      else lists
    (lists, (sortNearest nearest).head?.getD state.2)

def descend (nodes : BuildNodes D) (lists : BuildLists D) (inserted : List Nat)
    (query entryNodeId entryLevel : Nat) : D × Nat :=
  (List.range' (nodes.level query + 1) (entryLevel - nodes.level query)).reverse.foldl
    (fun levelEntry level =>
      if nodes.hasLevel levelEntry.2 level then
        buildGreedySearch nodes lists inserted query levelEntry.2 level
      else levelEntry)
    (nodes.distance (some query) query entryNodeId, entryNodeId)

/-- The levels of a node from the highest one it shares with the entry. -/
def linkNode (nodes : BuildNodes D) (lists : BuildLists D) (inserted : List Nat)
    (entryNodeId entryLevel : Nat) (backlinks : Bool) (query : Nat) : BuildLists D :=
  ((List.range (min (nodes.level query) entryLevel + 1)).reverse.foldl
    (linkLevel nodes inserted query backlinks)
    (lists, descend nodes lists inserted query entryNodeId entryLevel)).1

/-! ### A range of nodes -/

/-- `PgturbohybridGraphMix64`. -/
def mix64 (x : BitVec 64) : BitVec 64 :=
  let x := x + 0x9e3779b97f4a7c15
  let x := (x ^^^ (x >>> 30)) * 0xbf58476d1ce4e5b9
  let x := (x ^^^ (x >>> 27)) * 0x94d049bb133111eb
  x ^^^ (x >>> 31)

/-- `PgturbohybridGraphBuildOrderCompare`: by the key, then by the node. -/
def orderedBefore (one other : Nat) : Prop :=
  mix64 (BitVec.ofNat 64 one) < mix64 (BitVec.ofNat 64 other) ∨
    mix64 (BitVec.ofNat 64 one) = mix64 (BitVec.ofNat 64 other) ∧ one ≤ other

instance (one other : Nat) : Decidable (orderedBefore one other) :=
  inferInstanceAs (Decidable (_ ∨ _))

def scrambled (nodeIds : List Nat) : List Nat := nodeIds.insertionSort orderedBefore

structure LinkState (D : Type) where
  lists : BuildLists D
  inserted : List Nat
  prepared : Option Nat
  entryNodeId : Nat
  entryLevel : Nat

/-- A linked node becomes known, and the entry where it is higher than the entry before. -/
def publish (nodes : BuildNodes D) (state : LinkState D) (nodeId : Nat) : LinkState D :=
  let state := { state with inserted := nodeId :: state.inserted }
  if state.entryLevel < nodes.level nodeId then
    { state with entryNodeId := nodeId, entryLevel := nodes.level nodeId }
  else state

def rangeStep (nodes : BuildNodes D) (startNodeId : Nat) (preserveScanOrder : Bool)
    (state : LinkState D) (nodeId : Nat) : LinkState D :=
  if preserveScanOrder ∧ startNodeId < nodeId ∧ nodeId - 1 ∈ state.inserted then
    publish nodes { state with
      lists := linkAdjacentBuildNode nodes state.prepared state.lists nodeId (nodeId - 1) } nodeId
  else
    publish nodes { state with
      lists := linkNode nodes state.lists state.inserted state.entryNodeId state.entryLevel true
        nodeId
      prepared := some nodeId } nodeId

/-- The order of a range; many equal neighbours keep the order of the scan. -/
def rangeOrder (vectorsEqual : Nat → Nat → Bool) (startNodeId rangeNodeCount : Nat) :
    Bool × List Nat :=
  let adjacentDuplicates := (List.range' (startNodeId + 1) (rangeNodeCount - 1)).countP fun i =>
    vectorsEqual (i - 1) i
  let preserveScanOrder := decide (rangeNodeCount / 2 < adjacentDuplicates)
  let order := List.range' startNodeId rangeNodeCount
  (preserveScanOrder, if preserveScanOrder then order else scrambled order)

/-- **`PgturbohybridGraphBuildEdgesRange`**, on lists that hold other ranges. -/
def buildEdgesRange (nodes : BuildNodes D) (vectorsEqual : Nat → Nat → Bool)
    (startNodeId endNodeId : Nat) (lists : BuildLists D) : Option (LinkState D) :=
  let order := rangeOrder vectorsEqual startNodeId (endNodeId - startNodeId)
  match order.2 with
  | [] => none
  | entryNodeId :: rest =>
    some (rest.foldl (rangeStep nodes startNodeId order.1)
      { lists := lists
        inserted := [entryNodeId]
        prepared := none
        entryNodeId := entryNodeId
        entryLevel := nodes.level entryNodeId })

/-- What the edges leave: the lists, the entry with its level, and the segments. -/
structure EdgeState (D : Type) where
  lists : BuildLists D
  entryNodeId : Nat
  maxLevel : Option Nat
  segmentCount : Nat

def buildSegment (nodes : BuildNodes D) (vectorsEqual : Nat → Nat → Bool)
    (state : EdgeState D) (range : Nat × Nat) : EdgeState D :=
  match buildEdgesRange nodes vectorsEqual range.1 range.2 state.lists with
  | none => state
  | some linked =>
    if state.segmentCount ≤ 1 ∨ state.maxLevel.all (· < linked.entryLevel) = true then
      { state with
        lists := linked.lists
        entryNodeId := linked.entryNodeId
        maxLevel := some linked.entryLevel }
    else { state with lists := linked.lists }

/-- The segments' ranges: the first ones take what is left over. -/
def segmentRanges (nodeCount segmentCount : Nat) : List (Nat × Nat) :=
  let baseSegmentSize := nodeCount / segmentCount
  let remainder := nodeCount % segmentCount
  let start (segmentIdx : Nat) := segmentIdx * baseSegmentSize + min segmentIdx remainder
  (List.range segmentCount).map fun segmentIdx => (start segmentIdx, start (segmentIdx + 1))

def emptyLists : BuildLists D := fun _ _ => []

/-- **`PgturbohybridGraphBuildEdges`.** -/
def buildEdges (nodes : BuildNodes D) (vectorsEqual : Nat → Nat → Bool)
    (requestedSegments : Nat) : EdgeState D :=
  let segmentCount := max (min requestedSegments nodes.nodeCount) 1
  let start : EdgeState D := ⟨emptyLists, 0, none, segmentCount⟩
  if nodes.nodeCount = 0 then start
  else (segmentRanges nodes.nodeCount segmentCount).foldl (buildSegment nodes vectorsEqual) start

/-! ### Batches of several participants -/

/-- How the participants of a build share it. Each has its own prepared query, whichever it last
worked on. -/
structure Participants where
  warmup : Nat
  batchSize : Nat
  count : Nat
  preparedBy : Nat → Nat → Option Nat

/-- `PgturbohybridNativeParallelEdgeBuildNodeLinks`: the lists of a node, chosen anew. -/
def buildNodeLinks (nodes : BuildNodes D) (state : LinkState D) (nodeId : Nat) : BuildLists D :=
  let lists : BuildLists D := fun other level =>
    if other = nodeId ∧ level ≤ nodes.level nodeId then [] else state.lists other level
  linkNode nodes lists state.inserted state.entryNodeId state.entryLevel false nodeId

/-- `PgturbohybridNativeParallelEdgeApplyNodeBacklinks`: the node is offered to the neighbours of
one share. -/
def applyNodeBacklinks (nodes : BuildNodes D) (prepared : Option Nat) (inserted : List Nat)
    (applyShard applyShardCount : Nat) (lists : BuildLists D) (nodeId : Nat) : BuildLists D :=
  (List.range (nodes.level nodeId + 1)).foldl (fun lists level =>
    addBacklinks nodes prepared nodeId level ((lists nodeId level).filter fun item =>
      decide (item.2 < nodes.nodeCount ∧ item.2 ∈ inserted) &&
        (applyShardCount ≤ 1 || item.2 % applyShardCount == applyShard)) lists) lists

def warmupStep (nodes : BuildNodes D) (state : LinkState D) (nodeId : Nat) : LinkState D :=
  let lists := buildNodeLinks nodes state nodeId
  publish nodes { state with
    lists := applyNodeBacklinks nodes (some nodeId) state.inserted 0 1 lists nodeId } nodeId

/-- One batch: the links of its nodes, the backlinks in the share of each participant, then the
nodes become known. -/
def batchStep (nodes : BuildNodes D) (participants : Participants) (state : LinkState D)
    (batch : List Nat) : LinkState D :=
  let lists := batch.foldl (fun lists nodeId =>
    buildNodeLinks nodes { state with lists := lists } nodeId) state.lists
  let lists := (List.range participants.count).foldl (fun lists shard =>
    batch.foldl (applyNodeBacklinks nodes
      (participants.preparedBy shard state.inserted.length) state.inserted shard
      participants.count) lists) lists
  batch.foldl (publish nodes) { state with lists := lists }

def batchLoop (nodes : BuildNodes D) (participants : Participants) :
    Nat → LinkState D → List Nat → LinkState D
  | 0, state, _ => state
  | fuel + 1, state, rest =>
    if rest = [] then state
    else batchLoop nodes participants fuel
      (batchStep nodes participants state (rest.take participants.batchSize))
      (rest.drop participants.batchSize)

/-- **The edge phase of a parallel build**, with the lists as the leader takes them over. -/
def parallelEdges (nodes : BuildNodes D) (participants : Participants) : EdgeState D :=
  let order := scrambled (List.range nodes.nodeCount)
  match order with
  | [] => ⟨emptyLists, 0, none, 1⟩
  | entryNodeId :: rest =>
    let warm := (rest.take (participants.warmup - 1)).foldl (warmupStep nodes)
      { lists := emptyLists
        inserted := [entryNodeId]
        prepared := none
        entryNodeId := entryNodeId
        entryLevel := nodes.level entryNodeId }
    let linked := batchLoop nodes participants nodes.nodeCount warm
      (rest.drop (participants.warmup - 1))
    { lists := fun nodeId level => (linked.lists nodeId level).take (levelM nodes.m level)
      entryNodeId := linked.entryNodeId
      maxLevel := some linked.entryLevel
      segmentCount := 1 }

/-! ### The order of the nodes -/

/-- `PGTURBOHYBRID_GRAPH_ENQUEUE_OLD_NODE`. -/
def enqueueOldNode (nodeCount : Nat) (newToOld : List Nat) (oldId : Nat) : List Nat :=
  if oldId < nodeCount ∧ oldId ∉ newToOld then newToOld ++ [oldId] else newToOld

/-- The queue of the breadth-first walk is the order itself. -/
def walkQueue (nodeCount : Nat) (neighbors : Nat → List Nat) :
    Nat → Nat → List Nat → List Nat
  | 0, _, newToOld => newToOld
  | fuel + 1, head, newToOld =>
    match newToOld[head]? with
    | none => newToOld
    | some oldId => walkQueue nodeCount neighbors fuel (head + 1)
        ((neighbors oldId).foldl (enqueueOldNode nodeCount) newToOld)

/-- The old ids in their new order: those the walk reaches, then the others. -/
def localityOrder (nodeCount entryNodeId : Nat) (neighbors : Nat → List Nat) : List Nat :=
  (List.range nodeCount).foldl (enqueueOldNode nodeCount)
    (walkQueue nodeCount neighbors nodeCount 0 (enqueueOldNode nodeCount [] entryNodeId))

def BuildNodes.renumber (nodes : BuildNodes D) (newToOld : List Nat) : BuildNodes D :=
  { nodes with
    level := fun nodeId => nodes.level (newToOld.getD nodeId nodeId)
    distance := fun prepared one other => nodes.distance
      (prepared.map fun nodeId => newToOld.getD nodeId nodeId)
      (newToOld.getD one one) (newToOld.getD other other) }

def BuildLists.renumber (lists : BuildLists D) (nodeCount : Nat) (newToOld : List Nat) :
    BuildLists D := fun nodeId level =>
  (lists (newToOld.getD nodeId nodeId) level).map fun item =>
    (item.1, if item.2 < nodeCount ∧ item.2 ∈ newToOld then newToOld.idxOf item.2 else item.2)

structure BuiltGraph (D : Type) where
  nodes : BuildNodes D
  lists : BuildLists D
  entryNodeId : Nat
  segmentCount : Nat

/-- **`PgturbohybridGraphReorderBuildNodesForLocality`.** -/
def reorderForLocality (graphReorder : Bool) (graph : BuiltGraph D) : BuiltGraph D :=
  if graphReorder = false ∨ 1 < graph.segmentCount ∨ graph.nodes.nodeCount < 2 ∨
      graph.nodes.nodeCount ≤ graph.entryNodeId then graph
  else
    let newToOld := localityOrder graph.nodes.nodeCount graph.entryNodeId fun nodeId =>
      names (graph.lists nodeId 0)
    if newToOld = List.range graph.nodes.nodeCount then graph
    else
      { graph with
        nodes := graph.nodes.renumber newToOld
        lists := graph.lists.renumber graph.nodes.nodeCount newToOld
        entryNodeId := newToOld.idxOf graph.entryNodeId }

/-- `PgturbohybridGraphEnsureLevel0Backbone`. -/
def ensureLevel0Backbone (nodes : BuildNodes D) (lists : BuildLists D) : BuildLists D :=
  (List.range' 1 (nodes.nodeCount - 1)).foldl (fun lists nodeId =>
    forceNeighbor nodes (forceNeighbor nodes lists (nodeId - 1) nodeId 0) nodeId (nodeId - 1) 0)
    lists

inductive BuildStrategy where
  | serial (requestedSegments : Nat) (vectorsEqual : Nat → Nat → Bool)
  | parallel (participants : Participants)

structure BuildOptions where
  strategy : BuildStrategy
  graphReorder : Bool
  graphBackbone : Bool

def BuildStrategy.edges (strategy : BuildStrategy) (nodes : BuildNodes D) : EdgeState D :=
  match strategy with
  | serial requestedSegments vectorsEqual => buildEdges nodes vectorsEqual requestedSegments
  | parallel participants => parallelEdges nodes participants

/-- **The graph of a build**: its edges, the order of its nodes, and the backbone. -/
def buildGraph (nodes : BuildNodes D) (options : BuildOptions) : BuiltGraph D :=
  let edges := options.strategy.edges nodes
  let graph := reorderForLocality options.graphReorder
    ⟨nodes, edges.lists, edges.entryNodeId, edges.segmentCount⟩
  if options.graphBackbone ∧ graph.segmentCount ≤ 1 then
    { graph with lists := ensureLevel0Backbone graph.nodes graph.lists }
  else graph

/-- `PgturbohybridGraphWriteAdjPages`: the tuple of each node and level. -/
def writeAdjPages (graph : BuiltGraph D) : Adjacency := fun nodeId level =>
  if nodeId < graph.nodes.nodeCount ∧
      level ≤ min (graph.nodes.level nodeId) (levelCapacity graph.nodes.m - 1) then
    names (graph.lists nodeId level)
  else []

/-! ### What a search finds -/

section Found

variable {ctx : SearchContext D} {state : BaseSearch D} {known : Nat → Prop}

theorem mem_neighborBatch (visited neighbors : List Nat) :
    ∀ nodeId ∈ neighborBatch ctx visited neighbors, nodeId ∈ neighbors := by
  refine List.foldlRecOn _ _ (motive := fun batch => ∀ nodeId ∈ batch, nodeId ∈ neighbors)
    (fun _ member => absurd member List.not_mem_nil) ?_
  intro batch inside neighbor listed
  split_ifs
  · intro nodeId member
    rcases List.mem_append.mp member with old | last
    · exact inside nodeId old
    · exact List.mem_singleton.mp last ▸ listed
  · exact inside

def KnownNearest (known : Nat → Prop) (state : BaseSearch D) : Prop :=
  ∀ item ∈ state.nearest.toList, known item.2

theorem KnownNearest.offers (found : KnownNearest known state) (searchEf : Nat)
    {items : List (D × Nat)} (new : ∀ item ∈ items, known item.2) (visited : List Nat)
    (frontier : Array (D × Nat)) :
    KnownNearest known ⟨visited, frontier,
      items.foldl (BoundedHeap.offer frontierGreater searchEf) state.nearest⟩ := by
  intro item member
  have inside := (BoundedHeap.offerAll_subperm frontierGreater searchEf items state.nearest).subset
  rcases List.mem_append.mp (inside member) with fresh | old
  · exact new item fresh
  · exact found item old

theorem KnownNearest.expand (found : KnownNearest known state)
    (listed : ∀ nodeId, ∀ neighbor ∈ ctx.neighbors nodeId, known neighbor) (searchEf nodeId : Nat) :
    KnownNearest known (expandNode ctx searchEf state nodeId) := by
  intro item member
  rw [expandNode, (offerNeighbors_eq searchEf _ _).2] at member
  refine found.offers searchEf (fun item here => ?_) [] #[] item member
  obtain ⟨neighbor, batched, rfl⟩ := List.mem_map.mp here
  exact listed nodeId neighbor (mem_neighborBatch _ _ neighbor batched)

theorem KnownNearest.loop (found : KnownNearest known state)
    (listed : ∀ nodeId, ∀ neighbor ∈ ctx.neighbors nodeId, known neighbor) (searchEf fuel : Nat) :
    KnownNearest known (searchLoop ctx searchEf fuel state) := by
  induction fuel generalizing state with
  | zero => exact found
  | succ fuel ih =>
    rw [searchLoop]
    cases state.frontier[0]? with
    | none => exact found
    | some item =>
      dsimp only
      split_ifs
      · exact found
      · have popped : KnownNearest known
            { state with frontier := BinaryHeap.pop frontierLess state.frontier } := found
        exact ih (popped.expand listed searchEf item.2)

/-- **The search of a level** finds nodes of the level, each once. -/
theorem buildSearchLayer_spec (nodes : BuildNodes D) (lists : BuildLists D) (inserted : List Nat)
    (query : Nat) {entry : D × Nat} {level : Nat} (stored : nodes.hasLevel entry.2 level = true)
    (ef : Nat) :
    Distinct (buildSearchLayer nodes lists inserted query entry level ef) ∧
      ∀ item ∈ buildSearchLayer nodes lists inserted query entry level ef,
        nodes.hasLevel item.2 level = true := by
  have listed : ∀ nodeId,
      ∀ neighbor ∈ (layerContext nodes lists inserted query level).neighbors nodeId,
        nodes.hasLevel neighbor level = true := by
    intro nodeId neighbor member
    simp only [layerContext] at member
    split_ifs at member
    · exact ((Bool.and_eq_true _ _).mp (List.mem_filter.mp member).2).2
    · exact absurd member List.not_mem_nil
  have empty : KnownNearest (fun nodeId => nodes.hasLevel nodeId level = true)
      (⟨[], #[], #[]⟩ : BaseSearch D) := fun _ member => absurd member List.not_mem_nil
  have entered : KnownNearest (fun nodeId => nodes.hasLevel nodeId level = true)
      (enterEntry (layerContext nodes lists inserted query level) ef ⟨[], #[], #[]⟩ entry) := by
    rw [enterEntry]
    split_ifs
    · have known : ∀ item ∈ [entry], nodes.hasLevel item.2 level = true :=
        fun item here => List.mem_singleton.mp here ▸ stored
      exact empty.offers ef known _ _
    · exact empty
  have explored : Explored (⟨[], #[], #[]⟩ : BaseSearch D) :=
    ⟨List.nodup_nil, fun _ member => absurd member List.not_mem_nil⟩
  exact ⟨((explored.enterEntry ef entry).searchLoop _ ef nodes.nodeCount).distinct,
    entered.loop listed ef nodes.nodeCount⟩

end Found

/-! ### Every stage keeps the lists well formed -/

section Stages

variable {nodes : BuildNodes D} {lists : BuildLists D}

theorem emptyLists_sound : ListsSound nodes (emptyLists : BuildLists D) :=
  fun _ _ => listSound_nil

theorem addBacklinks_sound (sound : ListsSound nodes lists) (prepared : Option Nat)
    (nodeId level : Nat) (items : List (D × Nat)) :
    ListsSound nodes (addBacklinks nodes prepared nodeId level items lists) :=
  List.foldlRecOn _ _ sound fun _ before _ _ => addNeighbor_sound before _ _ _ _ _

theorem linkLevel_sound {state : BuildLists D × (D × Nat)} (sound : ListsSound nodes state.1)
    (inserted : List Nat) (query : Nat) (backlinks : Bool) (level : Nat) :
    ListsSound nodes (linkLevel nodes inserted query backlinks state level).1 := by
  rw [linkLevel]
  by_cases missing : nodes.hasLevel state.2.2 level = false
  · rw [if_pos missing]
    exact sound
  · rw [if_neg missing]
    have stored : nodes.hasLevel state.2.2 level = true := Bool.not_eq_false _ ▸ missing
    obtain ⟨distinct, levels⟩ := buildSearchLayer_spec nodes state.1 inserted query stored nodes.ef
    have chosen : Chosen (levelM nodes.m level) query _ _ :=
      selectNeighbors_chosen nodes (some query) level distinct
    have named : ∀ target ∈ names (buildSearchLayer nodes state.1 inserted query state.2 level
        nodes.ef), nodes.hasLevel target level = true := by
      intro target member
      obtain ⟨item, here, rfl⟩ := List.mem_map.mp member
      exact levels item here
    have list := chosen.sound named
      (buildSearchLayer nodes state.1 inserted query state.2 level nodes.ef)
    dsimp only
    split_ifs
    · exact addBacklinks_sound (sound.set list) _ _ _ _
    · exact sound.set list

/-- **One node**, with or without its backlinks. -/
theorem linkNode_sound (sound : ListsSound nodes lists) (inserted : List Nat)
    (entryNodeId entryLevel : Nat) (backlinks : Bool) (query : Nat) :
    ListsSound nodes (linkNode nodes lists inserted entryNodeId entryLevel backlinks query) := by
  refine List.foldlRecOn _ _
    (motive := fun state : BuildLists D × (D × Nat) => ListsSound nodes state.1) sound ?_
  intro state before level _
  exact linkLevel_sound before inserted query backlinks level

theorem publish_lists (state : LinkState D) (nodeId : Nat) :
    (publish nodes state nodeId).lists = state.lists := by
  unfold publish
  dsimp only
  split_ifs <;> rfl

/-- **A range of nodes.** -/
theorem buildEdgesRange_sound (sound : ListsSound nodes lists)
    (vectorsEqual : Nat → Nat → Bool) (startNodeId endNodeId : Nat) (linked : LinkState D)
    (result : buildEdgesRange nodes vectorsEqual startNodeId endNodeId lists = some linked) :
    ListsSound nodes linked.lists := by
  unfold buildEdgesRange at result
  dsimp only at result
  split at result
  · cases result
  · rw [← Option.some.inj result]
    refine List.foldlRecOn _ _ (motive := fun state : LinkState D => ListsSound nodes state.lists)
      sound ?_
    intro state before nodeId _
    rw [rangeStep]
    split_ifs with adjacent
    · rw [publish_lists]
      exact linkAdjacentBuildNode_sound before _ (by omega)
    · rw [publish_lists]
      exact linkNode_sound before _ _ _ _ _

theorem buildEdges_sound (vectorsEqual : Nat → Nat → Bool) (requestedSegments : Nat) :
    ListsSound nodes (buildEdges nodes vectorsEqual requestedSegments).lists := by
  unfold buildEdges
  dsimp only
  split_ifs
  · exact emptyLists_sound
  · refine List.foldlRecOn _ _ (motive := fun state : EdgeState D => ListsSound nodes state.lists)
      emptyLists_sound ?_
    intro state before range _
    unfold buildSegment
    cases result : buildEdgesRange nodes vectorsEqual range.1 range.2 state.lists with
    | none => exact before
    | some linked =>
      have after := buildEdgesRange_sound before _ _ _ linked result
      dsimp only
      split_ifs <;> exact after

theorem buildNodeLinks_sound {state : LinkState D} (sound : ListsSound nodes state.lists)
    (nodeId : Nat) : ListsSound nodes (buildNodeLinks nodes state nodeId) := by
  refine linkNode_sound (fun other level => ?_) _ _ _ _ _
  split_ifs
  · exact listSound_nil
  · exact sound other level

theorem applyNodeBacklinks_sound (sound : ListsSound nodes lists) (prepared : Option Nat)
    (inserted : List Nat) (applyShard applyShardCount nodeId : Nat) :
    ListsSound nodes
      (applyNodeBacklinks nodes prepared inserted applyShard applyShardCount lists nodeId) :=
  List.foldlRecOn _ _ sound fun _ before _ _ => addBacklinks_sound before _ _ _ _

theorem batchStep_sound {state : LinkState D} (sound : ListsSound nodes state.lists)
    (participants : Participants) (batch : List Nat) :
    ListsSound nodes (batchStep nodes participants state batch).lists := by
  have linked : ListsSound nodes (batch.foldl (fun lists nodeId =>
      buildNodeLinks nodes { state with lists := lists } nodeId) state.lists) :=
    List.foldlRecOn _ _ sound fun _ before _ _ => buildNodeLinks_sound before _
  have applied : ListsSound nodes ((List.range participants.count).foldl (fun lists shard =>
      batch.foldl (applyNodeBacklinks nodes
        (participants.preparedBy shard state.inserted.length) state.inserted shard
        participants.count) lists) (batch.foldl (fun lists nodeId =>
          buildNodeLinks nodes { state with lists := lists } nodeId) state.lists)) := by
    refine List.foldlRecOn _ _ linked fun _ before _ _ => ?_
    exact List.foldlRecOn _ _ before fun _ before _ _ => applyNodeBacklinks_sound before _ _ _ _ _
  rw [batchStep]
  refine List.foldlRecOn _ _ (motive := fun state : LinkState D => ListsSound nodes state.lists)
    applied ?_
  intro state before nodeId _
  rw [publish_lists]
  exact before

theorem batchLoop_sound {state : LinkState D} (sound : ListsSound nodes state.lists)
    (participants : Participants) (fuel : Nat) (rest : List Nat) :
    ListsSound nodes (batchLoop nodes participants fuel state rest).lists := by
  induction fuel generalizing state rest with
  | zero => exact sound
  | succ fuel ih =>
    rw [batchLoop]
    split_ifs
    · exact sound
    · exact ih (batchStep_sound sound participants _) _

theorem ListSound.take {src level : Nat} {items : List (D × Nat)}
    (list : ListSound nodes src level items) (count : Nat) :
    ListSound nodes src level (items.take count) := by
  have part : (names (items.take count)).Sublist (names items) :=
    (List.take_sublist count items).map Prod.snd
  exact ⟨part.length_le.trans list.bounded, fun member => list.loopless (part.subset member),
    list.nodup.sublist part, fun target member => list.allFit target (part.subset member)⟩

/-- **A parallel build.** -/
theorem parallelEdges_sound (participants : Participants) :
    ListsSound nodes (parallelEdges nodes participants).lists := by
  unfold parallelEdges
  dsimp only
  split
  · exact emptyLists_sound
  · refine fun nodeId level => ListSound.take (batchLoop_sound ?_ participants _ _ nodeId level) _
    refine List.foldlRecOn _ _ (motive := fun state : LinkState D => ListsSound nodes state.lists)
      emptyLists_sound ?_
    intro state before nodeId _
    rw [warmupStep, publish_lists]
    exact applyNodeBacklinks_sound (buildNodeLinks_sound before nodeId) _ _ _ _ _

theorem edges_sound (strategy : BuildStrategy) : ListsSound nodes (strategy.edges nodes).lists := by
  cases strategy with
  | serial requestedSegments vectorsEqual => exact buildEdges_sound vectorsEqual requestedSegments
  | parallel participants => exact parallelEdges_sound participants

theorem ensureLevel0Backbone_sound (sound : ListsSound nodes lists) :
    ListsSound nodes (ensureLevel0Backbone nodes lists) :=
  List.foldlRecOn _ _ sound fun _ before _ _ =>
    forceNeighbor_sound (forceNeighbor_sound before _ _ _) _ _ _

end Stages

/-! ### The new order is a renumbering -/

structure Order (nodeCount : Nat) (newToOld : List Nat) : Prop where
  nodup : newToOld.Nodup
  within : ∀ oldId ∈ newToOld, oldId < nodeCount

section Reorder

variable {nodeCount : Nat} {newToOld : List Nat}

theorem Order.enqueue (order : Order nodeCount newToOld) (oldId : Nat) :
    Order nodeCount (enqueueOldNode nodeCount newToOld oldId) := by
  rw [enqueueOldNode]
  split_ifs with new
  · refine ⟨order.nodup.append (List.nodup_singleton _) fun nodeId old last => ?_,
      fun nodeId member => ?_⟩
    · exact new.2 (List.mem_singleton.mp last ▸ old)
    · rcases List.mem_append.mp member with old | last
      · exact order.within nodeId old
      · exact List.mem_singleton.mp last ▸ new.1
  · exact order

theorem Order.enqueueAll (order : Order nodeCount newToOld) (oldIds : List Nat) :
    Order nodeCount (oldIds.foldl (enqueueOldNode nodeCount) newToOld) :=
  List.foldlRecOn _ _ order fun _ before _ _ => before.enqueue _

theorem Order.walk (order : Order nodeCount newToOld) (neighbors : Nat → List Nat)
    (fuel head : Nat) : Order nodeCount (walkQueue nodeCount neighbors fuel head newToOld) := by
  induction fuel generalizing head newToOld with
  | zero => exact order
  | succ fuel ih =>
    rw [walkQueue]
    cases newToOld[head]? with
    | none => exact order
    | some oldId => exact ih (order.enqueueAll _) _

theorem mem_enqueueAll (oldIds : List Nat) {oldId : Nat}
    (present : oldId ∈ newToOld ∨ oldId ∈ oldIds ∧ oldId < nodeCount) :
    oldId ∈ oldIds.foldl (enqueueOldNode nodeCount) newToOld := by
  induction oldIds generalizing newToOld with
  | nil => exact present.resolve_right fun here => absurd here.1 List.not_mem_nil
  | cons first rest ih =>
    refine ih ?_
    rw [enqueueOldNode]
    rcases present with old | ⟨listed, inside⟩
    · refine .inl ?_
      split_ifs
      · exact List.mem_append_left _ old
      · exact old
    · rcases List.mem_cons.mp listed with rfl | later
      · refine .inl ?_
        split_ifs with new
        · exact List.mem_append_right _ (List.mem_singleton_self _)
        · exact not_not.mp fun missing => new ⟨inside, missing⟩
      · exact .inr ⟨later, inside⟩

/-- **The order names every node once.** -/
theorem localityOrder_spec (nodeCount entryNodeId : Nat) (neighbors : Nat → List Nat) :
    (localityOrder nodeCount entryNodeId neighbors).Nodup ∧
      ∀ oldId, oldId ∈ localityOrder nodeCount entryNodeId neighbors ↔ oldId < nodeCount := by
  have empty : Order nodeCount [] :=
    ⟨List.nodup_nil, fun _ member => absurd member List.not_mem_nil⟩
  have order := ((empty.enqueue entryNodeId).walk neighbors nodeCount 0).enqueueAll
    (List.range nodeCount)
  exact ⟨order.nodup, fun oldId => ⟨order.within oldId, fun inside =>
    mem_enqueueAll _ (.inr ⟨List.mem_range.mpr inside, inside⟩)⟩⟩

variable {nodes : BuildNodes D} {lists : BuildLists D}

theorem getD_idxOf {oldId : Nat} (member : oldId ∈ newToOld) (other : Nat) :
    newToOld.getD (newToOld.idxOf oldId) other = oldId := by
  have inside := List.idxOf_lt_length_iff.mpr member
  rw [List.getD_eq_getElem _ _ inside]
  exact List.getElem_idxOf inside

theorem names_renumber (inside : ∀ oldId, oldId ∈ newToOld ↔ oldId < nodes.nodeCount)
    (sound : ListsSound nodes lists) (nodeId level : Nat) :
    names (lists.renumber nodes.nodeCount newToOld nodeId level) =
      (names (lists (newToOld.getD nodeId nodeId) level)).map newToOld.idxOf := by
  rw [names, BuildLists.renumber, names, List.map_map, List.map_map]
  refine List.map_congr_left fun item member => ?_
  have stored := (sound _ level).allFit item.2 (List.mem_map_of_mem member)
  have below : item.2 < nodes.nodeCount := (of_decide_eq_true stored).1
  exact if_pos ⟨below, (inside item.2).mpr below⟩

/-- **A renumbering** keeps every list well formed. -/
theorem renumber_sound (nodup : newToOld.Nodup)
    (inside : ∀ oldId, oldId ∈ newToOld ↔ oldId < nodes.nodeCount)
    (sound : ListsSound nodes lists) :
    ListsSound (nodes.renumber newToOld) (lists.renumber nodes.nodeCount newToOld) := by
  have length : newToOld.length = nodes.nodeCount := by
    have same : newToOld.Perm (List.range nodes.nodeCount) :=
      (List.perm_ext_iff_of_nodup nodup List.nodup_range).mpr fun oldId =>
        (inside oldId).trans List.mem_range.symm
    rw [same.length_eq, List.length_range]
  intro nodeId level
  have list := sound (newToOld.getD nodeId nodeId) level
  have below {target : Nat} (member : target ∈ names (lists (newToOld.getD nodeId nodeId) level)) :
      target ∈ newToOld ∧ level ≤ nodes.level target := by
    have stored := of_decide_eq_true (list.allFit target member)
    exact ⟨(inside target).mpr stored.1, stored.2⟩
  rw [ListSound, names_renumber inside sound]
  refine ⟨?_, fun member => ?_, ?_, fun target member => ?_⟩
  · rw [List.length_map]
    exact list.bounded
  · obtain ⟨target, listed, same⟩ := List.mem_map.mp member
    have old := getD_idxOf (below listed).1 nodeId
    rw [same] at old
    exact list.loopless (old ▸ listed)
  · refine list.nodup.map_on fun one first other second same => ?_
    have left := getD_idxOf (below first).1 0
    rw [same, getD_idxOf (below second).1 0] at left
    exact left.symm
  · obtain ⟨old, listed, rfl⟩ := List.mem_map.mp member
    obtain ⟨here, level_⟩ := below listed
    refine decide_eq_true ⟨?_, ?_⟩
    · show newToOld.idxOf old < nodes.nodeCount
      rw [← length]
      exact List.idxOf_lt_length_iff.mpr here
    · show level ≤ nodes.level (newToOld.getD (newToOld.idxOf old) (newToOld.idxOf old))
      rw [getD_idxOf here]
      exact level_

/-- **The new order of the nodes.** -/
theorem reorder_sound (graph : BuiltGraph D) (sound : ListsSound graph.nodes graph.lists)
    (graphReorder : Bool) :
    ListsSound (reorderForLocality graphReorder graph).nodes
      (reorderForLocality graphReorder graph).lists := by
  unfold reorderForLocality
  dsimp only
  split_ifs
  · exact sound
  · exact sound
  · have order := localityOrder_spec graph.nodes.nodeCount graph.entryNodeId
      fun nodeId => names (graph.lists nodeId 0)
    exact renumber_sound order.1 order.2 sound

end Reorder

/-! ### The whole build -/

theorem buildGraph_lists_sound (nodes : BuildNodes D) (options : BuildOptions) :
    ListsSound (buildGraph nodes options).nodes (buildGraph nodes options).lists := by
  have reordered := reorder_sound ⟨nodes, (options.strategy.edges nodes).lists,
    (options.strategy.edges nodes).entryNodeId, (options.strategy.edges nodes).segmentCount⟩
    (edges_sound options.strategy) options.graphReorder
  unfold buildGraph
  dsimp only
  split_ifs
  · exact ensureLevel0Backbone_sound reordered
  · exact reordered

/-- **What a build writes.** Whatever the nodes, their levels and distances, and however the edges
are built: every list stays within the capacity of its level, names no node twice and not its own,
and only nodes that have the level. A selection is not empty where there is a candidate. -/
theorem buildGraph_sound (nodes : BuildNodes D) (options : BuildOptions) :
    (∀ nodeId level,
      (writeAdjPages (buildGraph nodes options) nodeId level).length ≤ levelM nodes.m level ∧
      nodeId ∉ writeAdjPages (buildGraph nodes options) nodeId level ∧
      (writeAdjPages (buildGraph nodes options) nodeId level).Nodup ∧
      ∀ target ∈ writeAdjPages (buildGraph nodes options) nodeId level,
        target < nodes.nodeCount ∧ level ≤ (buildGraph nodes options).nodes.level target) ∧
    ∀ (prepared : Option Nat) (src level : Nat) (candidates : List (D × Nat)),
      (∃ item ∈ candidates, item.2 ≠ src) →
        selectNeighbors nodes prepared src candidates level ≠ [] := by
  have same : (buildGraph nodes options).nodes.m = nodes.m ∧
      (buildGraph nodes options).nodes.nodeCount = nodes.nodeCount := by
    unfold buildGraph reorderForLocality
    dsimp only
    split_ifs <;> exact ⟨rfl, rfl⟩
  refine ⟨fun nodeId level => ?_, fun prepared src level candidates candidate =>
    selectNeighbors_ne_nil nodes prepared level candidate⟩
  unfold writeAdjPages
  split_ifs
  · have list := buildGraph_lists_sound nodes options nodeId level
    refine ⟨same.1 ▸ list.bounded, list.loopless, list.nodup, fun target member => ?_⟩
    have stored := of_decide_eq_true (list.allFit target member)
    exact ⟨same.2 ▸ stored.1, stored.2⟩
  · exact ⟨Nat.zero_le _, List.not_mem_nil, List.nodup_nil,
      fun _ member => absurd member List.not_mem_nil⟩

end TurboHybrid.Graph.Build
