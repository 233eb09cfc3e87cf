/-
**Deletion: the repair of the adjacency and of the entries.**

A bulk delete marks nodes dead, tries to put a live neighbour in the place of each reference from a
live node to a dead one, and replaces dead entries. The adjacency of dead nodes stays as it is.

* `vacuumRepairReference`, `repairAdjacencyForDeadNodes`: the repair of one reference and of all;
* `bulkDelete`: the whole deletion;
* `bulkDelete_spec`: a deletion marks nodes and repairs the graph unless every node is alive.
-/
import Mathlib.Algebra.Ring.Nat
import Mathlib.Data.List.Sort
import TurboHybrid.Graph.Metapage

namespace TurboHybrid.Graph

/-! ### The stored graph -/

def levelM (m level : Nat) : Nat := if level = 0 then m * 2 else m

def maxStoredLevel : Nat := 8

/-- The largest level whose neighbours fit a page, less the headers of the page. -/
def maxLevel (m : Nat) : Nat := min ((8192 - 24 - 8 - 4 - 4) / 6 / m - 2) 255

def levelCapacity (m : Nat) : Nat := min (maxLevel m) maxStoredLevel + 1

abbrev Adjacency := Nat → Nat → List Nat

def Adjacency.set (adjacency : Adjacency) (nodeId level : Nat) (neighbors : List Nat) :
    Adjacency := fun other otherLevel =>
  if other = nodeId ∧ otherLevel = level then neighbors else adjacency other otherLevel

/-- The metapage, the code tuples in the order of their node ids, and the adjacency tuples. -/
structure GraphIndex where
  page : Metapage
  nodes : List GraphNode
  adjacency : Adjacency

/-- The neighbours a reader takes from a tuple, cut to the capacity of its level. -/
def loadAdjTuple (index : GraphIndex) : Adjacency := fun nodeId level =>
  if nodeId < index.page.nodeCount ∧ level < levelCapacity index.page.m then
    (index.adjacency nodeId level).take (levelM index.page.m level)
  else []

def nodeLevel (nodes : List GraphNode) (nodeId : Nat) : Nat := (nodes[nodeId]?.map (·.level)).getD 0

def nodeDead (nodes : List GraphNode) (nodeId : Nat) : Bool :=
  (nodes[nodeId]?.map (·.dead)).getD false

/-! ### The repair of one reference -/

/-- What the repair works with: the page's parameters and what it knows of the nodes. -/
structure RepairContext extends VacuumNodes where
  m : Nat
  nodeCount : Nat
  code : Nat → List Nat

def dblMax : Nat := 2 ^ 1024 - 2 ^ 971

def vacuumCodeDistance (ctx : RepairContext) (a b : Nat) : Nat :=
  if ctx.nodeCount ≤ a ∨ ctx.nodeCount ≤ b then dblMax
  else (List.zipWith (fun one other => (one - other + (other - one)) ^ 2) (ctx.code a)
    (ctx.code b)).sum

/-- A reference that is of no use: out of range or dead. -/
def isReplaceable (ctx : RepairContext) (nodeId : Nat) : Bool :=
  decide (ctx.nodeCount ≤ nodeId) || ctx.dead nodeId

/-- The first reference that may be overwritten, else the slot behind the last where there is room. -/
def vacuumReplaceableSlot (ctx : RepairContext) (neighbors : List Nat) (capacity : Nat) :
    Option Nat :=
  match neighbors.findIdx? (isReplaceable ctx) with
  | some slot => some slot
  | none => if neighbors.length < capacity then some neighbors.length else none

/-- Write a slot, which may be the one behind the last. -/
def putSlot (neighbors : List Nat) (slot value : Nat) : List Nat :=
  if slot = neighbors.length then neighbors ++ [value] else neighbors.set slot value

/-- Replace a source's reference to a dead node and install the reference back, or do nothing. -/
def vacuumInstallReciprocal (ctx : RepairContext) (adjacency : Adjacency)
    (level source deadNode replacement : Nat) : Option Adjacency :=
  let sourceAdj := adjacency source level
  let replacementAdj := adjacency replacement level
  match sourceAdj.idxOf? deadNode with
  | none => none
  | some sourceSlot =>
    if replacement ∈ sourceAdj then none
    else
      let written := adjacency.set source level (sourceAdj.set sourceSlot replacement)
      if source ∈ replacementAdj then some written
      else
        (vacuumReplaceableSlot ctx replacementAdj (levelM ctx.m level)).map fun slot =>
          written.set replacement level (putSlot replacementAdj slot source)

/-- The nodes the repair looks at: the dead node's neighbours from each of them on, then the
neighbours of each. -/
def vacuumPool (ctx : RepairContext) (adjacency : Adjacency) (level deadNode : Nat) : List Nat :=
  let deadAdj := adjacency deadNode level
  deadAdj.tails.flatten ++
    (deadAdj.filter fun seed => decide (seed < ctx.nodeCount)).flatMap fun seed =>
      adjacency seed level

def isCandidate (ctx : RepairContext) (level source candidate : Nat) : Bool :=
  decide (candidate < ctx.nodeCount) && candidate != source && !ctx.dead candidate &&
    decide (level ≤ ctx.level candidate)

/-- The candidates, each once and up to the limit, the nearest first. -/
def vacuumCandidates (ctx : RepairContext) (adjacency : Adjacency) (level deadNode source : Nat) :
    List (Nat × Nat) :=
  let collected := (vacuumPool ctx adjacency level deadNode).foldl (fun found candidate =>
    if found.length < levelM ctx.m level * 4 ∧ isCandidate ctx level source candidate ∧
      candidate ∉ found then found ++ [candidate] else found) []
  (collected.map fun candidate => (vacuumCodeDistance ctx source candidate, candidate)).insertionSort
    fun one other => one.1 < other.1 ∨ one.1 = other.1 ∧ one.2 ≤ other.2

/-- No live neighbour of the source is nearer to the candidate than the source is. -/
def isDiverse (ctx : RepairContext) (sourceAdj : List Nat) (deadNode : Nat)
    (candidate : Nat × Nat) : Bool :=
  sourceAdj.all fun selected =>
    selected == deadNode || isReplaceable ctx selected ||
      decide (candidate.1 ≤ vacuumCodeDistance ctx candidate.2 selected)

/-- One source's reference to a dead node, replaced by the first candidate that can be installed. -/
def vacuumRepairReference (ctx : RepairContext) (level deadNode source : Nat)
    (adjacency : Adjacency) : Adjacency :=
  if ctx.dead source ∨ ctx.level source < level ∨ deadNode ∉ adjacency source level then adjacency
  else
    ((vacuumCandidates ctx adjacency level deadNode source).findSome? fun candidate =>
      if isDiverse ctx (adjacency source level) deadNode candidate then
        vacuumInstallReciprocal ctx adjacency level source deadNode candidate.2
      else none).getD adjacency

/-! ### The whole deletion -/

def repairLevel (ctx : RepairContext) (deadNode level : Nat) (adjacency : Adjacency) : Adjacency :=
  (List.range ctx.nodeCount).foldl (fun adjacency source =>
    vacuumRepairReference ctx level deadNode source adjacency) adjacency

def repairDeadNode (ctx : RepairContext) (deadNode : Nat) (adjacency : Adjacency) : Adjacency :=
  if ctx.dead deadNode then
    (List.range (min (ctx.level deadNode) (levelCapacity ctx.m - 1) + 1)).reverse.foldl
      (fun adjacency level => repairLevel ctx deadNode level adjacency) adjacency
  else adjacency

/-- The repair of a copy of the adjacency: each dead node, from its highest level down. -/
def repairAdjacencyForDeadNodes (ctx : RepairContext) (adjacency : Adjacency) : Adjacency :=
  (List.range ctx.nodeCount).foldl (fun adjacency deadNode =>
    repairDeadNode ctx deadNode adjacency) adjacency

/-- The levels of a node whose tuples the repair reads and writes. -/
def repairsLevel (ctx : RepairContext) (nodeId level : Nat) : Bool :=
  decide (nodeId < ctx.nodeCount) && decide (level ≤ ctx.level nodeId) &&
    decide (level < levelCapacity ctx.m)

def loadAllAdj (ctx : RepairContext) (index : GraphIndex) : Adjacency := fun nodeId level =>
  if repairsLevel ctx nodeId level then loadAdjTuple index nodeId level else []

def writeRepaired (ctx : RepairContext) (index : GraphIndex) (original repaired : Adjacency) :
    GraphIndex :=
  { index with
    adjacency := fun nodeId level =>
      if repairsLevel ctx nodeId level ∧ repaired nodeId level ≠ original nodeId level then
        repaired nodeId level
      else index.adjacency nodeId level }

def repairContext (index : GraphIndex) : RepairContext where
  dead := nodeDead index.nodes
  level := nodeLevel index.nodes
  m := index.page.m
  nodeCount := index.page.nodeCount
  code nodeId := (index.nodes[nodeId]?.map (·.code)).getD []

def markDead (callback : Nat → Bool) (nodes : List GraphNode) : List GraphNode :=
  nodes.mapIdx fun nodeId node => { node with dead := node.dead || callback nodeId }

/-- Whether the repair of the entries writes the page: it does so also where the new entry is the old
one, as for a segment without a live node. -/
def vacuumEntriesChanged (nodes : VacuumNodes) (nodeCount : Nat) (page : Metapage) : Bool :=
  let keeps (entry : Option Nat) := entry.any fun nodeId => nodeId < nodeCount && !nodes.dead nodeId
  (vacuumBestLiveNode nodes 0 nodeCount).isSome &&
    (!keeps page.entryNodeId || page.segments.any (fun segment => !keeps segment.entryNodeId) ||
      page.routingEntryNodeIds.any nodes.dead || page.entrySidecarNodeIds.any nodes.dead)

/-- The repair after marking: the adjacency, then the entries, and whether anything was written. -/
def repairGraph (index : GraphIndex) : GraphIndex × Bool :=
  let ctx := repairContext index
  let original := loadAllAdj ctx index
  let repaired := repairAdjacencyForDeadNodes ctx original
  ({ writeRepaired ctx index original repaired with
      page := vacuumRepairEntries ctx.toVacuumNodes ctx.nodeCount index.page },
    vacuumEntriesChanged ctx.toVacuumNodes ctx.nodeCount index.page ||
      (List.range ctx.nodeCount).any fun nodeId =>
        (List.range (levelCapacity ctx.m)).any fun level =>
          repairsLevel ctx nodeId level && decide (repaired nodeId level ≠ original nodeId level))

/-- Advance the generation of the page. Where it is exhausted the page stays as it is. -/
def publishGeneration (index : GraphIndex) : GraphIndex × Except GraphError Unit :=
  match bumpMetaGeneration index.page with
  | .ok page => ({ index with page }, .ok ())
  | .error error => (index, .error error)

/-- A bulk delete of the nodes that a callback names. -/
def bulkDelete (callback : Nat → Bool) (index : GraphIndex) : GraphIndex × Except GraphError Unit :=
  if index.page.nodeCount = 0 then (index, .ok ())
  else
    let marked := { index with nodes := markDead callback index.nodes }
    if (List.range marked.page.nodeCount).any (nodeDead marked.nodes) then
      if marked.nodes ≠ index.nodes ∨ (repairGraph marked).2 then
        publishGeneration (repairGraph marked).1
      else ((repairGraph marked).1, .ok ())
    else (marked, .ok ())

theorem publishGeneration_spec (index : GraphIndex) :
    ∃ generation, (publishGeneration index).1 =
      { index with page := { index.page with graphGeneration := generation } } := by
  unfold publishGeneration bumpMetaGeneration
  cases nextGeneration index.page with
  | error error => exact ⟨_, rfl⟩
  | ok generation => exact ⟨generation, rfl⟩

/-- **A bulk delete** marks nodes; unless every node is alive it repairs the graph and may advance
the generation. -/
theorem bulkDelete_spec (callback : Nat → Bool) {index : GraphIndex}
    (nonempty : index.page.nodeCount ≠ 0) :
    let marked := { index with nodes := markDead callback index.nodes }
    ((∀ nodeId < index.page.nodeCount, nodeDead marked.nodes nodeId = false) ∧
        (bulkDelete callback index).1 = marked) ∨
      ∃ generation, (bulkDelete callback index).1 = { (repairGraph marked).1 with
        page := { (repairGraph marked).1.page with graphGeneration := generation } } := by
  dsimp only [bulkDelete]
  rw [if_neg nonempty]
  split_ifs with anyDead changed
  · exact .inr (publishGeneration_spec _)
  · exact .inr ⟨_, rfl⟩
  · refine .inl ⟨fun nodeId below => ?_, rfl⟩
    simp only [List.any_eq_true, List.mem_range, not_exists, not_and, Bool.not_eq_true] at anyDead
    exact anyDead nodeId below

end TurboHybrid.Graph
