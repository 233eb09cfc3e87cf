/-
**The nodes of the graph and its metapage.**

Nodes are only ever appended; a vacuum marks them dead and leaves them, with their adjacency, in
place. The metapage holds the node count, the entry node with its level, the largest level given to
any node, and the other entries of a search.

* `insertMetaUpdate`, `updateMetaPageFromUpdate`: what an insert writes, from its reading of the page;
* `vacuumRepairEntries`: what a vacuum puts in the place of dead entries;
* `vacuumBestLiveNode_spec`: the entry it chooses is a live node of the highest live level.
-/
import Mathlib.Data.List.Basic
import Mathlib.Order.Nat
import Mathlib.Tactic.Common

namespace TurboHybrid.Graph

/-! ### Data -/

/-- What a node's code tuple says of it: its level, whether it is dead, and the bytes of its code. -/
structure GraphNode where
  level : Nat
  dead : Bool
  code : List Nat
  deriving DecidableEq, Repr

/-- A segment of the build with an entry of its own; an entry is `none` where the page holds
`UINT_MAX`. -/
structure SegmentMeta where
  startNodeId : Nat
  nodeCount : Nat
  entryNodeId : Option Nat
  entryLevel : Int
  deriving DecidableEq, Repr

structure Metapage where
  m : Nat
  nodeCount : Nat
  entryNodeId : Option Nat
  entryLevel : Int
  graphMaxLevel : Nat
  graphGeneration : Nat
  segments : List SegmentMeta
  routingEntryNodeIds : List Nat
  entrySidecarNodeIds : List Nat
  deriving DecidableEq, Repr

def uint64Max : Nat := 18446744073709551615

inductive GraphError where
  | generationExhausted
  deriving DecidableEq, Repr

def GraphError.message : GraphError → String
  | .generationExhausted => "pgturbohybrid graph generation exhausted"

def nextGeneration (page : Metapage) : Except GraphError Nat :=
  if page.graphGeneration = uint64Max then .error .generationExhausted
  else .ok (if page.graphGeneration = 0 then 1 else page.graphGeneration + 1)

/-! ### Inserts -/

/-- The fields an insert of a node of a level writes, from the page as it read it. -/
def insertMetaUpdate (read : Metapage) (nodeLevel : Nat) : Metapage :=
  let newNodeId := read.nodeCount
  let entryNodeId :=
    if read.nodeCount = 0 ∨ read.graphMaxLevel < nodeLevel then some newNodeId
    else read.entryNodeId
  { read with
    graphMaxLevel := max read.graphMaxLevel nodeLevel
    nodeCount := read.nodeCount + 1
    entryNodeId
    entryLevel := if entryNodeId = some newNodeId then nodeLevel else read.entryLevel }

/-- Write the fields of an update over the page; only the generation goes on from the page. -/
def updateMetaPageFromUpdate (page update : Metapage) : Except GraphError Metapage := do
  let generation ← nextGeneration page
  return { update with
    graphGeneration := generation
    entryLevel := if 0 < update.nodeCount then update.entryLevel else -1
    entryNodeId := if 0 < update.nodeCount then update.entryNodeId else none }

def bumpMetaGeneration (page : Metapage) : Except GraphError Metapage := do
  let generation ← nextGeneration page
  return { page with graphGeneration := generation }

/-! ### Entries after a vacuum -/

/-- What a vacuum knows of the nodes it has read: the dead ones and their levels. -/
structure VacuumNodes where
  dead : Nat → Bool
  level : Nat → Nat

/-- The first live node of the highest level in a range. -/
def vacuumBestLiveNode (nodes : VacuumNodes) (startNodeId nodeCount : Nat) : Option Nat :=
  ((List.range' startNodeId nodeCount).foldl (fun best nodeId =>
    if nodes.dead nodeId then best
    else
      match best with
      | none => some nodeId
      | some chosen => if nodes.level chosen < nodes.level nodeId then some nodeId else best) none)

/-- A segment keeps a live entry and gets the best live node of its range for another. -/
def repairSegment (nodes : VacuumNodes) (nodeCount : Nat) (segment : SegmentMeta) : SegmentMeta :=
  if segment.entryNodeId.any (fun entry => entry < nodeCount && !nodes.dead entry) then segment
  else
    let entry := vacuumBestLiveNode nodes segment.startNodeId segment.nodeCount
    { segment with
      entryNodeId := entry
      entryLevel := (entry.map fun nodeId => (nodes.level nodeId : Int)).getD (-1) }

/-- The entries of the page after a vacuum that read `nodeCount` nodes; nothing changes where no
node is alive. -/
def vacuumRepairEntries (nodes : VacuumNodes) (nodeCount : Nat) (page : Metapage) : Metapage :=
  match vacuumBestLiveNode nodes 0 nodeCount with
  | none => page
  | some globalEntry =>
    let keeps := page.entryNodeId.any fun entry => entry < nodeCount && !nodes.dead entry
    { page with
      entryNodeId := if keeps then page.entryNodeId else some globalEntry
      entryLevel := if keeps then page.entryLevel else nodes.level globalEntry
      segments := page.segments.map (repairSegment nodes nodeCount)
      routingEntryNodeIds := page.routingEntryNodeIds.map fun nodeId =>
        if nodes.dead nodeId then globalEntry else nodeId
      entrySidecarNodeIds := page.entrySidecarNodeIds.map fun nodeId =>
        if nodes.dead nodeId then globalEntry else nodeId }

theorem vacuumRepairEntries_counters (nodes : VacuumNodes) (nodeCount : Nat) (page : Metapage) :
    let repaired := vacuumRepairEntries nodes nodeCount page
    repaired.nodeCount = page.nodeCount ∧ repaired.graphMaxLevel = page.graphMaxLevel ∧
      repaired.m = page.m ∧ repaired.graphGeneration = page.graphGeneration := by
  dsimp only [vacuumRepairEntries]
  split <;> exact ⟨rfl, rfl, rfl, rfl⟩

/-! ### The entry chosen -/

section Best

variable {nodes : VacuumNodes}

/-- A node of the range with the highest level among its live ones. -/
structure BestLive (nodes : VacuumNodes) (inside : Nat → Prop) (best : Nat) : Prop where
  member : inside best
  live : nodes.dead best = false
  highest : ∀ nodeId, inside nodeId → nodes.dead nodeId = false →
    nodes.level nodeId ≤ nodes.level best

theorem bestLive_fold (range : List Nat) {seen : List Nat} {best : Option Nat}
    (before : (best = none ∧ ∀ nodeId ∈ seen, nodes.dead nodeId = true) ∨
      ∃ chosen, best = some chosen ∧ BestLive nodes (· ∈ seen) chosen) :
    let final := range.foldl (fun best nodeId =>
      if nodes.dead nodeId then best
      else
        match best with
        | none => some nodeId
        | some chosen => if nodes.level chosen < nodes.level nodeId then some nodeId else best) best
    (final = none ∧ ∀ nodeId ∈ seen ++ range, nodes.dead nodeId = true) ∨
      ∃ chosen, final = some chosen ∧ BestLive nodes (· ∈ seen ++ range) chosen := by
  induction range generalizing seen best with
  | nil => simpa using before
  | cons nodeId rest ih =>
    simp only [List.foldl_cons]
    rw [← List.singleton_append, ← List.append_assoc]
    apply ih
    rcases before with ⟨rfl, allDead⟩ | ⟨chosen, rfl, chosenBest⟩
    · cases dead : nodes.dead nodeId with
      | true =>
        refine .inl ⟨rfl, fun other member => ?_⟩
        rcases List.mem_append.mp member with old | new
        · exact allDead other old
        · rw [List.mem_singleton.mp new, dead]
      | false =>
        refine .inr ⟨nodeId, rfl, List.mem_append_right _ (List.mem_singleton_self _), dead,
          fun other member live => ?_⟩
        rcases List.mem_append.mp member with old | new
        · rw [allDead other old] at live
          cases live
        · rw [List.mem_singleton.mp new]
    · right
      have highest (best : Nat) (above : nodes.level chosen ≤ nodes.level best)
          (new : nodes.dead nodeId = false → nodes.level nodeId ≤ nodes.level best) (other : Nat)
          (member : other ∈ seen ++ [nodeId]) (live : nodes.dead other = false) :
          nodes.level other ≤ nodes.level best := by
        rcases List.mem_append.mp member with old | last
        · exact (chosenBest.highest other old live).trans above
        · rw [List.mem_singleton.mp last] at live ⊢
          exact new live
      dsimp only
      split_ifs with dead higher
      · exact ⟨chosen, rfl, List.mem_append_left _ chosenBest.member, chosenBest.live,
          highest chosen le_rfl fun live => by rw [dead] at live; cases live⟩
      · exact ⟨nodeId, rfl, List.mem_append_right _ (List.mem_singleton_self _),
          by simpa using dead, highest nodeId higher.le fun _ => le_rfl⟩
      · exact ⟨chosen, rfl, List.mem_append_left _ chosenBest.member, chosenBest.live,
          highest chosen le_rfl fun _ => not_lt.mp higher⟩

/-- **The best live node**: none where all are dead, else a live node of the highest live level. -/
theorem vacuumBestLiveNode_spec (nodes : VacuumNodes) (nodeCount : Nat) :
    (vacuumBestLiveNode nodes 0 nodeCount = none ∧ ∀ nodeId < nodeCount, nodes.dead nodeId = true) ∨
      ∃ best, vacuumBestLiveNode nodes 0 nodeCount = some best ∧
        BestLive nodes (· < nodeCount) best := by
  have range := @bestLive_fold nodes (List.range' 0 nodeCount) [] _
    (.inl ⟨rfl, fun _ member => absurd member List.not_mem_nil⟩)
  have inside (nodeId : Nat) : nodeId ∈ [] ++ List.range' 0 nodeCount ↔ nodeId < nodeCount := by
    simp [List.mem_range'_1]
  rcases range with ⟨none, allDead⟩ | ⟨best, found, bestLive⟩
  · exact .inl ⟨none, fun nodeId below => allDead nodeId ((inside nodeId).mpr below)⟩
  · exact .inr ⟨best, found, (inside best).mp bestLive.member, bestLive.live,
      fun nodeId below live => bestLive.highest nodeId ((inside nodeId).mpr below) live⟩

end Best

end TurboHybrid.Graph
