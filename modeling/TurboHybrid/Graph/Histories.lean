/-
**Histories of an index.**

An index is built, then vectors and documents are inserted and nodes deleted in any order. An insert
may end behind its updates, and a vacuum may find a graph that such an insert has left.

* `builtIndex_wellFormed`: the index that a build writes;
* `InsertWellFormed.bulkDelete`, `InsertWellFormed.insert`: one vacuum, one insert;
* `histories_wellFormed`: every list stays well formed in every history.
-/
import TurboHybrid.Graph.BuildEdges
import TurboHybrid.Graph.InsertShape

namespace TurboHybrid.Graph

variable {F V Doc : Type} [LinearOrder F] {pickLevel : Nat → Nat} {index after : GraphIndex}

/-- An insert of a vector or a document, or a vacuum that deletes the nodes a callback names. -/
inductive Change (F V Doc : Type) [LinearOrder F] where
  | insert (insertion : Insertion F V Doc)
  | bulkDelete (callback : Nat → Bool)

def runChange (index : GraphIndex) : Change F V Doc → GraphIndex
  | .insert insertion => (insertion.run index).1
  | .bulkDelete callback => (bulkDelete callback index).1

def runHistory (index : GraphIndex) (history : List (Change F V Doc)) : GraphIndex :=
  history.foldl runChange index

/-! ### One event -/

/-- Where the counters and the levels stay, only the lists matter. -/
theorem InsertWellFormed.relist (wellFormed : InsertWellFormed pickLevel index)
    (sameM : after.page.m = index.page.m) (sameCount : after.page.nodeCount = index.page.nodeCount)
    (sameLength : after.nodes.length = index.nodes.length)
    (sameLevels : ∀ nodeId, nodeLevel after.nodes nodeId = nodeLevel index.nodes nodeId)
    (lists : ∀ nodeId level, Stores index nodeId level →
      WellFormedList (levelM index.page.m level) (FitsInsert pickLevel index level) nodeId
        (after.adjacency nodeId level)) : InsertWellFormed pickLevel after := by
  have fits : ∀ level, FitsInsert pickLevel after level = FitsInsert pickLevel index level := by
    intro level
    funext neighbor
    simp only [FitsInsert, sameCount, sameLevels]
  refine ⟨by rw [sameCount, sameLength, wellFormed.counted], fun nodeId level stored => ?_⟩
  rw [sameM, fits]
  refine lists nodeId level ?_
  rwa [Stores, sameM, sameCount, sameLevels] at stored

theorem InsertWellFormed.graph (wellFormed : InsertWellFormed pickLevel index) :
    GraphWellFormed index := by
  intro nodeId level stored
  have list := wellFormed.lists nodeId level stored
  refine ⟨list.bounded, list.loopless, list.nodup, fun neighbor member below => ?_⟩
  rcases list.allFit neighbor member with fits | next
  · exact fits.2
  · exact absurd next.1 below.ne

/-- **The repair** keeps the lists well formed also where a failed insert has left its node id. -/
theorem InsertWellFormed.repairGraph (wellFormed : InsertWellFormed pickLevel index) :
    InsertWellFormed pickLevel (repairGraph index).1 := by
  obtain ⟨sameCount, -, sameM, -⟩ :=
    vacuumRepairEntries_counters (repairContext index).toVacuumNodes (repairContext index).nodeCount
      index.page
  have repairs := repairAdjacencyForDeadNodes_repairs (repairContext index)
    (loadAllAdj (repairContext index) index)
  refine wellFormed.relist sameM sameCount rfl (fun _ => rfl) fun nodeId level stored => ?_
  have list := repairs.wellFormed wellFormed.graph.copy nodeId level
  rw [wellFormed.graph.repairGraph_adjacency stored]
  refine ⟨list.bounded, list.loopless, list.nodup, fun neighbor member => ?_⟩
  by_cases old : neighbor ∈ loadAllAdj (repairContext index) index nodeId level
  · rw [wellFormed.graph.loadAllAdj_eq stored] at old
    exact (wellFormed.lists nodeId level stored).allFit neighbor old
  · obtain ⟨-, live, reaches, -⟩ := repairs.installs nodeId neighbor level member old
    exact .inl ⟨live.1, reaches⟩

theorem InsertWellFormed.bulkDelete (wellFormed : InsertWellFormed pickLevel index)
    (callback : Nat → Bool) : InsertWellFormed pickLevel (bulkDelete callback index).1 := by
  by_cases none_ : index.page.nodeCount = 0
  · rwa [Graph.bulkDelete, if_pos none_]
  · have marked : InsertWellFormed pickLevel
        { index with nodes := markDead callback index.nodes } :=
      wellFormed.relist rfl rfl List.length_mapIdx (nodeLevel_markDead callback index.nodes)
        wellFormed.lists
    rcases bulkDelete_spec callback none_ with ⟨-, same⟩ | ⟨generation, repaired⟩
    · rwa [same]
    · rw [repaired]
      exact marked.repairGraph.relist rfl rfl rfl (fun _ => rfl) marked.repairGraph.lists

theorem InsertWellFormed.insert (insertion : Insertion F V Doc)
    (wellFormed : InsertWellFormed insertion.pickLevel index) :
    InsertWellFormed insertion.pickLevel (insertion.run index).1 := by
  obtain ⟨page, nodes⟩ : (insertion.linked index).page = index.page ∧
      (insertion.linked index).nodes = index.nodes := updateReciprocalNeighbors_page ..
  have counted := wellFormed.counted
  rcases insertion.run_spec index with ended | appended
  · rw [ended]
    exact wellFormed.relist (by rw [page]) (by rw [page]) (by rw [nodes]) (by simp [nodes])
      fun nodeId level stored => Insertion.linked_wellFormed wellFormed stored
  · refine ⟨?_, fun nodeId level stored => ?_⟩
    · rw [appended.nodeCount, appended.nodes, List.length_append, counted]
      rfl
    obtain ⟨below, low, inside⟩ := stored
    rw [appended.nodeCount] at below
    rw [appended.nodes] at low
    rw [appended.m] at inside
    rw [appended.m, appended.adjacency]
    rcases Nat.lt_succ_iff_lt_or_eq.mp below with old | rfl
    · rw [nodeLevel_append _ (counted ▸ old)] at low
      have list := Insertion.linked_wellFormed wellFormed ⟨old, low, inside⟩
      rw [if_neg fun both => old.ne both.1]
      exact ⟨list.bounded, list.loopless, list.nodup, fun neighbor member =>
        appended.fits counted (list.allFit neighbor member)⟩
    · have selected := insertion.selected_spec index level
      rw [counted, nodeLevel_new, ← counted] at low
      rw [if_pos ⟨rfl, le_min low (Nat.le_sub_one_of_lt inside)⟩]
      refine ⟨selected.bounded, fun member => ?_, selected.nodup, fun neighbor member =>
        appended.fits counted (fitsInsert_of_takes (selected.take neighbor member))⟩
      exact Nat.lt_irrefl _ (takesReciprocal_iff.mp (selected.take _ member)).1

/-! ### The build -/

/-- What a build leaves of its graph: the lists it wrote, and live nodes with their codes. The page
has the counters, and entries that do not matter here. -/
def builtIndex {D : Type} [LinearOrder D] (graph : Build.BuiltGraph D) (page : Metapage)
    (code : Nat → List Nat) : GraphIndex where
  page := { page with m := graph.nodes.m, nodeCount := graph.nodes.nodeCount }
  nodes := (List.range graph.nodes.nodeCount).map fun nodeId =>
    ⟨graph.nodes.level nodeId, false, code nodeId⟩
  adjacency := Build.writeAdjPages graph

theorem builtIndex_wellFormed {D : Type} [LinearOrder D] (nodes : Build.BuildNodes D)
    (options : Build.BuildOptions) (page : Metapage) (code : Nat → List Nat) :
    InsertWellFormed pickLevel (builtIndex (Build.buildGraph nodes options) page code) := by
  refine ⟨by simp [builtIndex], fun nodeId level stored => ?_⟩
  have list := Build.buildGraph_lists_sound nodes options nodeId level
  change WellFormedList _ _ _ (Build.writeAdjPages _ nodeId level)
  unfold Build.writeAdjPages
  split_ifs
  · refine ⟨list.bounded, list.loopless, list.nodup, fun target member => .inl ?_⟩
    obtain ⟨below, reaches⟩ := of_decide_eq_true (list.allFit target member)
    refine ⟨below, ?_⟩
    simpa [nodeLevel, builtIndex, below] using reaches
  · exact ⟨Nat.zero_le _, List.not_mem_nil, List.nodup_nil,
      fun _ member => absurd member List.not_mem_nil⟩

/-! ### Every history -/

/-- **In every history** of a build, inserts and vacuums each list keeps to its capacity, has neither
its own node nor duplicates, and names only nodes of its level, or the id that the next insert
takes. -/
theorem histories_wellFormed {D : Type} [LinearOrder D] (nodes : Build.BuildNodes D)
    (options : Build.BuildOptions) (page : Metapage) (code : Nat → List Nat)
    {history : List (Change F V Doc)}
    (levels : ∀ insertion, .insert insertion ∈ history → insertion.pickLevel = pickLevel) :
    InsertWellFormed pickLevel
      (runHistory (builtIndex (Build.buildGraph nodes options) page code) history) := by
  refine List.foldlRecOn history runChange (builtIndex_wellFormed nodes options page code)
    fun index before change member => ?_
  cases change with
  | insert insertion =>
    obtain rfl := levels insertion member
    exact before.insert insertion
  | bulkDelete callback => exact before.bulkDelete callback

/-- Two nodes are built, one is inserted and the first deleted. -/
theorem histories_wellFormed_line : InsertWellFormed lineInsertion.pickLevel
    (runHistory (builtIndex (Build.buildGraph
        ⟨2, 2, fun _ => 0, fun _ one other => one - other + (other - one), 100, 8, false, le_rfl⟩
        ⟨.serial 1 fun _ _ => false, false, true⟩) lineGraph.page fun _ => [])
      [.insert lineInsertion, .bulkDelete fun nodeId => nodeId == 0]) := by
  refine histories_wellFormed _ _ _ _ fun insertion member => ?_
  simp only [List.mem_cons, Change.insert.injEq, reduceCtorEq, List.not_mem_nil, or_false] at member
  rw [member]

end TurboHybrid.Graph
