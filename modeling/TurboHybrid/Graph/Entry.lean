/-
**The entry of the graph over runs of inserts and bulk deletes.**

A run starts with a built index. The entry should be a live node of the highest live level, and the
stored maximum level its level. A bulk delete never lowers the stored maximum level and does nothing
where no live node is left, while an insert decides by the stored maximum level alone.

* `entryHighest_run_iff`: it is so in every state of a run exactly when each bulk delete leaves a
  node of the stored maximum level or none, and no insert of a node at or below that level finds
  only dead nodes;
* `entry_stays_dead`: after all nodes are deleted, an insert leaves the dead entry in place.
-/
import TurboHybrid.Graph.Insert

set_option linter.unusedSectionVars false

namespace TurboHybrid.Graph

/-! ### Nodes -/

section Nodes

variable {nodes : List GraphNode}

theorem nodeDead_markDead (callback : Nat → Bool) (nodes : List GraphNode) {nodeId : Nat}
    (known : nodeId < nodes.length) :
    nodeDead (markDead callback nodes) nodeId = (nodeDead nodes nodeId || callback nodeId) := by
  simp [nodeDead, markDead, List.getElem?_mapIdx, List.getElem?_eq_getElem known]

theorem nodeLevel_markDead (callback : Nat → Bool) (nodes : List GraphNode) (nodeId : Nat) :
    nodeLevel (markDead callback nodes) nodeId = nodeLevel nodes nodeId := by
  simp [nodeLevel, markDead, List.getElem?_mapIdx, Option.map_map, Function.comp_def]

theorem nodeDead_append (new : GraphNode) {nodeId : Nat} (known : nodeId < nodes.length) :
    nodeDead (nodes ++ [new]) nodeId = nodeDead nodes nodeId := by
  simp [nodeDead, List.getElem?_append_left known]

theorem nodeLevel_append (new : GraphNode) {nodeId : Nat} (known : nodeId < nodes.length) :
    nodeLevel (nodes ++ [new]) nodeId = nodeLevel nodes nodeId := by
  simp [nodeLevel, List.getElem?_append_left known]

theorem nodeDead_new (new : GraphNode) : nodeDead (nodes ++ [new]) nodes.length = new.dead := by
  simp [nodeDead]

theorem nodeLevel_new (new : GraphNode) : nodeLevel (nodes ++ [new]) nodes.length = new.level := by
  simp [nodeLevel]

end Nodes

def LiveNode (index : GraphIndex) (nodeId : Nat) : Prop :=
  nodeId < index.page.nodeCount ∧ nodeDead index.nodes nodeId = false

/-! ### The property -/

/-- A recorded entry, with its level, that is a live node of the highest live level. -/
structure IsHighestEntry (index : GraphIndex) (entry : Nat) : Prop where
  recorded : index.page.entryNodeId = some entry
  recordedLevel : index.page.entryLevel = nodeLevel index.nodes entry
  live : LiveNode index entry
  highest : ∀ nodeId, LiveNode index nodeId →
    nodeLevel index.nodes nodeId ≤ nodeLevel index.nodes entry

/-- Such an entry whose level is the stored maximum level. -/
structure IsTopEntry (index : GraphIndex) (entry : Nat) : Prop
    extends IsHighestEntry index entry where
  maximum : index.page.graphMaxLevel = nodeLevel index.nodes entry

/-- **The entry is the highest live node**, where there is one. -/
def EntryHighest (index : GraphIndex) : Prop :=
  (∃ nodeId, LiveNode index nodeId) → ∃ entry, IsTopEntry index entry

/-- What holds of the page in every state: no level is above the maximum, the entry is a node and its
level is recorded. -/
structure PageSound (index : GraphIndex) : Prop where
  counted : index.page.nodeCount = index.nodes.length
  bounded : ∀ nodeId < index.page.nodeCount,
    nodeLevel index.nodes nodeId ≤ index.page.graphMaxLevel
  entry : ∀ entry, index.page.entryNodeId = some entry →
    entry < index.page.nodeCount ∧ index.page.entryLevel = nodeLevel index.nodes entry
  empty : index.page.nodeCount = 0 → index.page.graphMaxLevel = 0

/-! ### Runs -/

section Runs

variable {D : Type} [LinearOrder D]

inductive GraphAction where
  | insert (new : NewNode)
  | bulkDelete (callback : Nat → Bool)

def graphStep (support : InsertSupport D) (index : GraphIndex) : GraphAction → GraphIndex
  | .insert new => (graphInsert support new index).1
  | .bulkDelete callback => (bulkDelete callback index).1

def runGraph (support : InsertSupport D) (start : GraphIndex) (actions : List GraphAction) :
    GraphIndex := actions.foldl (graphStep support) start

/-- The page and the nodes of a build over ranges of nodes, each in the order of its insertion. -/
structure Built (index : GraphIndex) : Prop where
  live : ∀ node ∈ index.nodes, node.dead = false
  entry : ∃ ranges : List (List Nat), ranges.flatten.Perm (List.range index.nodes.length) ∧
    index.page.entryNodeId = buildEntry (nodeLevel index.nodes) ranges
  counted : index.page.nodeCount = index.nodes.length
  entryLevel : index.page.entryLevel =
    (index.page.entryNodeId.map fun entry => (nodeLevel index.nodes entry : Int)).getD (-1)
  maximum : index.page.graphMaxLevel =
    (index.page.entryNodeId.map (nodeLevel index.nodes)).getD 0

/-- Steps that keep the entry right: a bulk delete that leaves no live node or one of the maximum
level; an insert that finds a live node, or no node at all, or brings a level above the maximum, or
fails because the generation is exhausted. -/
def KeepsEntry (support : InsertSupport D) (index : GraphIndex) : GraphAction → Prop
  | .insert _ =>
    (∃ nodeId, LiveNode index nodeId) ∨ index.page.nodeCount = 0 ∨
      index.page.graphMaxLevel < support.pickLevel index.page.nodeCount ∨
      index.page.graphGeneration = uint64Max
  | .bulkDelete callback =>
    (∀ nodeId, LiveNode index nodeId → callback nodeId = true) ∨
      ∃ nodeId, LiveNode index nodeId ∧ callback nodeId = false ∧
        nodeLevel index.nodes nodeId = index.page.graphMaxLevel

/-! ### Bulk deletes -/

theorem liveNode_bulkDelete (callback : Nat → Bool) {index : GraphIndex} (sound : PageSound index)
    (nonempty : index.page.nodeCount ≠ 0) (nodeId : Nat) :
    LiveNode (bulkDelete callback index).1 nodeId ↔
      LiveNode index nodeId ∧ callback nodeId = false := by
  have marked : (bulkDelete callback index).1.nodes = markDead callback index.nodes ∧
      (bulkDelete callback index).1.page.nodeCount = index.page.nodeCount := by
    rcases bulkDelete_spec callback nonempty with ⟨-, kept⟩ | ⟨generation, repaired⟩
    · rw [kept]
      exact ⟨rfl, rfl⟩
    · rw [repaired]
      refine ⟨rfl, ?_⟩
      dsimp only [repairGraph, vacuumRepairEntries]
      split <;> rfl
  unfold LiveNode
  rw [marked.1, marked.2, and_assoc]
  refine and_congr_right fun below => ?_
  rw [nodeDead_markDead callback index.nodes (sound.counted ▸ below), Bool.or_eq_false_iff]

theorem bulkDelete_levels (callback : Nat → Bool) {index : GraphIndex}
    (nonempty : index.page.nodeCount ≠ 0) :
    (bulkDelete callback index).1.page.graphMaxLevel = index.page.graphMaxLevel ∧
      ∀ nodeId, nodeLevel (bulkDelete callback index).1.nodes nodeId =
        nodeLevel index.nodes nodeId := by
  rcases bulkDelete_spec callback nonempty with ⟨-, kept⟩ | ⟨generation, repaired⟩
  · rw [kept]
    exact ⟨rfl, nodeLevel_markDead callback index.nodes⟩
  · rw [repaired]
    refine ⟨?_, nodeLevel_markDead callback index.nodes⟩
    dsimp only [repairGraph, vacuumRepairEntries]
    split <;> rfl

/-- The entries after a repair that knows a live node: the old entry where it is alive, else a live
node of the highest level. -/
theorem vacuumRepairEntries_entry (nodes : VacuumNodes) (page : Metapage) {survivor : Nat}
    (below : survivor < page.nodeCount) (live : nodes.dead survivor = false) :
    let repaired := vacuumRepairEntries nodes page.nodeCount page
    (∃ entry, page.entryNodeId = some entry ∧ entry < page.nodeCount ∧ nodes.dead entry = false ∧
        repaired.entryNodeId = some entry ∧ repaired.entryLevel = page.entryLevel) ∨
      ∃ best, BestLive nodes (· < page.nodeCount) best ∧ repaired.entryNodeId = some best ∧
        repaired.entryLevel = nodes.level best := by
  rcases vacuumBestLiveNode_spec nodes page.nodeCount with ⟨-, allDead⟩ | ⟨best, found, bestLive⟩
  · rw [allDead survivor below] at live
    cases live
  · dsimp only [vacuumRepairEntries]
    rw [found]
    dsimp only
    split_ifs with keeps
    · obtain ⟨entry, recorded, inRange⟩ := (Option.any_eq_true _ _).mp keeps
      simp only [Bool.and_eq_true, decide_eq_true_eq, Bool.not_eq_true'] at inRange
      exact .inl ⟨entry, recorded, inRange.1, inRange.2, recorded, rfl⟩
    · exact .inr ⟨best, bestLive, rfl, rfl⟩

theorem vacuumRepairEntries_keeps {nodes : VacuumNodes} {page : Metapage} {entry : Nat}
    (recorded : page.entryNodeId = some entry) (known : entry < page.nodeCount)
    (live : nodes.dead entry = false) :
    (vacuumRepairEntries nodes page.nodeCount page).entryNodeId = some entry := by
  unfold vacuumRepairEntries
  split
  · exact recorded
  · dsimp only
    rw [recorded, if_pos (by simp [known, live])]

/-- **The entry after a bulk delete** that leaves a live node is a live node of the highest level. -/
theorem bulkDelete_entry (callback : Nat → Bool) {index : GraphIndex} (sound : PageSound index)
    (highest : EntryHighest index) (nonempty : index.page.nodeCount ≠ 0) {survivor : Nat}
    (survives : LiveNode (bulkDelete callback index).1 survivor) :
    ∃ entry, IsHighestEntry (bulkDelete callback index).1 entry := by
  have wasLive (nodeId : Nat) (live : LiveNode (bulkDelete callback index).1 nodeId) :
      LiveNode index nodeId := ((liveNode_bulkDelete callback sound nonempty nodeId).mp live).1
  obtain ⟨top, isTop⟩ := highest ⟨survivor, wasLive survivor survives⟩
  have levels := (bulkDelete_levels callback nonempty).2
  have topHighest (nodeId : Nat) (live : LiveNode (bulkDelete callback index).1 nodeId) :
      nodeLevel (bulkDelete callback index).1.nodes nodeId ≤
        nodeLevel (bulkDelete callback index).1.nodes top := by
    rw [levels, levels]
    exact isTop.highest nodeId (wasLive nodeId live)
  rcases bulkDelete_spec callback nonempty with ⟨allLive, kept⟩ | ⟨generation, repaired⟩
  · refine ⟨top, ?_, ?_, ?_, topHighest⟩
    · rw [kept]
      exact isTop.recorded
    · rw [levels, kept]
      exact isTop.recordedLevel
    · rw [kept]
      exact ⟨isTop.live.1, allLive top isTop.live.1⟩
  · have alive (nodeId : Nat) : LiveNode (bulkDelete callback index).1 nodeId ↔
        nodeId < index.page.nodeCount ∧
          nodeDead (markDead callback index.nodes) nodeId = false := by
      rw [liveNode_bulkDelete callback sound nonempty, LiveNode, and_assoc]
      refine and_congr_right fun below => ?_
      rw [nodeDead_markDead callback index.nodes (sound.counted ▸ below), Bool.or_eq_false_iff]
    obtain ⟨below, live⟩ := (alive survivor).mp survives
    have page : (bulkDelete callback index).1.page = { vacuumRepairEntries
        (repairContext { index with nodes := markDead callback index.nodes }).toVacuumNodes
        index.page.nodeCount index.page with graphGeneration := generation } := by
      rw [repaired]
      rfl
    rcases vacuumRepairEntries_entry
      (repairContext { index with nodes := markDead callback index.nodes }).toVacuumNodes
      index.page below live with ⟨entry, old, inRange, entryLive, recorded, level⟩ |
        ⟨best, bestLive, recorded, level⟩
    · obtain rfl : entry = top := Option.some.inj (old.symm.trans isTop.recorded)
      refine ⟨entry, ?_, ?_, (alive entry).mpr ⟨inRange, entryLive⟩, topHighest⟩
      · rw [page]
        exact recorded
      · rw [page, levels]
        exact level.trans isTop.recordedLevel
    · have sameLevel (nodeId : Nat) : nodeLevel (bulkDelete callback index).1.nodes nodeId =
          nodeLevel (markDead callback index.nodes) nodeId := by
        rw [levels, nodeLevel_markDead]
      refine ⟨best, ?_, ?_, (alive best).mpr ⟨bestLive.member, bestLive.live⟩, fun nodeId live => ?_⟩
      · rw [page]
        exact recorded
      · rw [page, sameLevel]
        exact level
      · rw [sameLevel, sameLevel]
        obtain ⟨below, live⟩ := (alive nodeId).mp live
        exact bestLive.highest nodeId below live

/-- **A bulk delete keeps the entry right exactly where it leaves no live node or one of the stored
maximum level.** -/
theorem entryHighest_bulkDelete_iff (support : InsertSupport D) (callback : Nat → Bool)
    {index : GraphIndex} (sound : PageSound index) (highest : EntryHighest index) :
    EntryHighest (bulkDelete callback index).1 ↔
      KeepsEntry support index (.bulkDelete callback) := by
  by_cases nonempty : index.page.nodeCount = 0
  · have unchanged : (bulkDelete callback index).1 = index := by
      unfold bulkDelete
      rw [if_pos nonempty]
    rw [unchanged]
    refine iff_of_true highest (.inl fun nodeId live => ?_)
    exact absurd live.1 (by omega)
  have levels := bulkDelete_levels callback nonempty
  have alive := liveNode_bulkDelete callback sound nonempty
  by_cases survives : ∃ survivor, LiveNode (bulkDelete callback index).1 survivor
  · obtain ⟨survivor, survives⟩ := survives
    obtain ⟨entry, isHighest⟩ := bulkDelete_entry callback sound highest nonempty survives
    constructor
    · intro after
      obtain ⟨top, isTop⟩ := after ⟨survivor, survives⟩
      obtain ⟨live, kept⟩ := (alive top).mp isTop.live
      refine .inr ⟨top, live, kept, ?_⟩
      rw [← levels.1, ← levels.2 top]
      exact isTop.maximum.symm
    · rintro (none | ⟨top, live, kept, level⟩) -
      · obtain ⟨live, kept⟩ := (alive survivor).mp survives
        rw [none survivor live] at kept
        cases kept
      · refine ⟨entry, isHighest, le_antisymm ?_ ?_⟩
        · have above := isHighest.highest top ((alive top).mpr ⟨live, kept⟩)
          rwa [levels.2 top, level, ← levels.1] at above
        · rw [levels.1, levels.2]
          exact sound.bounded entry ((alive entry).mp isHighest.live).1.1
  · refine iff_of_true (fun live => absurd live survives) (.inl fun nodeId live => ?_)
    by_contra kept
    exact survives ⟨nodeId, (alive nodeId).mpr ⟨live, by simpa using kept⟩⟩

/-! ### Inserts -/

theorem liveNode_inserted {index inserted : GraphIndex} (sound : PageSound index)
    {level : Nat} {new : NewNode} {generation : Nat}
    (page : inserted.page =
      { insertMetaUpdate index.page level with graphGeneration := generation })
    (nodes : inserted.nodes = index.nodes ++ [{ level, dead := false, code := new.code }])
    (nodeId : Nat) :
    LiveNode inserted nodeId ↔ LiveNode index nodeId ∨ nodeId = index.page.nodeCount := by
  unfold LiveNode
  rw [page, nodes]
  change nodeId < index.page.nodeCount + 1 ∧ _ ↔ _
  rcases Nat.lt_trichotomy nodeId index.page.nodeCount with below | same | above
  · rw [nodeDead_append _ (sound.counted ▸ below)]
    constructor
    · exact fun live => .inl ⟨below, live.2⟩
    · rintro (live | same)
      · exact ⟨by omega, live.2⟩
      · omega
  · subst same
    refine iff_of_true ⟨Nat.lt_succ_self _, ?_⟩ (.inr rfl)
    rw [sound.counted, nodeDead_new]
  · constructor
    · rintro ⟨below, -⟩
      omega
    · rintro (live | same)
      · exact absurd live.1 (by omega)
      · omega

/-- **An insert keeps the entry right exactly where it finds a live node or no node, brings a level
above the stored maximum, or fails.** -/
theorem entryHighest_insert_iff (support : InsertSupport D) (new : NewNode) {index : GraphIndex}
    (sound : PageSound index) (highest : EntryHighest index) :
    EntryHighest (graphInsert support new index).1 ↔ KeepsEntry support index (.insert new) := by
  rcases graphInsert_page support new index with ⟨exhausted, page, nodes⟩ |
    ⟨generation, running, page, nodes⟩
  · refine iff_of_true ?_ (.inr (.inr (.inr exhausted)))
    rintro ⟨nodeId, live⟩
    unfold LiveNode at live
    rw [page, nodes] at live
    obtain ⟨top, isTop⟩ := highest ⟨nodeId, live⟩
    refine ⟨top, ⟨?_, ?_, ?_, fun nodeId live => ?_⟩, ?_⟩
    · rw [page]
      exact isTop.recorded
    · rw [page, nodes]
      exact isTop.recordedLevel
    · unfold LiveNode
      rw [page, nodes]
      exact isTop.live
    · unfold LiveNode at live
      rw [page, nodes] at live
      rw [nodes]
      exact isTop.highest nodeId live
    · rw [page, nodes]
      exact isTop.maximum
  generalize levelIs : support.pickLevel index.page.nodeCount = level at page nodes
  have alive := liveNode_inserted sound page nodes
  have oldLevel {nodeId : Nat} (below : nodeId < index.page.nodeCount) :
      nodeLevel (graphInsert support new index).1.nodes nodeId = nodeLevel index.nodes nodeId := by
    rw [nodes, nodeLevel_append _ (sound.counted ▸ below)]
  have newLevel : nodeLevel (graphInsert support new index).1.nodes index.page.nodeCount = level := by
    rw [nodes, sound.counted, nodeLevel_new]
  have maximum : (graphInsert support new index).1.page.graphMaxLevel =
      max index.page.graphMaxLevel level := by
    rw [page]
    rfl
  -- where the new node becomes the entry, its level is the new maximum
  have becomes (replaces : index.page.nodeCount = 0 ∨ index.page.graphMaxLevel < level) :
      EntryHighest (graphInsert support new index).1 := by
    intro _
    have above : index.page.graphMaxLevel ≤ level := by
      rcases replaces with none | higher
      · rw [sound.empty none]
        exact Nat.zero_le _
      · exact higher.le
    have recorded : (insertMetaUpdate index.page level).entryNodeId = some index.page.nodeCount :=
      if_pos replaces
    refine ⟨index.page.nodeCount, ⟨?_, ?_, (alive _).mpr (.inr rfl), fun nodeId live => ?_⟩, ?_⟩
    · rw [page]
      exact recorded
    · rw [page, newLevel]
      exact if_pos recorded
    · rw [newLevel]
      rcases (alive nodeId).mp live with old | rfl
      · rw [oldLevel old.1]
        exact (sound.bounded nodeId old.1).trans above
      · rw [newLevel]
    · rw [maximum, newLevel, max_eq_right above]
  by_cases replaces : index.page.nodeCount = 0 ∨ index.page.graphMaxLevel < level
  · refine iff_of_true (becomes replaces) (.inr ?_)
    rw [levelIs]
    tauto
  have sameEntry : (graphInsert support new index).1.page.entryNodeId = index.page.entryNodeId := by
    rw [page]
    exact if_neg replaces
  rw [not_or, not_lt] at replaces
  constructor
  · intro after
    obtain ⟨top, isTop⟩ := after ⟨index.page.nodeCount, (alive _).mpr (.inr rfl)⟩
    rcases (alive top).mp isTop.live with live | rfl
    · exact .inl ⟨top, live⟩
    · have old := (sound.entry _ (sameEntry ▸ isTop.recorded)).1
      exact absurd old (lt_irrefl _)
  · rintro (someLive | none | higher | exhausted) -
    · obtain ⟨top, isTop⟩ := highest someLive
      have kept : (insertMetaUpdate index.page level).entryNodeId ≠ some index.page.nodeCount := by
        intro new
        have recorded : (insertMetaUpdate index.page level).entryNodeId = some top := by
          rw [← isTop.recorded]
          exact if_neg (not_or.mpr ⟨replaces.1, not_lt.mpr replaces.2⟩)
        exact isTop.live.1.ne (Option.some.inj (recorded.symm.trans new))
      refine ⟨top, ⟨sameEntry.trans isTop.recorded, ?_, (alive top).mpr (.inl isTop.live),
        fun nodeId live => ?_⟩, ?_⟩
      · rw [page, ← page, oldLevel isTop.live.1, page]
        exact (if_neg kept).trans isTop.recordedLevel
      · rw [oldLevel isTop.live.1]
        rcases (alive nodeId).mp live with old | rfl
        · rw [oldLevel old.1]
          exact isTop.highest nodeId old
        · rw [newLevel, ← isTop.maximum]
          exact replaces.2
      · rw [maximum, oldLevel isTop.live.1, max_eq_left replaces.2]
        exact isTop.maximum
    · exact absurd none replaces.1
    · rw [levelIs] at higher
      omega
    · exact absurd exhausted running

/-! ### Every state -/

theorem pageSound_built {index : GraphIndex} (built : Built index) : PageSound index := by
  obtain ⟨ranges, permuted, entry⟩ := built.entry
  have member (nodeId : Nat) : nodeId ∈ ranges.flatten ↔ nodeId < index.nodes.length := by
    rw [permuted.mem_iff, List.mem_range]
  rcases buildEntry_highest ranges with ⟨none, unset⟩ | ⟨first, found, highest⟩
  · have empty : index.page.nodeCount = 0 := by
      rw [built.counted, ← List.length_range (n := index.nodes.length), ← permuted.length_eq, none]
      rfl
    rw [unset] at entry
    refine ⟨built.counted, fun nodeId below => ?_, fun other recorded => ?_, fun _ => ?_⟩
    · omega
    · rw [entry] at recorded
      cases recorded
    · rw [built.maximum, entry]
      rfl
  · rw [found] at entry
    have maximum : index.page.graphMaxLevel = nodeLevel index.nodes first := by
      rw [built.maximum, entry]
      rfl
    refine ⟨built.counted, fun nodeId below => ?_, fun other recorded => ?_, fun none => ?_⟩
    · rw [maximum]
      exact highest.2 nodeId ((member nodeId).mpr (built.counted ▸ below))
    · obtain rfl := Option.some.inj (entry.symm.trans recorded)
      refine ⟨built.counted ▸ (member _).mp highest.1, ?_⟩
      rw [built.entryLevel, entry]
      rfl
    · have below := (member _).mp highest.1
      rw [← built.counted] at below
      omega

theorem entryHighest_built {index : GraphIndex} (built : Built index) : EntryHighest index := by
  rintro ⟨nodeId, live⟩
  have sound := pageSound_built built
  obtain ⟨ranges, permuted, entry⟩ := built.entry
  rcases buildEntry_highest ranges with ⟨none, -⟩ | ⟨first, found, highest⟩
  · have empty := permuted.length_eq
    rw [none, List.length_range, ← built.counted] at empty
    exact absurd live.1 (by simp [← empty])
  · rw [found] at entry
    have inRange : first < index.page.nodeCount := (sound.entry first entry).1
    refine ⟨first, ⟨entry, (sound.entry first entry).2, ⟨inRange, ?_⟩, fun other live => ?_⟩, ?_⟩
    · rw [built.counted] at inRange
      simp [nodeDead, List.getElem?_eq_getElem inRange, built.live _ (List.getElem_mem inRange)]
    · exact highest.2 other (by rw [permuted.mem_iff, List.mem_range, ← built.counted]; exact live.1)
    · rw [built.maximum, entry]
      rfl

theorem bulkDelete_recorded (callback : Nat → Bool) {index : GraphIndex} (sound : PageSound index)
    (nonempty : index.page.nodeCount ≠ 0) {entry : Nat}
    (recorded : (bulkDelete callback index).1.page.entryNodeId = some entry) :
    entry < index.page.nodeCount ∧
      (bulkDelete callback index).1.page.entryLevel = nodeLevel index.nodes entry := by
  rcases bulkDelete_spec callback nonempty with ⟨-, kept⟩ | ⟨generation, repaired⟩
  · rw [kept] at recorded ⊢
    exact sound.entry entry recorded
  · rw [repaired] at recorded ⊢
    change (vacuumRepairEntries _ index.page.nodeCount index.page).entryNodeId = some entry
      at recorded
    change entry < index.page.nodeCount ∧
      (vacuumRepairEntries _ index.page.nodeCount index.page).entryLevel = _
    dsimp only [vacuumRepairEntries] at recorded ⊢
    rcases vacuumBestLiveNode_spec
      (repairContext { index with nodes := markDead callback index.nodes }).toVacuumNodes
      index.page.nodeCount with ⟨none, -⟩ | ⟨best, found, bestLive⟩
    · rw [none] at recorded ⊢
      exact sound.entry entry recorded
    · rw [found] at recorded ⊢
      dsimp only at recorded ⊢
      split_ifs at recorded ⊢ with keeps
      · exact sound.entry entry recorded
      · obtain rfl := Option.some.inj recorded
        refine ⟨bestLive.member, ?_⟩
        rw [← nodeLevel_markDead callback index.nodes]
        rfl

theorem pageSound_step (support : InsertSupport D) (action : GraphAction) {index : GraphIndex}
    (sound : PageSound index) : PageSound (graphStep support index action) := by
  cases action with
  | insert new =>
    dsimp only [graphStep]
    rcases graphInsert_page support new index with ⟨-, page, nodes⟩ | ⟨generation, -, page, nodes⟩
    · constructor <;> rw [page] <;> try rw [nodes]
      · exact sound.counted
      · exact sound.bounded
      · exact sound.entry
      · exact sound.empty
    · generalize support.pickLevel index.page.nodeCount = level at page nodes
      have oldLevel {nodeId : Nat} (below : nodeId < index.page.nodeCount) :
          nodeLevel (graphInsert support new index).1.nodes nodeId =
            nodeLevel index.nodes nodeId := by
        rw [nodes, nodeLevel_append _ (sound.counted ▸ below)]
      have newLevel : nodeLevel (graphInsert support new index).1.nodes index.page.nodeCount =
          level := by
        rw [nodes, sound.counted, nodeLevel_new]
      refine ⟨?_, fun nodeId below => ?_, fun entry recorded => ?_, fun none => ?_⟩
      · rw [page, nodes, List.length_append, ← sound.counted]
        rfl
      · rw [page] at below ⊢
        change nodeId < index.page.nodeCount + 1 at below
        change _ ≤ max index.page.graphMaxLevel level
        rcases Nat.lt_succ_iff_lt_or_eq.mp below with old | rfl
        · rw [oldLevel old]
          exact (sound.bounded nodeId old).trans (le_max_left _ _)
        · rw [newLevel]
          exact le_max_right _ _
      · rw [page] at recorded ⊢
        change (insertMetaUpdate index.page level).entryNodeId = some entry at recorded
        change entry < index.page.nodeCount + 1 ∧
          (if (insertMetaUpdate index.page level).entryNodeId = some index.page.nodeCount then
            (level : Int) else index.page.entryLevel) = _
        rw [recorded]
        by_cases isNew : entry = index.page.nodeCount
        · subst isNew
          rw [if_pos rfl, newLevel]
          exact ⟨Nat.lt_succ_self _, rfl⟩
        · rw [if_neg fun same => isNew (Option.some.inj same)]
          have old : index.page.entryNodeId = some entry := by
            dsimp only [insertMetaUpdate] at recorded
            split_ifs at recorded with replaces
            · exact absurd (Option.some.inj recorded).symm isNew
            · exact recorded
          obtain ⟨below, level⟩ := sound.entry entry old
          rw [oldLevel below]
          exact ⟨below.trans (Nat.lt_succ_self _), level⟩
      · rw [page] at none
        exact absurd none (Nat.succ_ne_zero _)
  | bulkDelete callback =>
    dsimp only [graphStep]
    by_cases nonempty : index.page.nodeCount = 0
    · unfold bulkDelete
      rwa [if_pos nonempty]
    · have levels := bulkDelete_levels callback nonempty
      have counted : (bulkDelete callback index).1.nodes.length = index.nodes.length ∧
          (bulkDelete callback index).1.page.nodeCount = index.page.nodeCount := by
        rcases bulkDelete_spec callback nonempty with ⟨-, kept⟩ | ⟨generation, repaired⟩
        · rw [kept]
          exact ⟨by simp [markDead], rfl⟩
        · rw [repaired]
          refine ⟨by simp [repairGraph, writeRepaired, markDead], ?_⟩
          dsimp only [repairGraph, vacuumRepairEntries]
          split <;> rfl
      refine ⟨?_, fun nodeId below => ?_, fun entry recorded => ?_, fun none => ?_⟩
      · rw [counted.1, counted.2, sound.counted]
      · rw [levels.1, levels.2]
        exact sound.bounded nodeId (counted.2 ▸ below)
      · rw [counted.2, levels.2]
        exact bulkDelete_recorded callback sound nonempty recorded
      · exact absurd (counted.2 ▸ none) nonempty

theorem entryHighest_step_iff (support : InsertSupport D) (action : GraphAction)
    {index : GraphIndex} (sound : PageSound index) (highest : EntryHighest index) :
    EntryHighest (graphStep support index action) ↔ KeepsEntry support index action := by
  cases action with
  | insert new => exact entryHighest_insert_iff support new sound highest
  | bulkDelete callback => exact entryHighest_bulkDelete_iff support callback sound highest

theorem entryHighest_along_iff (support : InsertSupport D) (actions : List GraphAction)
    {start : GraphIndex} (sound : PageSound start) (highest : EntryHighest start) :
    (∀ done, done <+: actions → EntryHighest (runGraph support start done)) ↔
      ∀ done action, done ++ [action] <+: actions →
        KeepsEntry support (runGraph support start done) action := by
  induction actions generalizing start with
  | nil =>
    refine iff_of_true (fun done none => ?_) fun done action none => ?_
    · rw [List.prefix_nil.mp none]
      exact highest
    · exact absurd (List.prefix_nil.mp none) (by simp)
  | cons first rest ih =>
    have stepIff := entryHighest_step_iff support first sound highest
    have later := fun kept =>
      ih (pageSound_step support first sound) (stepIff.mpr kept)
    constructor
    · intro always done action before
      have kept : KeepsEntry support start first :=
        stepIff.mp (always [first] ((List.prefix_cons_inj first).mpr (List.nil_prefix ..)))
      cases done with
      | nil =>
        obtain ⟨rfl, -⟩ := List.cons_prefix_cons.mp before
        exact kept
      | cons head tail =>
        obtain ⟨rfl, inside⟩ := List.cons_prefix_cons.mp before
        refine (later kept).mp (fun done early => ?_) tail action inside
        exact always (head :: done) ((List.prefix_cons_inj head).mpr early)
    · intro keeps done early
      cases done with
      | nil => exact highest
      | cons head tail =>
        obtain ⟨rfl, inside⟩ := List.cons_prefix_cons.mp early
        have kept : KeepsEntry support start head :=
          keeps [] head ((List.prefix_cons_inj head).mpr (List.nil_prefix ..))
        refine (later kept).mpr (fun done action before => ?_) tail inside
        exact keeps (head :: done) action ((List.prefix_cons_inj head).mpr before)

/-- **The entry over a run.** From a built index, every state of a run of inserts and bulk deletes
has as its entry a live node of the highest live level, equal to the stored maximum level, exactly
when every step of the run keeps it. -/
theorem entryHighest_run_iff (support : InsertSupport D) {start : GraphIndex} (built : Built start)
    (actions : List GraphAction) :
    (∀ done, done <+: actions → EntryHighest (runGraph support start done)) ↔
      ∀ done action, done ++ [action] <+: actions →
        KeepsEntry support (runGraph support start done) action :=
  entryHighest_along_iff support actions (pageSound_built built) (entryHighest_built built)

end Runs

/-! ### A run that leaves a dead entry -/

def emptyGraph : GraphIndex where
  page := {
    m := 16, nodeCount := 0, entryNodeId := none, entryLevel := -1, graphMaxLevel := 0
    graphGeneration := 1, segments := [], routingEntryNodeIds := [], entrySidecarNodeIds := [] }
  nodes := []
  adjacency := fun _ _ => []

theorem emptyGraph_built : Built emptyGraph where
  live := fun _ member => absurd member List.not_mem_nil
  entry := ⟨[], .refl _, rfl⟩
  counted := rfl
  entryLevel := rfl
  maximum := rfl

/-- Levels as the draw gives them to the first nodes of an index with `m = 16`. -/
def flatSupport : InsertSupport Nat where
  pickLevel _ := 0
  distance _ _ := 0
  dblMax := 1

def firstNode : NewNode where
  code := [0]
  selected _ := []

theorem entryHighest_two_inserts : Built emptyGraph ∧
    ∀ done, done <+: [GraphAction.insert firstNode, .insert firstNode] →
      EntryHighest (runGraph flatSupport emptyGraph done) := by
  refine ⟨emptyGraph_built, (entryHighest_run_iff flatSupport emptyGraph_built _).mpr
    fun done action before => ?_⟩
  · rcases done with - | ⟨first, - | ⟨second, rest⟩⟩
    · obtain ⟨rfl, -⟩ := List.cons_prefix_cons.mp before
      exact .inr (.inl rfl)
    · obtain ⟨rfl, inside⟩ := List.cons_prefix_cons.mp before
      obtain ⟨rfl, -⟩ := List.cons_prefix_cons.mp inside
      exact .inl ⟨0, by decide, by decide⟩
    · have short := before.length_le
      simp at short

/-- An insert, a deletion of the node and another insert: the new node is alive, and the entry is
still the deleted one. -/
theorem entry_stays_dead :
    ¬ ∀ actions : List GraphAction, EntryHighest (runGraph flatSupport emptyGraph actions) := by
  intro always
  obtain ⟨entry, isTop⟩ := always
    [.insert firstNode, .bulkDelete (· == 0), .insert firstNode] ⟨1, by decide, by decide⟩
  have recorded : some 0 = some entry := isTop.recorded
  obtain rfl := Option.some.inj recorded
  exact absurd isTop.live.2 (by decide)

end TurboHybrid.Graph
