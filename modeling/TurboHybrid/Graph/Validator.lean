/-
**The reachability check of the validator.**

A deep validation reads the adjacency chain twice and holds no lock in between: the first pass counts
the level 0 edges of every node, the second writes them into an array laid out by these counts.

* `fillSafe_iff`: what the second pass writes stays in its slots, and the nodes found are those of a
  state that was read, exactly when no node has more edges in the second pass;
* `grown_overruns`: one more edge lands in the slot of the next node, or behind the array.
-/
import TurboHybrid.Graph.Repair
import TurboHybrid.Library.QueueSearch
import Mathlib.Data.List.Induction

namespace TurboHybrid.Graph

open TurboHybrid.Library

/-! ### The adjacency chain -/

structure AdjTuple where
  type : Nat
  level : Nat
  count : Nat
  nodeId : Nat
  neighbors : List Nat
  itemSize : Nat

inductive AdjItem where
  | unused
  | short
  | tuple (tuple : AdjTuple)

/-- A page of the chain; a page that is new or has another special size ends it. -/
structure AdjPage where
  initialized : Bool
  isAdj : Bool
  items : List AdjItem
  nextblkno : Option Nat

structure ValidatorMeta where
  nodeCount : Nat
  m : Nat
  adjStartBlkno : Option Nat
  entryNodeId : Nat
  routingEntryNodeIds : List Nat
  segmentEntryNodeIds : List Nat
  entrySidecarNodeIds : List Nat

structure Issue where
  code : String
  blkno : Option Nat
  nodeId : Option Nat
  tupleOffset : Option Nat
  deriving DecidableEq

def adjTupleType : Nat := 0x52

def maxAlign (size : Nat) : Nat := (size + 7) / 8 * 8

def adjTupleSize (count : Nat) : Nat := maxAlign (8 + 4 * count)

def AdjTuple.capacity (m : Nat) (tuple : AdjTuple) : Nat :=
  if tuple.level < levelCapacity m then levelM m tuple.level else 0

def AdjTuple.read (m : Nat) (tuple : AdjTuple) : List Nat :=
  tuple.neighbors.take (min tuple.count (tuple.capacity m))

/-- The pages of a chain up to the first that is seen again, out of range or not initialized. -/
def adjChain (pages : Nat → AdjPage) (nblocks : Nat) : Nat → List Nat → Option Nat →
    List (Nat × AdjPage)
  | 0, _, _ => []
  | _ + 1, _, none => []
  | fuel + 1, chainSeen, some blkno =>
    if 0 < blkno ∧ blkno < nblocks ∧ blkno ∉ chainSeen ∧ (pages blkno).initialized then
      (blkno, pages blkno) ::
        adjChain pages nblocks fuel (blkno :: chainSeen) (pages blkno).nextblkno
    else []

/-! ### The two passes -/

/-- A write of the second pass: the node and where its cursor stands. -/
structure EdgeWrite where
  nodeId : Nat
  index : Nat
  deriving DecidableEq

/-- The arrays of the two passes: the counts of the first, the cursors and edges of the second. -/
structure AdjArrays where
  degree : Nat → Nat
  cursor : Nat → Nat
  edges : Nat → Nat
  writes : List EdgeWrite

/-- A level 0 edge is counted, or written at the cursor of its node. -/
def AdjArrays.record (fillEdges : Bool) (arrays : AdjArrays) (edge : Nat × Nat) : AdjArrays :=
  if fillEdges then
    { arrays with
      edges := Function.update arrays.edges (arrays.cursor edge.1) edge.2
      cursor := Function.update arrays.cursor edge.1 (arrays.cursor edge.1 + 1)
      writes := arrays.writes ++ [⟨edge.1, arrays.cursor edge.1⟩] }
  else
    { arrays with degree := Function.update arrays.degree edge.1 (arrays.degree edge.1 + 1) }

structure AdjScan where
  checkedTuples : Nat
  issues : List Issue
  arrays : AdjArrays

def AdjScan.addIssue (scan : AdjScan) (code : String) (blkno : Nat) (nodeId : Option Nat)
    (tupleOffset : Option Nat) : AdjScan :=
  { scan with issues := scan.issues ++ [⟨code, some blkno, nodeId, tupleOffset⟩] }

def AdjScan.report (scan : AdjScan) (fillEdges : Bool) (code : String) (blkno : Nat)
    (nodeId : Option Nat) (tupleOffset : Nat) : AdjScan :=
  if fillEdges then scan else scan.addIssue code blkno nodeId (some tupleOffset)

section Passes

variable (metapage : ValidatorMeta) (fillEdges : Bool) (blkno offno : Nat)

def scanNeighbor (tuple : AdjTuple) (scan : AdjScan) (neighbor : Nat) : AdjScan :=
  if metapage.nodeCount ≤ neighbor then
    scan.report fillEdges "adj_neighbor_out_of_range" blkno (some tuple.nodeId) offno
  else if tuple.level = 0 then
    { scan with arrays := scan.arrays.record fillEdges (tuple.nodeId, neighbor) }
  else scan

def scanTuple (tuple : AdjTuple) (scan : AdjScan) : AdjScan :=
  let capacity := tuple.capacity metapage.m
  let scan :=
    if tuple.type ≠ adjTupleType then
      scan.report fillEdges "adj_tuple_type" blkno (some tuple.nodeId) offno
    else scan
  if metapage.nodeCount ≤ tuple.nodeId ∨ capacity = 0 then
    scan.report fillEdges "adj_identity_out_of_range" blkno (some tuple.nodeId) offno
  else
    let scan :=
      if capacity < tuple.count ∨ tuple.itemSize < adjTupleSize (min tuple.count capacity) then
        scan.report fillEdges "adj_count_or_size" blkno (some tuple.nodeId) offno
      else scan
    (tuple.read metapage.m).foldl (scanNeighbor metapage fillEdges blkno offno tuple) scan

def scanItem (scan : AdjScan) (item : AdjItem) : AdjScan :=
  let scan := if fillEdges then scan else { scan with checkedTuples := scan.checkedTuples + 1 }
  match item with
  | .unused => scan.report fillEdges "unused_adj_item" blkno none offno
  | .short => scan.report fillEdges "short_adj_tuple" blkno none offno
  | .tuple tuple => scanTuple metapage fillEdges blkno offno tuple scan

end Passes

/-- A page of the wrong kind is an issue of both passes. -/
def scanPage (metapage : ValidatorMeta) (fillEdges : Bool) (scan : AdjScan)
    (page : Nat × AdjPage) : AdjScan :=
  let scan :=
    if page.2.isAdj then scan else scan.addIssue "adj_chain_page_kind" page.1 none none
  page.2.items.zipIdx.foldl
    (fun scan item => scanItem metapage fillEdges page.1 (item.2 + 1) scan item.1) scan

def validateAdjChain (metapage : ValidatorMeta) (nblocks : Nat) (pages : Nat → AdjPage)
    (fillEdges : Bool) (arrays : AdjArrays) : AdjScan :=
  (adjChain pages nblocks nblocks [] metapage.adjStartBlkno).foldl (scanPage metapage fillEdges)
    ⟨0, [], arrays⟩

def countEdges (metapage : ValidatorMeta) (nblocks : Nat) (pages : Nat → AdjPage) : AdjScan :=
  validateAdjChain metapage nblocks pages false ⟨fun _ => 0, fun _ => 0, fun _ => 0, []⟩

/-! ### The reachability check -/

structure Reachability where
  edgeCount : Nat
  writes : List EdgeWrite
  visited : List Nat
  reachableLiveNodes : Nat
  deadBridgeNodes : Nat
  warnings : List Issue

def edgeOffsets (degree : Nat → Nat) (nodeId : Nat) : Nat :=
  ((List.range nodeId).map degree).sum

def maxAllocSize : Nat := 0x3fffffff

def ValidatorMeta.seeds (metapage : ValidatorMeta) : List Nat :=
  metapage.entryNodeId ::
    (metapage.routingEntryNodeIds ++ metapage.segmentEntryNodeIds ++ metapage.entrySidecarNodeIds)

def slotEdges (offsets edges : Nat → Nat) (nodeId : Nat) : List Nat :=
  (List.range' (offsets nodeId) (offsets (nodeId + 1) - offsets nodeId)).map edges

/-- The slots are laid out by the counts of the first pass, then the second pass fills them. Every
node of the queue is read once. -/
def validateReachability (metapage : ValidatorMeta) (nblocks : Nat) (nodeDead : Nat → Bool)
    (liveNodes : Nat) (degree : Nat → Nat) (pages : Nat → AdjPage) : Except String Reachability :=
  let offsets := edgeOffsets degree
  let edgeCount := offsets metapage.nodeCount
  if maxAllocSize / 4 < edgeCount then .error "pgturbohybrid validator adjacency is too large"
  else
    let filled := (validateAdjChain metapage nblocks pages true
      ⟨degree, offsets, fun _ => 0, []⟩).arrays
    let visited := search (fun nodeId => decide (nodeId < metapage.nodeCount))
      (slotEdges offsets filled.edges) metapage.nodeCount metapage.seeds
    let reachable := visited.countP fun nodeId => !nodeDead nodeId
    .ok
      { edgeCount := edgeCount
        writes := filled.writes
        visited := visited
        reachableLiveNodes := reachable
        deadBridgeNodes := visited.countP fun nodeId => nodeDead nodeId && decide (0 < degree nodeId)
        warnings :=
          if reachable < liveNodes then [⟨"unreachable_live_nodes", none, none, none⟩] else [] }

/-- A deep validation counts; what can be reached is looked for when no issue was found. The pages
of the second pass may be others. -/
def validateDense (metapage : ValidatorMeta) (nblocks : Nat) (issues : List Issue)
    (nodeDead : Nat → Bool) (liveNodes : Nat) (counted filled : Nat → AdjPage) :
    Except String (Option Reachability) :=
  let scan := countEdges metapage nblocks counted
  if issues ++ scan.issues = [] then
    (validateReachability metapage nblocks nodeDead liveNodes scan.arrays.degree filled).map some
  else .ok none

/-! ### What the passes see -/

section Edges

variable (metapage : ValidatorMeta)

/-- The level 0 edges of a tuple between known nodes. -/
def itemEdges : AdjItem → List (Nat × Nat)
  | .unused => []
  | .short => []
  | .tuple tuple =>
    if tuple.nodeId < metapage.nodeCount ∧ tuple.level = 0 then
      ((tuple.read metapage.m).filter fun neighbor => neighbor < metapage.nodeCount).map
        fun neighbor => (tuple.nodeId, neighbor)
    else []

/-- The level 0 edges of a state of the chain, in the order in which a pass reads them. -/
def levelZeroEdges (nblocks : Nat) (pages : Nat → AdjPage) : List (Nat × Nat) :=
  (adjChain pages nblocks nblocks [] metapage.adjStartBlkno).flatMap fun page =>
    page.2.items.flatMap (itemEdges metapage)

def neighborsOf (edges : List (Nat × Nat)) (nodeId : Nat) : List Nat :=
  (edges.filter fun edge => edge.1 == nodeId).map Prod.snd

variable {metapage} {fillEdges : Bool} {blkno offno : Nat}

theorem report_arrays (scan : AdjScan) (code : String) (nodeId : Option Nat) :
    (scan.report fillEdges code blkno nodeId offno).arrays = scan.arrays := by
  unfold AdjScan.report
  split_ifs <;> rfl

theorem scanNeighbors_arrays (tuple : AdjTuple) (neighbors : List Nat) (scan : AdjScan) :
    (neighbors.foldl (scanNeighbor metapage fillEdges blkno offno tuple) scan).arrays =
      (if tuple.level = 0 then
          (neighbors.filter fun neighbor => neighbor < metapage.nodeCount).map
            fun neighbor => (tuple.nodeId, neighbor)
        else []).foldl (AdjArrays.record fillEdges) scan.arrays := by
  induction neighbors generalizing scan with
  | nil => split_ifs <;> rfl
  | cons neighbor rest ih =>
    rw [List.foldl_cons, ih]
    unfold scanNeighbor
    by_cases known : neighbor < metapage.nodeCount
    · rw [if_neg (not_le.mpr known), List.filter_cons_of_pos (by simpa using known)]
      by_cases bottom : tuple.level = 0
      · simp only [if_pos bottom]
        rfl
      · simp only [if_neg bottom]
    · rw [if_pos (not_lt.mp known), report_arrays,
        List.filter_cons_of_neg (by simpa using known)]

theorem scanTuple_arrays (tuple : AdjTuple) (scan : AdjScan) :
    (scanTuple metapage fillEdges blkno offno tuple scan).arrays =
      (itemEdges metapage (.tuple tuple)).foldl (AdjArrays.record fillEdges) scan.arrays := by
  unfold scanTuple
  extract_lets capacity typed sized
  have typedArrays : typed.arrays = scan.arrays := by
    unfold typed
    split_ifs
    · exact report_arrays _ _ _
    · rfl
  have sizedArrays : sized.arrays = scan.arrays := by
    rw [← typedArrays]
    unfold sized
    split_ifs
    · exact report_arrays _ _ _
    · rfl
  simp only [itemEdges]
  by_cases refused : metapage.nodeCount ≤ tuple.nodeId ∨ capacity = 0
  · rw [if_pos refused, report_arrays, typedArrays]
    rcases refused with outside | none
    · rw [if_neg fun kept => absurd kept.1 (not_lt.mpr outside)]
      rfl
    · have empty : tuple.read metapage.m = [] := by
        rw [AdjTuple.read, show tuple.capacity metapage.m = 0 from none, Nat.min_zero, List.take_zero]
      rw [empty]
      split_ifs <;> rfl
  · have known : tuple.nodeId < metapage.nodeCount :=
      not_le.mp fun outside => refused (Or.inl outside)
    rw [if_neg refused, scanNeighbors_arrays, sizedArrays]
    simp only [known, true_and]

theorem scanItem_arrays (item : AdjItem) (scan : AdjScan) :
    (scanItem metapage fillEdges blkno offno scan item).arrays =
      (itemEdges metapage item).foldl (AdjArrays.record fillEdges) scan.arrays := by
  unfold scanItem
  extract_lets counted
  have countedArrays : counted.arrays = scan.arrays := by
    unfold counted
    split_ifs <;> rfl
  cases item with
  | unused => exact (report_arrays _ _ _).trans countedArrays
  | short => exact (report_arrays _ _ _).trans countedArrays
  | tuple tuple => exact (scanTuple_arrays tuple counted).trans (by rw [countedArrays])

theorem scanPage_arrays (page : Nat × AdjPage) (scan : AdjScan) :
    (scanPage metapage fillEdges scan page).arrays =
      (page.2.items.flatMap (itemEdges metapage)).foldl (AdjArrays.record fillEdges)
        scan.arrays := by
  have items (items : List AdjItem) (first : Nat) (scan : AdjScan) :
      ((items.zipIdx first).foldl (fun scan item =>
          scanItem metapage fillEdges page.1 (item.2 + 1) scan item.1) scan).arrays =
        (items.flatMap (itemEdges metapage)).foldl (AdjArrays.record fillEdges) scan.arrays := by
    induction items generalizing first scan with
    | nil => rfl
    | cons item rest ih =>
      rw [List.zipIdx_cons, List.foldl_cons, ih, scanItem_arrays, List.flatMap_cons,
        List.foldl_append]
  unfold scanPage
  rw [items]
  split_ifs <;> rfl

theorem validateAdjChain_arrays (nblocks : Nat) (pages : Nat → AdjPage) (arrays : AdjArrays) :
    (validateAdjChain metapage nblocks pages fillEdges arrays).arrays =
      (levelZeroEdges metapage nblocks pages).foldl (AdjArrays.record fillEdges) arrays := by
  have all (chain : List (Nat × AdjPage)) (scan : AdjScan) :
      (chain.foldl (scanPage metapage fillEdges) scan).arrays =
        (chain.flatMap fun page => page.2.items.flatMap (itemEdges metapage)).foldl
          (AdjArrays.record fillEdges) scan.arrays := by
    induction chain generalizing scan with
    | nil => rfl
    | cons page rest ih =>
      rw [List.foldl_cons, ih, scanPage_arrays, List.flatMap_cons, List.foldl_append]
  exact all _ _

theorem levelZeroEdges_known {nblocks : Nat} {pages : Nat → AdjPage} {edge : Nat × Nat}
    (member : edge ∈ levelZeroEdges metapage nblocks pages) :
    edge.1 < metapage.nodeCount ∧ edge.2 < metapage.nodeCount := by
  obtain ⟨page, -, inPage⟩ := List.mem_flatMap.mp member
  obtain ⟨item, -, inItem⟩ := List.mem_flatMap.mp inPage
  cases item with
  | unused => cases inItem
  | short => cases inItem
  | tuple tuple =>
    simp only [itemEdges] at inItem
    split_ifs at inItem with kept
    · obtain ⟨neighbor, read, rfl⟩ := List.mem_map.mp inItem
      exact ⟨kept.1, of_decide_eq_true (List.mem_filter.mp read).2⟩
    · cases inItem

end Edges

/-! ### What the passes leave in the arrays -/

section Arrays

theorem neighborsOf_append (edges more : List (Nat × Nat)) (nodeId : Nat) :
    neighborsOf (edges ++ more) nodeId = neighborsOf edges nodeId ++ neighborsOf more nodeId := by
  rw [neighborsOf, List.filter_append, List.map_append]
  rfl

theorem neighborsOf_single (edge : Nat × Nat) (nodeId : Nat) :
    neighborsOf [edge] nodeId = if edge.1 = nodeId then [edge.2] else [] := by
  unfold neighborsOf
  split_ifs with same <;> simp [same]

theorem countEdges_degree (metapage : ValidatorMeta) (nblocks : Nat) (pages : Nat → AdjPage)
    (nodeId : Nat) : (countEdges metapage nblocks pages).arrays.degree nodeId =
      (neighborsOf (levelZeroEdges metapage nblocks pages) nodeId).length := by
  have all (edges : List (Nat × Nat)) (arrays : AdjArrays) :
      (edges.foldl (AdjArrays.record false) arrays).degree nodeId =
        arrays.degree nodeId + (neighborsOf edges nodeId).length := by
    induction edges generalizing arrays with
    | nil => rfl
    | cons edge rest ih =>
      rw [List.foldl_cons, ih, ← List.singleton_append, neighborsOf_append, neighborsOf_single,
        List.length_append, ← Nat.add_assoc]
      congr 1
      show Function.update arrays.degree edge.1 _ nodeId = _
      rw [Function.update_apply]
      split_ifs with here there there
      · rw [here]
        rfl
      · exact absurd here.symm there
      · exact absurd there.symm here
      · rfl
  rw [countEdges, validateAdjChain_arrays, all]
  exact Nat.zero_add _

theorem edgeOffsets_succ (degree : Nat → Nat) (nodeId : Nat) :
    edgeOffsets degree (nodeId + 1) = edgeOffsets degree nodeId + degree nodeId := by
  unfold edgeOffsets
  rw [List.range_succ, List.map_append, List.sum_append]
  exact congrArg _ (List.sum_singleton)

theorem edgeOffsets_mono (degree : Nat → Nat) : Monotone (edgeOffsets degree) :=
  monotone_nat_of_le_succ fun nodeId => by
    rw [edgeOffsets_succ]
    exact Nat.le_add_right _ _

theorem slots_disjoint {degree : Nat → Nat} {one other index position : Nat}
    (inside : index < degree one) (there : position < degree other)
    (same : edgeOffsets degree one + index = edgeOffsets degree other + position) :
    one = other ∧ index = position := by
  have behind {early late : Nat} (before : early < late) :
      edgeOffsets degree early + degree early ≤ edgeOffsets degree late := by
    rw [← edgeOffsets_succ]
    exact edgeOffsets_mono degree before
  rcases Nat.lt_trichotomy one other with before | rfl | after
  · have := behind before
    omega
  · exact ⟨rfl, Nat.add_left_cancel same⟩
  · have := behind after
    omega

variable {start : AdjArrays} {degree : Nat → Nat}

/-- What the second pass leaves: each cursor behind the edges of its node, and a write for each of
them, from the start of the slot on. -/
structure Filled (degree : Nat → Nat) (edges : List (Nat × Nat)) (arrays : AdjArrays) : Prop where
  cursor : ∀ nodeId,
    arrays.cursor nodeId = edgeOffsets degree nodeId + (neighborsOf edges nodeId).length
  writes : ∀ write, write ∈ arrays.writes ↔ ∃ index < (neighborsOf edges write.nodeId).length,
    write.index = edgeOffsets degree write.nodeId + index

theorem filled_fold (edges : List (Nat × Nat)) (cursors : start.cursor = edgeOffsets degree)
    (fresh : start.writes = []) :
    Filled degree edges (edges.foldl (AdjArrays.record true) start) := by
  induction edges using List.reverseRecOn with
  | nil =>
    constructor
    · intro nodeId
      exact congrFun cursors nodeId
    · intro write
      show write ∈ start.writes ↔ _
      rw [fresh]
      constructor
      · intro member
        cases member
      · rintro ⟨index, inside, -⟩
        exact absurd inside (Nat.not_lt_zero _)
  | append_singleton edges edge ih =>
    rw [List.foldl_append]
    constructor
    · intro nodeId
      show Function.update _ edge.1 _ nodeId = _
      rw [Function.update_apply, neighborsOf_append, neighborsOf_single, List.length_append]
      split_ifs with here there there
      · rw [ih.cursor, here]
        rfl
      · exact absurd here.symm there
      · exact absurd there.symm here
      · exact ih.cursor nodeId
    · intro write
      show write ∈ _ ++ [_] ↔ _
      rw [List.mem_append, List.mem_singleton, ih.writes, neighborsOf_append, neighborsOf_single,
        List.length_append, ih.cursor]
      constructor
      · rintro (⟨index, inside, here⟩ | rfl)
        · exact ⟨index, Nat.lt_add_right _ inside, here⟩
        · refine ⟨_, ?_, rfl⟩
          rw [if_pos rfl]
          exact Nat.lt_succ_self _
      · rintro ⟨index, inside, here⟩
        by_cases old : index < (neighborsOf edges write.nodeId).length
        · exact Or.inl ⟨index, old, here⟩
        · split_ifs at inside with same
          · obtain rfl : index = (neighborsOf edges write.nodeId).length := by
              rw [List.length_singleton] at inside
              omega
            refine Or.inr ?_
            rw [same, ← here]
          · exact absurd inside old

theorem filled_edges (edges : List (Nat × Nat)) (cursors : start.cursor = edgeOffsets degree)
    (fresh : start.writes = [])
    (fits : ∀ nodeId, (neighborsOf edges nodeId).length ≤ degree nodeId)
    {nodeId index target : Nat} (member : (neighborsOf edges nodeId)[index]? = some target) :
    (edges.foldl (AdjArrays.record true) start).edges (edgeOffsets degree nodeId + index) =
      target := by
  induction edges using List.reverseRecOn generalizing nodeId index target with
  | nil => cases member
  | append_singleton edges edge ih =>
    have shorter (node : Nat) :
        (neighborsOf edges node).length ≤ (neighborsOf (edges ++ [edge]) node).length := by
      rw [neighborsOf_append, List.length_append]
      exact Nat.le_add_right _ _
    have room : (neighborsOf edges edge.1).length < degree edge.1 := by
      refine lt_of_lt_of_le ?_ (fits edge.1)
      rw [neighborsOf_append, neighborsOf_single, if_pos rfl, List.length_append]
      exact Nat.lt_succ_self _
    rw [List.foldl_append]
    show Function.update (edges.foldl (AdjArrays.record true) start).edges
      ((edges.foldl (AdjArrays.record true) start).cursor edge.1) edge.2 _ = _
    rw [(filled_fold edges cursors fresh).cursor]
    rw [neighborsOf_append, neighborsOf_single] at member
    by_cases old : index < (neighborsOf edges nodeId).length
    · rw [List.getElem?_append_left old] at member
      rw [Function.update_of_ne, ih (fun node => (shorter node).trans (fits node)) member]
      intro same
      obtain ⟨rfl, rfl⟩ := slots_disjoint
        (old.trans_le ((shorter nodeId).trans (fits nodeId))) room same
      exact lt_irrefl _ old
    · rw [List.getElem?_append_right (not_lt.mp old)] at member
      split_ifs at member with same
      · obtain ⟨first, only⟩ := List.getElem?_eq_some_iff.mp member
        rw [List.length_singleton, Nat.lt_one_iff] at first
        obtain rfl : index = (neighborsOf edges nodeId).length := by omega
        rw [same, Function.update_self]
        simpa using only
      · cases member

end Arrays

/-! ### What a validation finds -/

section Found

variable (metapage : ValidatorMeta) (nblocks : Nat)

/-- The nodes to which the level 0 edges of a state lead from the seeds. -/
def Reaches (pages : Nat → AdjPage) (nodeId : Nat) : Prop :=
  ∃ seed ∈ metapage.seeds, seed < metapage.nodeCount ∧
    Relation.ReflTransGen
      (fun source target => (source, target) ∈ levelZeroEdges metapage nblocks pages) seed nodeId

/-- **A safe second pass**: every write is in the slot of its node and in the array, and the nodes
found are those of one of the two states. -/
structure FillSafe (counted filled : Nat → AdjPage) (report : Reachability) : Prop where
  inSlot : ∀ write ∈ report.writes,
    edgeOffsets (countEdges metapage nblocks counted).arrays.degree write.nodeId ≤ write.index ∧
      write.index <
        edgeOffsets (countEdges metapage nblocks counted).arrays.degree (write.nodeId + 1)
  inArray : ∀ write ∈ report.writes, write.index < report.edgeCount
  existing : ∃ pages, (pages = counted ∨ pages = filled) ∧
    ∀ nodeId, nodeId ∈ report.visited ↔ Reaches metapage nblocks pages nodeId
  once : report.visited.Nodup

def Larger (counted filled : Nat → AdjPage) : Prop :=
  ∀ nodeId, (neighborsOf (levelZeroEdges metapage nblocks counted) nodeId).Subperm
    (neighborsOf (levelZeroEdges metapage nblocks filled) nodeId)

def NoneGrown (counted filled : Nat → AdjPage) : Prop :=
  ∀ nodeId < metapage.nodeCount,
    (neighborsOf (levelZeroEdges metapage nblocks filled) nodeId).length ≤
      (neighborsOf (levelZeroEdges metapage nblocks counted) nodeId).length

instance (counted filled : Nat → AdjPage) : Decidable (NoneGrown metapage nblocks counted filled) :=
  inferInstanceAs (Decidable (∀ nodeId < metapage.nodeCount, _))

variable {metapage nblocks} {issues : List Issue} {nodeDead : Nat → Bool} {liveNodes : Nat}
variable {counted filled : Nat → AdjPage} {report : Reachability}

theorem neighborsOf_outside {pages : Nat → AdjPage} {nodeId : Nat}
    (outside : metapage.nodeCount ≤ nodeId) :
    neighborsOf (levelZeroEdges metapage nblocks pages) nodeId = [] := by
  unfold neighborsOf
  rw [List.map_eq_nil_iff, List.filter_eq_nil_iff]
  intro edge member same
  have known := (levelZeroEdges_known member).1
  rw [eq_of_beq same] at known
  exact absurd known (not_lt.mpr outside)

theorem mem_neighborsOf {edges : List (Nat × Nat)} {source target : Nat} :
    target ∈ neighborsOf edges source ↔ (source, target) ∈ edges := by
  unfold neighborsOf
  constructor
  · intro member
    obtain ⟨⟨one, other⟩, inside, rfl⟩ := List.mem_map.mp member
    obtain ⟨present, same⟩ := List.mem_filter.mp inside
    obtain rfl : one = source := eq_of_beq same
    exact present
  · intro present
    exact List.mem_map.mpr ⟨(source, target), List.mem_filter.mpr ⟨present, beq_self_eq_true _⟩, rfl⟩

theorem validateDense_report
    (validated : validateDense metapage nblocks issues nodeDead liveNodes counted filled =
      .ok (some report)) :
    let degree := (countEdges metapage nblocks counted).arrays.degree
    let arrays := (validateAdjChain metapage nblocks filled true
      ⟨degree, edgeOffsets degree, fun _ => 0, []⟩).arrays
    report.edgeCount = edgeOffsets degree metapage.nodeCount ∧ report.writes = arrays.writes ∧
      report.visited = search (fun nodeId => decide (nodeId < metapage.nodeCount))
        (slotEdges (edgeOffsets degree) arrays.edges) metapage.nodeCount metapage.seeds := by
  simp only [validateDense, validateReachability] at validated
  by_cases clean : issues ++ (countEdges metapage nblocks counted).issues = []
  · rw [if_pos clean] at validated
    by_cases large : maxAllocSize / 4 <
        edgeOffsets (countEdges metapage nblocks counted).arrays.degree metapage.nodeCount
    · rw [if_pos large] at validated
      cases validated
    · rw [if_neg large] at validated
      obtain rfl := Option.some.inj (Except.ok.inj validated)
      exact ⟨rfl, rfl, rfl⟩
  · rw [if_neg clean] at validated
    cases validated

theorem mem_writes_iff
    (validated : validateDense metapage nblocks issues nodeDead liveNodes counted filled =
      .ok (some report)) {write : EdgeWrite} :
    write ∈ report.writes ↔
      ∃ index < (neighborsOf (levelZeroEdges metapage nblocks filled) write.nodeId).length,
        write.index =
          edgeOffsets (countEdges metapage nblocks counted).arrays.degree write.nodeId + index := by
  rw [(validateDense_report validated).2.1, validateAdjChain_arrays]
  exact (filled_fold _ rfl rfl).writes write

theorem slotEdges_filled
    (same : ∀ nodeId, (neighborsOf (levelZeroEdges metapage nblocks filled) nodeId).length =
      (countEdges metapage nblocks counted).arrays.degree nodeId) :
    slotEdges (edgeOffsets (countEdges metapage nblocks counted).arrays.degree)
        (validateAdjChain metapage nblocks filled true
          ⟨(countEdges metapage nblocks counted).arrays.degree,
            edgeOffsets (countEdges metapage nblocks counted).arrays.degree, fun _ => 0, []⟩).arrays.edges =
      neighborsOf (levelZeroEdges metapage nblocks filled) := by
  funext nodeId
  unfold slotEdges
  rw [validateAdjChain_arrays, edgeOffsets_succ, Nat.add_sub_cancel_left, ← same nodeId]
  apply List.ext_getElem?
  intro index
  by_cases inside : index < (neighborsOf (levelZeroEdges metapage nblocks filled) nodeId).length
  · have here := List.getElem?_eq_getElem inside
    rw [List.getElem?_map, List.getElem?_range' inside, here, Nat.one_mul]
    exact congrArg some (filled_edges _ rfl rfl (fun node => (same node).le) here)
  · rw [List.getElem?_eq_none (by simpa using inside), List.getElem?_eq_none (not_lt.mp inside)]

theorem search_reaches {pages : Nat → AdjPage} (nodeId : Nat) :
    nodeId ∈ search (fun nodeId => decide (nodeId < metapage.nodeCount))
        (neighborsOf (levelZeroEdges metapage nblocks pages)) metapage.nodeCount metapage.seeds ↔
      Reaches metapage nblocks pages nodeId := by
  have steps : Steps (fun nodeId => decide (nodeId < metapage.nodeCount))
      (neighborsOf (levelZeroEdges metapage nblocks pages)) =
        fun source target => (source, target) ∈ levelZeroEdges metapage nblocks pages := by
    funext source target
    apply propext
    rw [Steps, mem_neighborsOf, decide_eq_true_iff]
    exact ⟨And.left, fun edge => ⟨edge, (levelZeroEdges_known edge).2⟩⟩
  rw [search_mem_iff queued_below, steps]
  simp only [decide_eq_true_iff]
  rfl

theorem fillSafe_of_noneGrown (larger : Larger metapage nblocks counted filled)
    (same : NoneGrown metapage nblocks counted filled)
    (validated : validateDense metapage nblocks issues nodeDead liveNodes counted filled =
      .ok (some report)) : FillSafe metapage nblocks counted filled report := by
  obtain ⟨edgeCount, -, visited⟩ := validateDense_report validated
  have lengths (nodeId : Nat) :
      (neighborsOf (levelZeroEdges metapage nblocks filled) nodeId).length =
        (countEdges metapage nblocks counted).arrays.degree nodeId := by
    rw [countEdges_degree]
    rcases Nat.lt_or_ge nodeId metapage.nodeCount with inside | outside
    · exact le_antisymm (same nodeId inside) (larger nodeId).length_le
    · rw [neighborsOf_outside outside, neighborsOf_outside outside]
  have inSlot : ∀ write ∈ report.writes,
      edgeOffsets (countEdges metapage nblocks counted).arrays.degree write.nodeId ≤ write.index ∧
        write.index <
          edgeOffsets (countEdges metapage nblocks counted).arrays.degree (write.nodeId + 1) := by
    intro write member
    obtain ⟨index, inside, here⟩ := (mem_writes_iff validated).mp member
    rw [here, edgeOffsets_succ, ← lengths]
    exact ⟨Nat.le_add_right _ _, Nat.add_lt_add_left inside _⟩
  rw [slotEdges_filled lengths] at visited
  refine ⟨inSlot, ?_, ⟨filled, Or.inr rfl, ?_⟩, ?_⟩
  · intro write member
    obtain ⟨index, inside, -⟩ := (mem_writes_iff validated).mp member
    have known : write.nodeId < metapage.nodeCount := by
      by_contra outside
      rw [neighborsOf_outside (not_lt.mp outside)] at inside
      exact absurd inside (Nat.not_lt_zero _)
    rw [edgeCount]
    exact (inSlot write member).2.trans_le (edgeOffsets_mono _ known)
  · intro nodeId
    rw [visited]
    exact search_reaches nodeId
  · rw [visited]
    exact search_nodup queued_below

/-- **The second pass is safe exactly when no node has more edges in it**, or when it does not
run: issues were found before, or the edges do not fit an allocation. -/
theorem fillSafe_iff (larger : Larger metapage nblocks counted filled) :
    (∀ report, validateDense metapage nblocks issues nodeDead liveNodes counted filled =
        .ok (some report) → FillSafe metapage nblocks counted filled report) ↔
      issues ++ (countEdges metapage nblocks counted).issues ≠ [] ∨
        maxAllocSize / 4 <
          edgeOffsets (countEdges metapage nblocks counted).arrays.degree metapage.nodeCount ∨
        NoneGrown metapage nblocks counted filled := by
  constructor
  · intro safe
    by_contra none
    push Not at none
    obtain ⟨clean, fits, grown⟩ := none
    have ran : ∃ report, validateDense metapage nblocks issues nodeDead liveNodes counted filled =
        .ok (some report) := by
      simp only [validateDense, validateReachability, if_pos clean, if_neg (not_lt.mpr fits)]
      exact ⟨_, rfl⟩
    obtain ⟨report, validated⟩ := ran
    unfold NoneGrown at grown
    push Not at grown
    obtain ⟨nodeId, -, longer⟩ := grown
    have written : ⟨nodeId, edgeOffsets (countEdges metapage nblocks counted).arrays.degree
        (nodeId + 1)⟩ ∈ report.writes := by
      refine (mem_writes_iff validated).mpr ⟨_, longer, ?_⟩
      rw [edgeOffsets_succ, countEdges_degree]
    exact lt_irrefl _ ((safe report validated).inSlot _ written).2
  · rintro (found | large | same) report validated
    · simp only [validateDense, if_neg found] at validated
      cases validated
    · simp only [validateDense, validateReachability, if_pos large] at validated
      split_ifs at validated <;> cases validated
    · exact fillSafe_of_noneGrown larger same validated

/-- One page of the chain with a tuple for each node of a graph of three. -/
def chainPage (last : List Nat) : Nat → AdjPage := fun _ =>
  { initialized := true
    isAdj := true
    items := [([1], 0), ([0], 1), (last, 2)].map fun node =>
      .tuple ⟨adjTupleType, 0, node.1.length, node.2, node.1, 64⟩
    nextblkno := none }

def chainMeta : ValidatorMeta := ⟨3, 4, some 1, 0, [2], [], []⟩

/-- An edge to a node behind the snapshot is counted by neither pass. -/
theorem fillSafe_insert : ∃ report,
    validateDense chainMeta 2 [] (fun _ => false) 3 (chainPage [0]) (chainPage [0, 3]) =
      .ok (some report) ∧ FillSafe chainMeta 2 (chainPage [0]) (chainPage [0, 3]) report := by
  have same : levelZeroEdges chainMeta 2 (chainPage [0]) =
      levelZeroEdges chainMeta 2 (chainPage [0, 3]) := by decide
  have larger : Larger chainMeta 2 (chainPage [0]) (chainPage [0, 3]) := by
    intro nodeId
    rw [same]
  have ran : validateDense chainMeta 2 [] (fun _ => false) 3 (chainPage [0]) (chainPage [0, 3]) =
    .ok (some _) := rfl
  exact ⟨_, ran, (fillSafe_iff larger).mpr (Or.inr (Or.inr (by decide))) _ ran⟩

/-- One more edge of the last node is written behind the array. -/
theorem grown_overruns : Larger chainMeta 2 (chainPage [0]) (chainPage [0, 1]) ∧
    ∃ report, validateDense chainMeta 2 [] (fun _ => false) 3 (chainPage [0]) (chainPage [0, 1]) =
        .ok (some report) ∧ ∃ write ∈ report.writes, report.edgeCount ≤ write.index := by
  constructor
  · intro nodeId
    have more : levelZeroEdges chainMeta 2 (chainPage [0, 1]) =
        levelZeroEdges chainMeta 2 (chainPage [0]) ++ [(2, 1)] := by decide
    rw [more, neighborsOf_append]
    exact (List.sublist_append_left _ _).subperm
  · exact ⟨_, rfl, ⟨2, 3⟩, by decide, by decide⟩

end Found

end TurboHybrid.Graph
