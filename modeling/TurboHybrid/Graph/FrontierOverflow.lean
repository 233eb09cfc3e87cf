/-
**Graphs that fill the frontier.**

Where the frontier can need more than its array on the stack holds, some graph makes it do so: every
list has nodes that are nearer than all before, so that each of them is taken.

* `lureGraph`: the graph, with the nodes that are no entry points from the last to the first;
* `Lured.expand`: each expansion brings as many of them as a list has, or meets the full array;
* `lure_overflows`: the search reallocates the array on the stack;
* `searchBaseLayer_safe_iff`: so the first capacity decides whether every search is safe.
-/
import TurboHybrid.Graph.DocumentCandidates
import TurboHybrid.Graph.ScanSearch

namespace TurboHybrid.Graph.ScanSearch

open Library

/-! ### The graph -/

/-- The nodes that are no entry points, from the last to the first. -/
def freshNodes (nodeCount : Nat) (entryIds : List Nat) : List Nat :=
  ((List.range nodeCount).filter fun nodeId => decide (nodeId ∉ entryIds)).reverse

def nearerNodes (nodeCount : Nat) (entryIds : List Nat) (nodeId : Nat) : List Nat :=
  (freshNodes nodeCount entryIds).filter fun other => decide (nodeId ∈ entryIds ∨ other < nodeId)

def lureGraph (nodeCount m : Nat) (entryIds : List Nat) : ScanGraph Rat nodeCount m where
  neighbors nodeId := (nearerNodes nodeCount entryIds nodeId).take (levelM m 0)
  codeLoads _ := true
  adjLoads _ := true
  score _ := 0
  listed _ := List.length_take_le _ _

def lureEntries (entryIds : List Nat) : List (Rat × Nat) := entryIds.map fun nodeId => (1, nodeId)

section Fresh

variable {nodeCount : Nat} {entryIds : List Nat}

theorem freshNodes_descending (nodeCount : Nat) (entryIds : List Nat) :
    (freshNodes nodeCount entryIds).Pairwise (· > ·) := by
  unfold freshNodes
  rw [List.pairwise_reverse]
  exact List.pairwise_lt_range.filter _

theorem mem_freshNodes {nodeId : Nat} :
    nodeId ∈ freshNodes nodeCount entryIds ↔ nodeId < nodeCount ∧ nodeId ∉ entryIds := by
  rw [freshNodes, List.mem_reverse, List.mem_filter, List.mem_range, decide_eq_true_iff]

theorem freshNodes_length (nodeCount : Nat) (entryIds : List Nat) :
    (freshNodes nodeCount entryIds).length + entered nodeCount entryIds = nodeCount := by
  have entry : entered nodeCount entryIds =
      ((List.range nodeCount).filter fun nodeId => decide (nodeId ∈ entryIds)).length := by
    rw [entered, ← List.toFinset_card_of_nodup (List.nodup_range.filter _)]
    congr 1
    ext nodeId
    rw [Finset.mem_filter, List.mem_toFinset, List.mem_toFinset, List.mem_filter,
      List.mem_range, decide_eq_true_iff, and_comm]
  have split := List.length_eq_length_filter_add (l := List.range nodeCount)
    fun nodeId => decide (nodeId ∈ entryIds)
  rw [List.length_range] at split
  rw [freshNodes, List.length_reverse, entry]
  simp only [decide_not] at split ⊢
  omega

theorem nearerNodes_entry {nodeId : Nat} (entry : nodeId ∈ entryIds) :
    nearerNodes nodeCount entryIds nodeId = freshNodes nodeCount entryIds := by
  refine List.filter_eq_self.mpr fun other _ => ?_
  rw [decide_eq_true_iff]
  exact Or.inl entry

theorem nearerNodes_fresh {before after : List Nat} {nodeId : Nat}
    (split : freshNodes nodeCount entryIds = before ++ nodeId :: after) :
    nearerNodes nodeCount entryIds nodeId = after := by
  have descending := freshNodes_descending nodeCount entryIds
  have own : nodeId ∉ entryIds :=
    (mem_freshNodes.mp (split ▸ List.mem_append_right before List.mem_cons_self)).2
  rw [split, List.pairwise_append, List.pairwise_cons] at descending
  obtain ⟨-, ⟨below, -⟩, above⟩ := descending
  unfold nearerNodes
  rw [split, List.filter_append, List.filter_cons]
  have none_ : before.filter (fun other => decide (nodeId ∈ entryIds ∨ other < nodeId)) = [] := by
    refine List.filter_eq_nil_iff.mpr fun other member => ?_
    rw [decide_eq_true_iff, not_or]
    exact ⟨own, Nat.lt_asymm (above other member nodeId List.mem_cons_self)⟩
  have self : ¬(nodeId ∈ entryIds ∨ nodeId < nodeId) := not_or.mpr ⟨own, Nat.lt_irrefl _⟩
  have all : after.filter (fun other => decide (nodeId ∈ entryIds ∨ other < nodeId)) = after := by
    refine List.filter_eq_self.mpr fun other member => ?_
    rw [decide_eq_true_iff]
    exact Or.inr (below other member)
  rw [none_, decide_eq_false self, all]
  rfl

end Fresh

/-! ### The search on the stack -/

theorem frontier_compares : BinaryHeap.Compares (K := Lex (Rat × Nat)) toLex frontierLess :=
  fun _ _ => frontierLess_iff

theorem pushGrowing_stack {nodeCount : Nat} {frontier : Frontier Rat}
    (stack : frontier.place = .stack) (small : nodeCount ≤ stackFrontierCapacity)
    (less : frontier.capacity < nodeCount) (item : Rat × Nat) :
    pushGrowing nodeCount frontier item =
      if frontier.capacity ≤ frontier.items.size then .error .stackRealloc
      else .ok { frontier with items := BinaryHeap.push frontierLess frontier.items item } := by
  have limit := (growCapacity_spec less).2
  rw [stackFrontierCapacity] at small
  unfold pushGrowing
  split_ifs with full
  · have fits : ¬maxAllocSize / frontierItemSize <
        growCapacity frontier.capacity nodeCount := by
      rw [show maxAllocSize / frontierItemSize = 67108863 from rfl]
      omega
    rw [grow, if_neg (Nat.not_le.mpr less)]
    dsimp only
    rw [if_neg fits, stack]
    rfl
  · refine if_neg ?_
    rw [stack, Place.cells, stackFrontierCapacity]
    omega

/-- The items of a search that received so many of the other nodes. -/
def Known (nodeCount : Nat) (entryIds : List Nat) (count : Nat) (item : Rat × Nat) : Prop :=
  item.1 = 1 ∧ item.2 ∈ entryIds ∨
    item.1 = 0 ∧ item.2 ∈ (freshNodes nodeCount entryIds).take count

/-- The frontier on the stack after so many of the other nodes. -/
structure Lured (nodeCount capacity : Nat) (entryIds : List Nat) (count : Nat)
    (state : ScanState Rat) : Prop where
  stack : state.frontier.place = .stack
  first : state.frontier.capacity = capacity
  fits : state.frontier.items.size ≤ capacity
  counted : state.frontier.items.size + state.frontierPops = entered nodeCount entryIds + count
  heap : BinaryHeap.IsHeap (K := Lex (Rat × Nat)) toLex state.frontier.items
  frontier : ∀ item ∈ state.frontier.items, Known nodeCount entryIds count item
  nearest : ∀ item ∈ state.nearest, Known nodeCount entryIds count item

section Lure

variable {nodeCount m searchEf capacity count : Nat} {entryIds : List Nat}

theorem Known.mono {item : Rat × Nat} {more : Nat} (known : Known nodeCount entryIds count item)
    (le : count ≤ more) : Known nodeCount entryIds more item :=
  known.imp_right fun both => ⟨both.1, (List.take_sublist_take_left le).subset both.2⟩

theorem Known.farther {item : Rat × Nat} (known : Known nodeCount entryIds count item)
    {nodeId : Nat} {after : List Nat}
    (rest : (freshNodes nodeCount entryIds).drop count = nodeId :: after) :
    toLex ((0 : Rat), nodeId) < toLex item := by
  rw [Prod.Lex.toLex_lt_toLex]
  rcases known with ⟨far, -⟩ | ⟨near, before⟩
  · refine Or.inl ?_
    rw [far]
    exact zero_lt_one
  · refine Or.inr ⟨near.symm, ?_⟩
    have descending := freshNodes_descending nodeCount entryIds
    rw [← List.take_append_drop count (freshNodes nodeCount entryIds), rest,
      List.pairwise_append] at descending
    exact descending.2.2 item.2 before nodeId List.mem_cons_self

theorem take_succ_fresh {nodeId : Nat} {after : List Nat}
    (rest : (freshNodes nodeCount entryIds).drop count = nodeId :: after) :
    (freshNodes nodeCount entryIds).take (count + 1) =
      (freshNodes nodeCount entryIds).take count ++ [nodeId] := by
  rw [List.take_add, rest]
  rfl

theorem offerNearest_nearer (kept : 0 < searchEf) {nearest : Array (Rat × Nat)}
    {item : Rat × Nat} (farther : ∀ other ∈ nearest, toLex item < toLex other) :
    (offerNearest searchEf nearest item).2 = true := by
  unfold offerNearest
  dsimp only
  rw [Bool.or_eq_true, decide_eq_true_iff]
  by_cases room : nearest.size < searchEf
  · exact Or.inl room
  · have nonempty : 0 < nearest.size := by omega
    refine Or.inr ?_
    rw [Array.getElem?_eq_getElem nonempty, Option.any_some]
    exact frontierLess_iff.mpr (farther _ (Array.getElem_mem nonempty))

/-- **One node of a batch** meets the full array or is received. -/
theorem Lured.offer {state : ScanState Rat}
    (lured : Lured nodeCount capacity entryIds count state)
    (small : nodeCount ≤ stackFrontierCapacity) (less : capacity < nodeCount)
    (kept : 0 < searchEf) {nodeId : Nat} {after : List Nat}
    (rest : (freshNodes nodeCount entryIds).drop count = nodeId :: after) :
    Yields (fun failure => failure.1 = .stackRealloc)
      (fun next => Lured nodeCount capacity entryIds (count + 1) next ∧
        (0, nodeId) ∈ next.frontier.items ∧ next.visited = state.visited ∧
        next.frontierPops = state.frontierPops)
      (offerNeighbor nodeCount searchEf state (0, nodeId)) := by
  have taken : (offerNearest searchEf state.nearest ((0 : Rat), nodeId)).2 = true :=
    offerNearest_nearer kept fun other member => (lured.nearest other member).farther rest
  have here : Known nodeCount entryIds (count + 1) (0, nodeId) := by
    refine Or.inr ⟨rfl, ?_⟩
    rw [take_succ_fresh rest]
    exact List.mem_append_right _ (List.mem_singleton_self nodeId)
  have pushed := pushGrowing_stack lured.stack small (lured.first ▸ less) ((0 : Rat), nodeId)
  unfold offerNeighbor
  dsimp only
  rw [if_pos taken]
  unfold receive
  dsimp only
  rw [pushed]
  by_cases full : state.frontier.capacity ≤ state.frontier.items.size
  · rw [if_pos full]
    exact rfl
  · rw [if_neg full]
    have perm := BinaryHeap.push_perm frontierLess state.frontier.items ((0 : Rat), nodeId)
    have members (item : Rat × Nat) :
        item ∈ BinaryHeap.push frontierLess state.frontier.items (0, nodeId) ↔
          item = (0, nodeId) ∨ item ∈ state.frontier.items := by
      rw [← Array.mem_toList_iff, perm.mem_iff, List.mem_cons, Array.mem_toList_iff]
    refine ⟨⟨lured.stack, lured.first, ?_, ?_, ?_, ?_, ?_⟩, (members _).mpr (Or.inl rfl), rfl,
      rfl⟩
    · dsimp only
      rw [size_push, ← lured.first]
      exact Nat.not_le.mp full
    · have counted := lured.counted
      dsimp only
      rw [size_push]
      omega
    · exact BinaryHeap.push_isHeap frontier_compares lured.heap _
    · intro item member
      rcases (members item).mp member with rfl | old
      · exact here
      · exact (lured.frontier item old).mono (Nat.le_succ count)
    · intro item member
      have inside := (BoundedHeap.offer_subperm frontierGreater searchEf state.nearest
        ((0 : Rat), nodeId)).subset (Array.mem_toList_iff.mpr member)
      rcases List.mem_cons.mp inside with rfl | old
      · exact here
      · exact (lured.nearest item (Array.mem_toList_iff.mp old)).mono (Nat.le_succ count)

theorem Lured.offers (small : nodeCount ≤ stackFrontierCapacity) (less : capacity < nodeCount)
    (kept : 0 < searchEf) (batch : List Nat) {state : ScanState Rat} {after : List Nat}
    (lured : Lured nodeCount capacity entryIds count state)
    (rest : (freshNodes nodeCount entryIds).drop count = batch ++ after) :
    Yields (fun failure => failure.1 = .stackRealloc)
      (fun next => Lured nodeCount capacity entryIds (count + batch.length) next ∧
        next.visited = state.visited ∧ next.frontierPops = state.frontierPops)
      ((batch.map fun nodeId => ((0 : Rat), nodeId)).foldlM (offerNeighbor nodeCount searchEf)
        state) := by
  induction batch generalizing count state with
  | nil => exact ⟨lured, rfl, rfl⟩
  | cons nodeId batch ih =>
    rw [List.map_cons, List.foldlM_cons]
    refine Yields.bind (lured.offer small less kept rest) ?_
    rintro next ⟨lured', -, visited, pops⟩
    have rest' : (freshNodes nodeCount entryIds).drop (count + 1) = batch ++ after := by
      rw [← List.drop_drop, rest]
      rfl
    refine (ih lured' rest').imp (fun _ => id) ?_
    rintro final ⟨lured'', visited', pops'⟩
    refine ⟨?_, visited'.trans visited, pops'.trans pops⟩
    rw [List.length_cons, Nat.add_comm batch.length 1, ← Nat.add_assoc]
    exact lured''

theorem root_eq_of_nearest {heap : Array (Rat × Nat)}
    (ordered : BinaryHeap.IsHeap (K := Lex (Rat × Nat)) toLex heap) {item : Rat × Nat}
    (member : item ∈ heap) (nearest : ∀ other ∈ heap, other = item ∨ toLex item < toLex other) :
    heap[0]? = some item := by
  have nonempty : 0 < heap.size := by
    obtain ⟨pos, inside, -⟩ := Array.mem_iff_getElem.mp member
    omega
  have root := Array.getElem?_eq_getElem nonempty
  have least := BinaryHeap.root_le_mem ordered root member
  rcases nearest _ (Array.getElem_mem nonempty) with same | farther
  · rw [root, same]
  · exact absurd least (not_le.mpr farther)

/-- The search before an iteration: its root has the nodes that are left in its list. -/
structure Ready (nodeCount capacity : Nat) (entryIds : List Nat) (count : Nat)
    (state : ScanState Rat) : Prop where
  lured : Lured nodeCount capacity entryIds count state
  unseen : ∀ nodeId ∈ (freshNodes nodeCount entryIds).drop count, nodeId ∉ state.visited
  root : ∃ item, state.frontier.items[0]? = some item ∧
    nearerNodes nodeCount entryIds item.2 = (freshNodes nodeCount entryIds).drop count ∧
    ∀ near ∈ state.nearest, toLex item ≤ toLex near

/-- **The last node of a batch** is the next root. -/
theorem Lured.last {state : ScanState Rat}
    (lured : Lured nodeCount capacity entryIds count state)
    (small : nodeCount ≤ stackFrontierCapacity) (less : capacity < nodeCount)
    (kept : 0 < searchEf) {nodeId : Nat} {after : List Nat}
    (rest : (freshNodes nodeCount entryIds).drop count = nodeId :: after)
    (unseen : ∀ other ∈ after, other ∉ state.visited) :
    Yields (fun failure => failure.1 = .stackRealloc)
      (fun next => Ready nodeCount capacity entryIds (count + 1) next ∧
        next.frontierPops = state.frontierPops)
      (offerNeighbor nodeCount searchEf state (0, nodeId)) := by
  have rest' : (freshNodes nodeCount entryIds).drop (count + 1) = after := by
    rw [← List.drop_drop, rest]
    rfl
  have split : freshNodes nodeCount entryIds =
      (freshNodes nodeCount entryIds).take count ++ nodeId :: after := by
    rw [← rest, List.take_append_drop]
  have order {item : Rat × Nat} (known : Known nodeCount entryIds (count + 1) item) :
      item = (0, nodeId) ∨ toLex ((0 : Rat), nodeId) < toLex item := by
    rcases known with far | ⟨near, member⟩
    · have known : Known nodeCount entryIds count item := Or.inl far
      exact Or.inr (known.farther rest)
    · rw [take_succ_fresh rest] at member
      rcases List.mem_append.mp member with before | last
      · exact Or.inr (Known.farther (Or.inr ⟨near, before⟩) rest)
      · exact Or.inl (Prod.ext near (List.mem_singleton.mp last))
  refine (lured.offer small less kept rest).imp (fun _ => id) ?_
  rintro next ⟨lured', member, visited, pops⟩
  refine ⟨⟨lured', ?_, (0, nodeId), ?_, ?_, ?_⟩, pops⟩
  · rw [rest', visited]
    exact unseen
  · exact root_eq_of_nearest lured'.heap member fun other inside =>
      order (lured'.frontier other inside)
  · rw [rest']
    exact nearerNodes_fresh split
  · intro near inside
    rcases order (lured'.nearest near inside) with same | farther
    · rw [same]
    · exact farther.le

theorem neighborBatch_lure {visited batch : List Nat} (nodup : batch.Nodup)
    (within : ∀ nodeId ∈ batch, nodeId < nodeCount)
    (unseen : ∀ nodeId ∈ batch, nodeId ∉ visited) :
    neighborBatch nodeCount (fun _ => true) visited batch = batch := by
  induction batch using List.reverseRecOn with
  | nil => rfl
  | append_singleton before nodeId ih =>
    have parts := List.nodup_append.mp nodup
    have taken := ih parts.1 (fun other member => within other (List.mem_append_left _ member))
      fun other member => unseen other (List.mem_append_left _ member)
    have last := List.mem_append_right before (List.mem_singleton_self nodeId)
    have new : nodeId ∉ before := fun member =>
      parts.2.2 nodeId member nodeId (List.mem_singleton_self nodeId) rfl
    have open_ : ¬(nodeCount ≤ nodeId ∨ nodeId ∈ visited ∨ nodeId ∈ before) := by
      rw [not_or, not_or]
      exact ⟨Nat.not_le.mpr (within nodeId last), unseen nodeId last, new⟩
    unfold neighborBatch at taken ⊢
    rw [List.foldl_append, taken, List.foldl_cons, List.foldl_nil, if_neg open_]
    exact if_pos rfl

theorem Lured.pop {state : ScanState Rat} (lured : Lured nodeCount capacity entryIds count state)
    {item : Rat × Nat} (root : state.frontier.items[0]? = some item) (visited : List Nat) :
    Lured nodeCount capacity entryIds count
      { state with
        visited := visited
        frontier := { state.frontier with
          items := BinaryHeap.pop frontierLess state.frontier.items }
        frontierPops := state.frontierPops + 1 } := by
  have size := size_pop root
  have fits := lured.fits
  have counted := lured.counted
  refine ⟨lured.stack, lured.first, ?_, ?_, BinaryHeap.pop_isHeap frontier_compares lured.heap,
    fun other member => ?_, lured.nearest⟩
  · dsimp only
    omega
  · dsimp only
    omega
  · rw [← Array.getElem?_toList] at root
    obtain ⟨first, rest, split⟩ :=
      List.exists_cons_of_length_pos (List.getElem?_eq_some_iff.mp root).1
    have kept := (BinaryHeap.pop_perm frontierLess split).subset (Array.mem_toList_iff.mpr member)
    refine lured.frontier other (Array.mem_toList_iff.mp ?_)
    rw [split]
    exact .tail _ kept

/-- **The expansion of the root** brings as many of the nodes that are left as a list has. -/
theorem Ready.expand {state : ScanState Rat}
    (ready : Ready nodeCount capacity entryIds count state)
    (small : nodeCount ≤ stackFrontierCapacity) (less : capacity < nodeCount)
    (kept : 0 < searchEf) (width : 0 < levelM m 0)
    (left : count < (freshNodes nodeCount entryIds).length) {item : Rat × Nat}
    (root : state.frontier.items[0]? = some item)
    (list : nearerNodes nodeCount entryIds item.2 = (freshNodes nodeCount entryIds).drop count) :
    Yields (fun failure => failure.1 = .stackRealloc)
      (fun next => Ready nodeCount capacity entryIds
        (min (count + levelM m 0) (freshNodes nodeCount entryIds).length) next ∧
        next.frontierPops = state.frontierPops + 1)
      (expandNode (lureGraph nodeCount m entryIds) searchEf
        { state with
          frontier := { state.frontier with
            items := BinaryHeap.pop frontierLess state.frontier.items }
          frontierPops := state.frontierPops + 1 } item.2) := by
  have nodup : ((freshNodes nodeCount entryIds).drop count).Nodup :=
    ((freshNodes_descending nodeCount entryIds).imp Nat.ne_of_gt).sublist (List.drop_sublist _ _)
  have batch : neighborBatch nodeCount (lureGraph nodeCount m entryIds).codeLoads state.visited
      ((lureGraph nodeCount m entryIds).neighbors item.2) =
        ((freshNodes nodeCount entryIds).drop count).take (levelM m 0) := by
    have part : ((freshNodes nodeCount entryIds).drop count).take (levelM m 0) ⊆
        (freshNodes nodeCount entryIds).drop count := (List.take_sublist _ _).subset
    unfold lureGraph
    dsimp only
    rw [list]
    refine neighborBatch_lure (nodup.sublist (List.take_sublist _ _)) (fun nodeId member => ?_)
      fun nodeId member => ready.unseen nodeId (part member)
    exact (mem_freshNodes.mp ((List.drop_sublist _ _).subset (part member))).1
  have size : (((freshNodes nodeCount entryIds).drop count).take (levelM m 0)).length =
      min (levelM m 0) ((freshNodes nodeCount entryIds).length - count) := by
    rw [List.length_take, List.length_drop]
  obtain ⟨before, last, split⟩ : ∃ before last,
      ((freshNodes nodeCount entryIds).drop count).take (levelM m 0) = before ++ [last] := by
    rcases List.eq_nil_or_concat (((freshNodes nodeCount entryIds).drop count).take
      (levelM m 0)) with empty | ⟨before, last, split⟩
    · rw [empty, List.length_nil] at size
      omega
    · exact ⟨before, last, split.trans List.concat_eq_append⟩
  rw [split, List.length_append, List.length_singleton] at size
  have rest : (freshNodes nodeCount entryIds).drop count =
      before ++ last :: ((freshNodes nodeCount entryIds).drop count).drop (levelM m 0) := by
    conv_lhs => rw [← List.take_append_drop (levelM m 0)
      ((freshNodes nodeCount entryIds).drop count), split, List.append_assoc]
    rfl
  have rest' : (freshNodes nodeCount entryIds).drop (count + before.length) =
      last :: ((freshNodes nodeCount entryIds).drop count).drop (levelM m 0) := by
    rw [← List.drop_drop, rest, List.drop_left]
    rw [← rest]
  have bound : count + before.length + 1 =
      min (count + levelM m 0) (freshNodes nodeCount entryIds).length := by omega
  unfold expandNode
  dsimp only
  rw [batch, split, List.map_append, List.foldlM_append]
  refine Yields.bind ((ready.lured.pop root (before ++ [last] ++ state.visited)).offers small less
    kept before rest) ?_
  rintro next ⟨lured, visited, pops⟩
  rw [List.map_singleton, List.foldlM_cons]
  refine Yields.bind (lured.last small less kept rest' fun other member => ?_) ?_
  · rw [visited]
    dsimp only
    rw [List.mem_append, ← split]
    rintro (early | seen)
    · rw [← List.take_append_drop (levelM m 0) ((freshNodes nodeCount entryIds).drop count)]
        at nodup
      exact (List.nodup_append.mp nodup).2.2 other early other member rfl
    · exact ready.unseen other ((List.drop_sublist _ _).subset member) seen
  · rintro final ⟨ready', pops'⟩
    exact ⟨bound ▸ ready', pops'.trans pops⟩

theorem searchLoop_root {state : ScanState Rat} {item : Rat × Nat}
    (root : state.frontier.items[0]? = some item)
    (least : ∀ near ∈ state.nearest, toLex item ≤ toLex near) (steps : Nat) :
    searchLoop (lureGraph nodeCount m entryIds) searchEf (steps + 1) state =
      (expandNode (lureGraph nodeCount m entryIds) searchEf
        { state with
          frontier := { state.frontier with
            items := BinaryHeap.pop frontierLess state.frontier.items }
          frontierPops := state.frontierPops + 1 } item.2 >>=
        searchLoop (lureGraph nodeCount m entryIds) searchEf steps) := by
  have near : ¬(searchEf ≤ state.nearest.size ∧
      state.nearest[0]?.any (fun worst => frontierGreater item worst) = true) := by
    rintro ⟨-, farther⟩
    obtain ⟨worst, atRoot, greater⟩ := Option.any_eq_true _ _ |>.mp farther
    exact absurd (frontierLess_iff.mp greater)
      (not_lt.mpr (least worst (Array.mem_of_getElem? atRoot)))
  rw [searchLoop]
  simp only [root]
  rw [if_neg Bool.noConfusion, if_neg near, if_neg Bool.noConfusion]

/-- **The loop** meets the full array. -/
theorem Ready.overflows (small : nodeCount ≤ stackFrontierCapacity) (less : capacity < nodeCount)
    (kept : 0 < searchEf) (width : 0 < levelM m 0) (steps : Nat) {count : Nat}
    {state : ScanState Rat} (ready : Ready nodeCount capacity entryIds count state)
    (received : count = min (state.frontierPops * levelM m 0)
      (freshNodes nodeCount entryIds).length)
    (enough : (freshNodes nodeCount entryIds).length ≤
      (state.frontierPops + steps) * levelM m 0)
    (needed : ∀ fewer < state.frontierPops + steps,
      fewer * levelM m 0 < (freshNodes nodeCount entryIds).length)
    (over_ : capacity + (state.frontierPops + steps) < nodeCount) :
    fault (searchLoop (lureGraph nodeCount m entryIds) searchEf steps state) =
      some .stackRealloc := by
  induction steps generalizing count state with
  | zero =>
    have counted := ready.lured.counted
    have fits := ready.lured.fits
    have whole := freshNodes_length nodeCount entryIds
    rw [Nat.add_zero] at enough over_
    omega
  | succ steps ih =>
    have begun := needed state.frontierPops (by omega)
    have left : count < (freshNodes nodeCount entryIds).length := by omega
    obtain ⟨item, root, list, least⟩ := ready.root
    have expanded := ready.expand small less kept width left root list
    rw [searchLoop_root root least]
    generalize expandNode (lureGraph nodeCount m entryIds) searchEf _ item.2 = run at expanded
    cases run with
    | error failure => exact congrArg some expanded
    | ok next =>
      obtain ⟨ready', pops⟩ := expanded
      have more : next.frontierPops + steps = state.frontierPops + (steps + 1) := by omega
      refine ih ready' ?_ ?_ ?_ ?_
      · rw [pops, Nat.succ_mul]
        omega
      · rw [more]
        exact enough
      · rw [more]
        exact needed
      · rw [more]
        exact over_

/-! ### The entry points -/

structure Baited (nodeCount capacity : Nat) (entryIds : List Nat) (state : ScanState Rat) :
    Prop where
  stack : state.frontier.place = .stack
  first : state.frontier.capacity = capacity
  fits : state.frontier.items.size ≤ capacity
  heap : BinaryHeap.IsHeap (K := Lex (Rat × Nat)) toLex state.frontier.items
  frontier : ∀ item ∈ state.frontier.items, item.1 = 1 ∧ item.2 ∈ entryIds
  nearest : ∀ item ∈ state.nearest, item ∈ state.frontier.items
  visited : ∀ nodeId ∈ state.visited, nodeId ∈ entryIds

theorem Baited.enterEntry {state : ScanState Rat}
    (baited : Baited nodeCount capacity entryIds state)
    (small : nodeCount ≤ stackFrontierCapacity) (less : capacity < nodeCount)
    {entry : Rat × Nat} (listed : entry ∈ lureEntries entryIds) :
    Yields (fun failure => failure.1 = .stackRealloc) (Baited nodeCount capacity entryIds)
      (enterEntry nodeCount searchEf state entry) := by
  obtain ⟨nodeId, member, rfl⟩ := List.mem_map.mp listed
  unfold ScanSearch.enterEntry
  split_ifs with skipped
  · exact baited
  · have pushed := pushGrowing_stack baited.stack small (baited.first ▸ less)
      ((1 : Rat), nodeId)
    unfold receive
    dsimp only
    rw [pushed]
    by_cases full : state.frontier.capacity ≤ state.frontier.items.size
    · rw [if_pos full]
      exact rfl
    · rw [if_neg full]
      have perm := BinaryHeap.push_perm frontierLess state.frontier.items ((1 : Rat), nodeId)
      have members (item : Rat × Nat) :
          item ∈ BinaryHeap.push frontierLess state.frontier.items (1, nodeId) ↔
            item = (1, nodeId) ∨ item ∈ state.frontier.items := by
        rw [← Array.mem_toList_iff, perm.mem_iff, List.mem_cons, Array.mem_toList_iff]
      refine ⟨baited.stack, baited.first, ?_,
        BinaryHeap.push_isHeap frontier_compares baited.heap _, ?_, ?_, ?_⟩
      · dsimp only
        rw [size_push, ← baited.first]
        exact Nat.not_le.mp full
      · intro item inside
        rcases (members item).mp inside with rfl | old
        · exact ⟨rfl, member⟩
        · exact baited.frontier item old
      · intro item inside
        refine (members item).mpr ?_
        have offered := (BoundedHeap.offer_subperm frontierGreater searchEf state.nearest
          ((1 : Rat), nodeId)).subset (Array.mem_toList_iff.mpr inside)
        exact (List.mem_cons.mp offered).imp id fun old =>
          baited.nearest item (Array.mem_toList_iff.mp old)
      · exact List.forall_mem_cons.mpr ⟨member, baited.visited⟩

/-- **The search is ready** once it has its entry points. -/
theorem Baited.ready {state : ScanState Rat} {onStack : Option Nat}
    (baited : Baited nodeCount capacity entryIds state)
    (entering : Entering nodeCount m searchEf onStack entryIds state)
    (all : ∀ nodeId, nodeId ∈ state.received ↔ nodeId ∈ entryIds ∧ nodeId < nodeCount)
    (some_ : 0 < entered nodeCount entryIds) :
    Ready nodeCount capacity entryIds 0 state := by
  have received : state.received.length = entered nodeCount entryIds := by
    rw [entered, ← List.toFinset_card_of_nodup entering.sound.nodup]
    congr 1
    ext nodeId
    rw [List.mem_toFinset, all, Finset.mem_filter, List.mem_toFinset]
  have counted := entering.sound.counted
  rw [received] at counted
  have known (item : Rat × Nat) (member : item ∈ state.frontier.items) :
      Known nodeCount entryIds 0 item := Or.inl (baited.frontier item member)
  have nonempty : 0 < state.frontier.items.size := by
    have pops := entering.pops
    omega
  have root := Array.getElem?_eq_getElem nonempty
  refine ⟨⟨baited.stack, baited.first, baited.fits, counted, baited.heap, known,
    fun item member => known item (baited.nearest item member)⟩, fun nodeId member seen => ?_,
    _, root, ?_, fun near member => ?_⟩
  · exact (mem_freshNodes.mp member).2 (baited.visited nodeId seen)
  · exact nearerNodes_entry (baited.frontier _ (Array.getElem_mem nonempty)).2
  · exact BinaryHeap.root_le_mem baited.heap root (baited.nearest near member)

end Lure

theorem lists_spec (nodes : Nat) {width : Nat} (positive : 0 < width) :
    nodes ≤ (nodes + width - 1) / width * width ∧
      ∀ fewer < (nodes + width - 1) / width, fewer * width < nodes := by
  have whole := Nat.div_add_mod (nodes + width - 1) width
  have small := Nat.mod_lt (nodes + width - 1) positive
  rw [Nat.mul_comm] at whole
  refine ⟨by omega, fun fewer less => ?_⟩
  have part := Nat.mul_le_mul_right width (Nat.succ_le_of_lt less)
  rw [Nat.succ_mul] at part
  omega

theorem startState_baited {stackScratch : Bool} {nodeCount m searchEf entryCount : Nat}
    (entryIds : List Nat) (scratch : stackScratch = true)
    (small : nodeCount ≤ stackFrontierCapacity) :
    Baited nodeCount (initialFrontierCapacity nodeCount searchEf entryCount (levelM m 0)) entryIds
      (startState stackScratch nodeCount m searchEf entryCount) := by
  refine ⟨if_pos ⟨scratch, small⟩, rfl, Nat.zero_le _, fun pos _ => ?_, fun _ member => ?_,
    fun _ member => ?_, fun _ member => absurd member List.not_mem_nil⟩
  · have empty : BinaryHeap.keyAt (K := Lex (Rat × Nat)) toLex (#[] : Array (Rat × Nat)) pos = ⊤ :=
      rfl
    unfold startState
    dsimp only
    rw [empty]
    exact le_top
  · exact absurd member (Array.not_mem_empty _)
  · exact absurd member (Array.not_mem_empty _)

/-- **Where the frontier can need more**, the search of this graph reallocates the array on the
stack. -/
theorem lure_overflows {stackScratch : Bool} {nodeCount m searchEf : Nat} {entryIds : List Nat}
    (can : CanOverflow stackScratch nodeCount m searchEf entryIds) :
    ∃ steps, fault (searchBaseLayer (lureGraph nodeCount m entryIds) stackScratch
      (lureEntries entryIds) searchEf steps) = some .stackRealloc := by
  obtain ⟨scratch, small, kept, some_, width, few, peak⟩ := can
  have names : (lureEntries entryIds).map Prod.snd = entryIds := by
    rw [lureEntries, List.map_map]
    exact List.map_id _
  have count : (lureEntries entryIds).length = entryIds.length := List.length_map _
  have whole := freshNodes_length nodeCount entryIds
  have fresh : nodeCount - entered nodeCount entryIds =
      (freshNodes nodeCount entryIds).length := by omega
  obtain ⟨enough, needed⟩ := lists_spec (freshNodes nodeCount entryIds).length width
  rw [frontierPeak, fresh] at peak
  have less : initialFrontierCapacity nodeCount searchEf entryIds.length (levelM m 0) <
      nodeCount := peak.trans_le (Nat.sub_le _ _)
  have beam : searchEf ≤ stackFrontierCapacity := by
    unfold initialFrontierCapacity at less
    dsimp only at less
    split_ifs at less <;> omega
  refine ⟨((freshNodes nodeCount entryIds).length + levelM m 0 - 1) / levelM m 0, ?_⟩
  have frontier : ¬maxAllocSize < frontierItemSize * (startState stackScratch nodeCount m searchEf
      (lureEntries entryIds).length : ScanState Rat).frontier.capacity := by
    rw [stackFrontierCapacity] at small
    unfold startState maxAllocSize frontierItemSize
    dsimp only
    rw [count]
    omega
  have nodes : ¬maxAllocSize < nodeCount := by
    rw [stackFrontierCapacity] at small
    unfold maxAllocSize
    omega
  unfold searchBaseLayer
  dsimp only
  rw [if_neg frontier, if_neg fun large => large.1 ⟨scratch, beam⟩, if_neg (Nat.not_lt.mpr few),
    if_neg nodes]
  have baited := @Yields.foldlM _ _ _ (fun failure => failure.1 = Fault.stackRealloc)
    (enterEntry nodeCount searchEf)
    (Baited nodeCount (initialFrontierCapacity nodeCount searchEf (lureEntries entryIds).length
      (levelM m 0)) entryIds)
    (lureEntries entryIds) _ (startState_baited entryIds scratch small) fun state entry member held =>
      held.enterEntry small (count ▸ less) member
  have entering := @Entering.received _ _ _ _ _ _ (lureEntries entryIds) _
    (startState_entering stackScratch nodeCount m searchEf _ (lureEntries entryIds).length :
      Entering nodeCount m searchEf _ _ (startState stackScratch nodeCount m searchEf
        (lureEntries entryIds).length : ScanState Rat)) rfl
  generalize (lureEntries entryIds).foldlM (enterEntry nodeCount searchEf) _ = run
    at baited entering
  cases run with
  | error failure => exact congrArg some baited
  | ok state =>
    obtain ⟨entering, all⟩ := entering
    rw [names] at entering all
    rw [count] at baited
    have pops := entering.pops
    refine (baited.ready entering all some_).overflows small less kept width _ ?_ ?_ ?_ ?_
    · rw [pops, Nat.zero_mul, Nat.zero_min]
    · rw [pops, Nat.zero_add]
      exact enough
    · rw [pops, Nat.zero_add]
      exact needed
    · rw [pops]
      omega

/-! ### When every search is safe -/

/-- **The property of the frontier**: besides, its array is reallocated only where it was
allocated. -/
def FrontierSafe (nodeCount : Nat) (run : Run Rat (ScanState Rat)) : Prop :=
  FrontierSound nodeCount run ∧ fault run ≠ some .stackRealloc

/-- **The stack array of the search.** For so many nodes, lists of such a width, entry points and
searched nodes, the frontier is safe on every graph, whatever the distances and the pages that can
be read, exactly when its array does not lie on the stack with less room than the frontier can
need. -/
theorem searchBaseLayer_safe_iff (stackScratch : Bool) (nodeCount m searchEf : Nat)
    (entryIds : List Nat) :
    (∀ (graph : ScanGraph Rat nodeCount m) (entries : List (Rat × Nat)),
        entries.map Prod.snd = entryIds →
        ∀ steps, FrontierSafe nodeCount
          (searchBaseLayer graph stackScratch entries searchEf steps)) ↔
      ¬CanOverflow stackScratch nodeCount m searchEf entryIds := by
  constructor
  · intro safe can
    have names : (lureEntries entryIds).map Prod.snd = entryIds := by
      rw [lureEntries, List.map_map]
      exact List.map_id _
    obtain ⟨steps, overflows⟩ := lure_overflows can
    exact (safe _ _ names steps).2 overflows
  · rintro enough graph entries rfl steps
    exact ⟨searchBaseLayer_sound graph stackScratch entries searchEf steps,
      searchBaseLayer_heapOnly graph enough steps⟩

/-- Twelve nodes in lists of four, one entry point and one searched node: the eleventh of the other
nodes finds eight in the frontier. -/
theorem searchBaseLayer_twelve :
    ¬FrontierSafe 12 (searchBaseLayer (lureGraph 12 2 [0]) true (lureEntries [0]) 1 3) := by
  have overflows : fault (searchBaseLayer (lureGraph 12 2 [0]) true (lureEntries [0]) 1 3) =
      some .stackRealloc := by
    decide +kernel
  exact fun safe => safe.2 overflows

end TurboHybrid.Graph.ScanSearch
