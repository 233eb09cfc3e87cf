/-
**The frontier of a scan's search.**

The search of the lowest level keeps its frontier in a fixed array on the stack where the graph is
small, else in an allocated one; the array has a first capacity from a formula of its own and is
reallocated when it is full.

* `searchBaseLayer`: the search with the memory of its frontier; the errors it raises, and what C
  does not define, are faults;
* `searchBaseLayer_sound`: every node is received once, and nothing is written past the array;
* `frontierPeak`: the most nodes that can be in the frontier when another one is pushed;
* `searchBaseLayer_safe_iff`: when no graph makes the search reallocate the array on the stack.
-/
import TurboHybrid.Graph.InsertSearch
import TurboHybrid.Graph.Repair
import TurboHybrid.Library.Results
import Mathlib.Data.Finset.Card
import Mathlib.Data.Finset.Dedup

set_option linter.unusedSectionVars false

namespace TurboHybrid.Graph.ScanSearch

open Library

variable {D : Type} [LinearOrder D]

/-! ### The memory of the frontier -/

/-- `PGTURBOHYBRID_GRAPH_STACK_FRONTIER_CAPACITY`. -/
def stackFrontierCapacity : Nat := 256

/-- `PGTURBOHYBRID_GRAPH_MAX_NEIGHBORS`. -/
def maxNeighborBatch : Nat := 200

/-- `MaxAllocSize`. -/
def maxAllocSize : Nat := 1073741823

/-- `sizeof(PgturbohybridGraphFrontierItem)`. -/
def frontierItemSize : Nat := 16

inductive Place where
  | stack
  | heap (cells : Nat)
  deriving DecidableEq, Repr

def Place.cells : Place → Nat
  | .stack => stackFrontierCapacity
  | .heap cells => cells

structure Frontier (D : Type) where
  items : Array (D × Nat)
  capacity : Nat
  place : Place

/-- What ends a search early: the errors it raises, then what it must never do. -/
inductive Fault where
  | capacityExceeded
  | tooLarge
  | neighborBatch
  | stackRealloc
  | outOfBounds
  deriving DecidableEq, Repr

/-- `PgturbohybridGraphInitialFrontierCapacity`. -/
def initialFrontierCapacity (nodeCount searchEf entryCount maxNeighbors : Nat) : Nat :=
  if nodeCount = 0 then 0
  else
    let capacity := max 8 (searchEf + entryCount + maxNeighbors)
    let capacity := max capacity (searchEf * 2 + entryCount)
    if nodeCount < capacity then nodeCount else capacity

def growCapacity (capacity maxCapacity : Nat) : Nat :=
  let newCapacity := if 2147483647 / 2 < capacity then maxCapacity else max 8 (capacity + capacity)
  if newCapacity < capacity ∨ maxCapacity < newCapacity then maxCapacity else newCapacity

def grow (maxCapacity : Nat) (frontier : Frontier D) : Except Fault (Frontier D) :=
  if maxCapacity ≤ frontier.capacity then .error .capacityExceeded
  else
    let newCapacity := growCapacity frontier.capacity maxCapacity
    if maxAllocSize / frontierItemSize < newCapacity then .error .tooLarge
    else
      match frontier.place with
      | .stack => .error .stackRealloc
      | .heap _ => .ok { frontier with capacity := newCapacity, place := .heap newCapacity }

/-- `PgturbohybridGraphFrontierHeapPush`. -/
def pushItem (frontier : Frontier D) (item : D × Nat) : Except Fault (Frontier D) :=
  if frontier.place.cells ≤ frontier.items.size then .error .outOfBounds
  else .ok { frontier with items := BinaryHeap.push frontierLess frontier.items item }

/-- `PgturbohybridGraphFrontierHeapPushGrowing`. -/
def pushGrowing (maxCapacity : Nat) (frontier : Frontier D) (item : D × Nat) :
    Except Fault (Frontier D) :=
  if frontier.capacity ≤ frontier.items.size then
    grow maxCapacity frontier >>= fun frontier => pushItem frontier item
  else pushItem frontier item

/-! ### The search -/

/-- What the search reads: the lists of the lowest level as the loader accepts them, the pages that
can be read, and the score of a node. -/
structure ScanGraph (D : Type) (nodeCount m : Nat) where
  neighbors : Nat → List Nat
  codeLoads : Nat → Bool
  adjLoads : Nat → Bool
  score : Nat → D
  listed : ∀ nodeId, (neighbors nodeId).length ≤ levelM m 0

structure ScanState (D : Type) where
  visited : List Nat
  frontier : Frontier D
  nearest : Array (D × Nat)
  /-- The nodes the frontier received, the latest first. -/
  received : List Nat
  frontierPops : Nat

/-- A search that ended early shows the state it had. -/
abbrev Run (D : Type) : Type → Type := Except (Fault × ScanState D)

variable {nodeCount m : Nat}

def receive (nodeCount : Nat) (state : ScanState D) (item : D × Nat) : Run D (ScanState D) :=
  match pushGrowing nodeCount state.frontier item with
  | .ok frontier =>
    .ok { state with frontier := frontier, received := item.2 :: state.received }
  | .error fault => .error (fault, state)

def enterEntry (nodeCount searchEf : Nat) (state : ScanState D) (entry : D × Nat) :
    Run D (ScanState D) :=
  if nodeCount ≤ entry.2 ∨ entry.2 ∈ state.visited then .ok state
  else
    receive nodeCount { state with visited := entry.2 :: state.visited } entry >>= fun state =>
      .ok { state with nearest := (offerNearest searchEf state.nearest entry).1 }

/-- The neighbours of a node that were not visited yet. -/
def neighborBatch (nodeCount : Nat) (codeLoads : Nat → Bool) (visited neighbors : List Nat) :
    List Nat :=
  neighbors.foldl (fun batch neighbor =>
    if nodeCount ≤ neighbor ∨ neighbor ∈ visited ∨ neighbor ∈ batch then batch
    else if codeLoads neighbor then batch ++ [neighbor]
    else batch) []

def offerNeighbor (nodeCount searchEf : Nat) (state : ScanState D) (item : D × Nat) :
    Run D (ScanState D) :=
  let offered := offerNearest searchEf state.nearest item
  let state := { state with nearest := offered.1 }
  if offered.2 then receive nodeCount state item else .ok state

def expandNode (graph : ScanGraph D nodeCount m) (searchEf : Nat) (state : ScanState D)
    (nodeId : Nat) : Run D (ScanState D) :=
  let batch := neighborBatch nodeCount graph.codeLoads state.visited (graph.neighbors nodeId)
  (batch.map fun neighbor => (graph.score neighbor, neighbor)).foldlM
    (offerNeighbor nodeCount searchEf) { state with visited := batch ++ state.visited }

/-- So many iterations of the loop over the frontier. -/
def searchLoop (graph : ScanGraph D nodeCount m) (searchEf : Nat) :
    Nat → ScanState D → Run D (ScanState D)
  | 0, state => .ok state
  | steps + 1, state =>
    match state.frontier.items[0]? with
    | none => .ok state
    | some item =>
      let popped := { state with
        frontier := { state.frontier with
          items := BinaryHeap.pop frontierLess state.frontier.items }
        frontierPops := state.frontierPops + 1 }
      if graph.codeLoads item.2 = false then searchLoop graph searchEf steps popped
      else if searchEf ≤ popped.nearest.size ∧
          popped.nearest[0]?.any (fun worst => frontierGreater item worst) = true then .ok popped
      else if graph.adjLoads item.2 = false then searchLoop graph searchEf steps popped
      else expandNode graph searchEf popped item.2 >>= searchLoop graph searchEf steps

def startState (stackScratch : Bool) (nodeCount m searchEf entryCount : Nat) : ScanState D :=
  let frontierCapacity :=
    initialFrontierCapacity nodeCount searchEf entryCount (levelM m 0)
  { visited := []
    frontier :=
      { items := #[]
        capacity := frontierCapacity
        place :=
          if stackScratch ∧ nodeCount ≤ stackFrontierCapacity then .stack
          else .heap frontierCapacity }
    nearest := #[]
    received := []
    frontierPops := 0 }

/-- **`PgturbohybridGraphSearchBaseLayer`** up to its results, after so many iterations. -/
def searchBaseLayer (graph : ScanGraph D nodeCount m) (stackScratch : Bool)
    (entries : List (D × Nat)) (searchEf steps : Nat) : Run D (ScanState D) :=
  let start := startState stackScratch nodeCount m searchEf entries.length
  if maxAllocSize < frontierItemSize * start.frontier.capacity then .error (.tooLarge, start)
  else if ¬(stackScratch ∧ searchEf ≤ stackFrontierCapacity) ∧
      maxAllocSize < frontierItemSize * searchEf then .error (.tooLarge, start)
  else if maxNeighborBatch < levelM m 0 then .error (.neighborBatch, start)
  else if maxAllocSize < nodeCount then .error (.tooLarge, start)
  else entries.foldlM (enterEntry nodeCount searchEf) start >>= searchLoop graph searchEf steps

/-! ### One push -/

/-- The capacity lies between the size of the frontier and both limits. -/
structure Frontier.Fits (nodeCount : Nat) (frontier : Frontier D) : Prop where
  size : frontier.items.size ≤ frontier.capacity
  cells : frontier.capacity ≤ frontier.place.cells
  limit : frontier.capacity ≤ nodeCount

theorem size_push (heap : Array (D × Nat)) (item : D × Nat) :
    (BinaryHeap.push frontierLess heap item).size = heap.size + 1 := by
  have same := (BinaryHeap.push_perm frontierLess heap item).length_eq
  rwa [List.length_cons, Array.length_toList, Array.length_toList] at same

theorem size_pop {heap : Array (D × Nat)} {item : D × Nat} (root : heap[0]? = some item) :
    (BinaryHeap.pop frontierLess heap).size + 1 = heap.size := by
  rw [← Array.getElem?_toList] at root
  obtain ⟨first, rest, split⟩ :=
    List.exists_cons_of_length_pos (List.getElem?_eq_some_iff.mp root).1
  have same := (BinaryHeap.pop_perm frontierLess split).length_eq
  rw [← Array.length_toList, same, ← @Array.length_toList _ heap, split, List.length_cons]

theorem growCapacity_spec {capacity maxCapacity : Nat} (room : capacity < maxCapacity) :
    capacity < growCapacity capacity maxCapacity ∧
      growCapacity capacity maxCapacity ≤ maxCapacity := by
  unfold growCapacity
  dsimp only
  split_ifs <;> omega

theorem grow_spec {frontier : Frontier D} (full : frontier.capacity ≤ frontier.items.size)
    (fits : frontier.Fits nodeCount) (room : frontier.items.size < nodeCount) :
    Yields (fun fault => fault = .tooLarge ∨ fault = .stackRealloc ∧ frontier.place = .stack)
      (fun next => next.Fits nodeCount ∧ next.items = frontier.items ∧
        next.items.size < next.capacity ∧ next.place ≠ .stack) (grow nodeCount frontier) := by
  have below : frontier.capacity < nodeCount := full.trans_lt room
  obtain ⟨more, limit⟩ := growCapacity_spec below
  rw [grow, if_neg (Nat.not_le.mpr below)]
  dsimp only
  split_ifs with large
  · exact Or.inl rfl
  · cases lies : frontier.place with
    | stack => exact Or.inr ⟨rfl, rfl⟩
    | heap cells =>
      have size : frontier.items.size < growCapacity frontier.capacity nodeCount :=
        fits.size.trans_lt more
      exact ⟨⟨size.le, le_rfl, limit⟩, rfl, size, Place.noConfusion⟩

theorem pushItem_spec {frontier : Frontier D} (fits : frontier.Fits nodeCount)
    (room : frontier.items.size < frontier.capacity) (item : D × Nat) :
    pushItem frontier item =
        .ok { frontier with items := BinaryHeap.push frontierLess frontier.items item } ∧
      Frontier.Fits nodeCount
        { frontier with items := BinaryHeap.push frontierLess frontier.items item } := by
  refine ⟨if_neg (Nat.not_le.mpr (room.trans_le fits.cells)), ?_, fits.cells, fits.limit⟩
  rw [size_push]
  exact room

/-- **One push** succeeds, or fails for the size of an allocation or because the full array lies on
the stack. -/
theorem pushGrowing_spec {frontier : Frontier D} (fits : frontier.Fits nodeCount)
    (room : frontier.items.size < nodeCount) (item : D × Nat) :
    Yields (fun fault => fault = .tooLarge ∨
        fault = .stackRealloc ∧ frontier.place = .stack ∧
          frontier.capacity ≤ frontier.items.size)
      (fun next => next.Fits nodeCount ∧
        next.items = BinaryHeap.push frontierLess frontier.items item ∧
        (next.place = .stack → frontier.place = .stack ∧ next.capacity = frontier.capacity))
      (pushGrowing nodeCount frontier item) := by
  unfold pushGrowing
  split_ifs with full
  · refine Yields.bind ((grow_spec full fits room).imp (fun fault error => ?_) fun _ => id) ?_
    · exact error.imp id fun both => ⟨both.1, both.2, full⟩
    · rintro grown ⟨fits', same, room', lies⟩
      obtain ⟨pushed, kept⟩ := pushItem_spec fits' room' item
      rw [pushed]
      refine ⟨kept, ?_, fun stack => absurd stack lies⟩
      dsimp only
      rw [same]
  · obtain ⟨pushed, kept⟩ := pushItem_spec fits (Nat.not_le.mp full) item
    rw [pushed]
    exact ⟨kept, rfl, fun stack => ⟨stack, rfl⟩⟩

/-! ### What every state of the search keeps -/

/-- The entry points that count: ids of nodes, each once. -/
def entered (nodeCount : Nat) (entryIds : List Nat) : Nat :=
  (entryIds.toFinset.filter (· < nodeCount)).card

/-- **The invariant**, with the number of entry points received and the capacity of the
array on the stack, if it lies there. -/
structure Sound (nodeCount m searchEf start : Nat) (onStack : Option Nat) (state : ScanState D) :
    Prop where
  nodup : state.received.Nodup
  within : ∀ nodeId ∈ state.received, nodeId < nodeCount
  visited : ∀ nodeId ∈ state.received, nodeId ∈ state.visited
  counted : state.frontier.items.size + state.frontierPops = state.received.length
  fits : state.frontier.Fits nodeCount
  stack : state.frontier.place = .stack → onStack = some state.frontier.capacity
  budget : state.received.length ≤ start + levelM m 0 * state.frontierPops
  started : 0 < state.frontierPops → 0 < start
  quiet : searchEf = 0 → state.nearest = #[]

structure Overfull (nodeCount m searchEf start : Nat) (onStack : Option Nat) (state : ScanState D) :
    Prop where
  stack : onStack = some state.frontier.capacity
  full : state.frontier.capacity ≤ state.frontier.items.size
  room : state.received.length < nodeCount
  budget : state.received.length < start + levelM m 0 * state.frontierPops
  accepts : start ≤ state.received.length → 0 < searchEf

def Failed (nodeCount m searchEf start : Nat) (onStack : Option Nat)
    (failure : Fault × ScanState D) : Prop :=
  Sound nodeCount m searchEf start onStack failure.2 ∧
    (failure.1 = .tooLarge ∨
      failure.1 = .stackRealloc ∧ Overfull nodeCount m searchEf start onStack failure.2)

theorem offerNearest_zero (item : D × Nat) :
    offerNearest 0 (#[] : Array (D × Nat)) item = (#[], false) := rfl

section Sound

variable {searchEf start : Nat} {onStack : Option Nat} {state : ScanState D}

theorem Sound.see (sound : Sound nodeCount m searchEf start onStack state) {visited : List Nat}
    (more : ∀ nodeId ∈ state.visited, nodeId ∈ visited) :
    Sound nodeCount m searchEf start onStack { state with visited := visited } :=
  ⟨sound.nodup, sound.within, fun nodeId member => more nodeId (sound.visited nodeId member),
    sound.counted, sound.fits, sound.stack, sound.budget, sound.started, sound.quiet⟩

theorem Sound.offer (sound : Sound nodeCount m searchEf start onStack state) (item : D × Nat) :
    Sound nodeCount m searchEf start onStack
      { state with nearest := (offerNearest searchEf state.nearest item).1 } := by
  refine ⟨sound.nodup, sound.within, sound.visited, sound.counted, sound.fits, sound.stack,
    sound.budget, sound.started, fun none_ => ?_⟩
  dsimp only
  rw [none_, sound.quiet none_, offerNearest_zero]

theorem Sound.accepts (sound : Sound nodeCount m searchEf start onStack state)
    {item : D × Nat} (taken : (offerNearest searchEf state.nearest item).2 = true) :
    0 < searchEf := by
  refine Nat.pos_of_ne_zero fun none_ => ?_
  rw [none_, sound.quiet none_, offerNearest_zero] at taken
  exact Bool.false_ne_true taken

theorem Sound.size_lt (sound : Sound nodeCount m searchEf start onStack state) {nodeId : Nat}
    (inside : nodeId < nodeCount) (fresh : nodeId ∉ state.received) :
    state.received.length < nodeCount := by
  have nodup : (nodeId :: state.received).Nodup := List.nodup_cons.mpr ⟨fresh, sound.nodup⟩
  have inRange : nodeId :: state.received ⊆ List.range nodeCount := by
    intro other member
    rw [List.mem_range]
    rcases List.mem_cons.mp member with rfl | old
    · exact inside
    · exact sound.within other old
  have few := (nodup.subperm inRange).length_le
  rwa [List.length_cons, List.length_range] at few

/-- **What a push keeps.** -/
theorem Sound.receive (sound : Sound nodeCount m searchEf start onStack state) {item : D × Nat}
    (inside : item.2 < nodeCount) (fresh : item.2 ∉ state.received)
    (seen : item.2 ∈ state.visited)
    (budget : state.received.length < start + levelM m 0 * state.frontierPops)
    (accepts : start ≤ state.received.length → 0 < searchEf) :
    Yields (Failed nodeCount m searchEf start onStack)
      (fun next => Sound nodeCount m searchEf start onStack next ∧
        next.received = item.2 :: state.received ∧ next.visited = state.visited ∧
        next.nearest = state.nearest ∧ next.frontierPops = state.frontierPops)
      (receive nodeCount state item) := by
  have room := sound.size_lt inside fresh
  have size : state.frontier.items.size < nodeCount := by
    have counted := sound.counted
    omega
  have pushed := pushGrowing_spec sound.fits size item
  unfold ScanSearch.receive
  cases result : pushGrowing nodeCount state.frontier item with
  | error fault =>
    rw [result] at pushed
    rcases pushed with large | ⟨fault_, stack, full⟩
    · exact ⟨sound, Or.inl large⟩
    · exact ⟨sound, Or.inr ⟨fault_, sound.stack stack, full, room, budget, accepts⟩⟩
  | ok next =>
    rw [result] at pushed
    obtain ⟨fits, items, stack⟩ := pushed
    refine ⟨⟨List.nodup_cons.mpr ⟨fresh, sound.nodup⟩, ?_, ?_, ?_, fits, ?_, budget,
      sound.started, sound.quiet⟩, rfl, rfl, rfl, rfl⟩
    · exact List.forall_mem_cons.mpr ⟨inside, sound.within⟩
    · exact List.forall_mem_cons.mpr ⟨seen, sound.visited⟩
    · dsimp only
      have counted := sound.counted
      rw [items, size_push, List.length_cons]
      omega
    · intro stack_
      obtain ⟨before, same⟩ := stack stack_
      exact (sound.stack before).trans (congrArg some same.symm)

theorem Sound.offerNeighbors (items : List (D × Nat)) {state : ScanState D}
    (sound : Sound nodeCount m searchEf start onStack state)
    (nodup : (items.map Prod.snd).Nodup)
    (fresh : ∀ item ∈ items, item.2 < nodeCount ∧ item.2 ∉ state.received ∧
      item.2 ∈ state.visited)
    (budget : state.received.length + items.length ≤ start + levelM m 0 * state.frontierPops) :
    Yields (Failed nodeCount m searchEf start onStack)
      (Sound nodeCount m searchEf start onStack)
      (items.foldlM (offerNeighbor nodeCount searchEf) state) := by
  induction items generalizing state with
  | nil => exact sound
  | cons item rest ih =>
    rw [List.map_cons, List.nodup_cons] at nodup
    rw [List.length_cons] at budget
    obtain ⟨inside, new, seen⟩ := fresh item List.mem_cons_self
    rw [List.foldlM_cons]
    unfold offerNeighbor
    dsimp only
    split_ifs with taken
    · refine Yields.bind ((sound.offer item).receive inside new seen ?_ ?_) ?_
      · dsimp only
        omega
      · exact fun _ => sound.accepts taken
      · rintro next ⟨sound', received, visited, -, pops⟩
        refine ih sound' nodup.2 (fun other member => ?_) ?_
        · obtain ⟨within, old, seen'⟩ := fresh other (.tail _ member)
          rw [received, visited]
          refine ⟨within, fun both => ?_, seen'⟩
          rcases List.mem_cons.mp both with same | earlier
          · exact nodup.1 (same ▸ List.mem_map_of_mem member)
          · exact old earlier
        · rw [received, pops, List.length_cons]
          dsimp only
          omega
    · refine ih (sound.offer item) nodup.2 (fun other member => fresh other (.tail _ member)) ?_
      dsimp only
      omega

theorem neighborBatch_spec (nodeCount : Nat) (codeLoads : Nat → Bool)
    (visited neighbors : List Nat) :
    (neighborBatch nodeCount codeLoads visited neighbors).Nodup ∧
      (neighborBatch nodeCount codeLoads visited neighbors).length ≤ neighbors.length ∧
      ∀ nodeId ∈ neighborBatch nodeCount codeLoads visited neighbors,
        nodeId < nodeCount ∧ nodeId ∉ visited := by
  induction neighbors using List.reverseRecOn with
  | nil => exact ⟨List.nodup_nil, le_rfl, fun _ member => absurd member List.not_mem_nil⟩
  | append_singleton before neighbor ih =>
    obtain ⟨nodup, few, fresh⟩ := ih
    rw [List.length_append, List.length_singleton]
    unfold neighborBatch at nodup few fresh ⊢
    rw [List.foldl_append, List.foldl_cons, List.foldl_nil]
    split_ifs with old loads
    · exact ⟨nodup, few.trans (Nat.le_succ _), fresh⟩
    · push Not at old
      refine ⟨?_, ?_, ?_⟩
      · refine nodup.append (List.nodup_singleton neighbor) ?_
        exact List.disjoint_singleton.mpr old.2.2
      · rw [List.length_append, List.length_singleton]
        exact Nat.succ_le_succ few
      · intro nodeId member
        rcases List.mem_append.mp member with earlier | last
        · exact fresh nodeId earlier
        · exact List.mem_singleton.mp last ▸ ⟨old.1, old.2.1⟩
    · exact ⟨nodup, few.trans (Nat.le_succ _), fresh⟩

theorem Sound.pop (sound : Sound nodeCount m searchEf start onStack state) {item : D × Nat}
    (root : state.frontier.items[0]? = some item) :
    Sound nodeCount m searchEf start onStack
        { state with
          frontier := { state.frontier with
            items := BinaryHeap.pop frontierLess state.frontier.items }
          frontierPops := state.frontierPops + 1 } ∧
      state.received.length + levelM m 0 ≤
        start + levelM m 0 * (state.frontierPops + 1) := by
  have size := size_pop root
  have counted := sound.counted
  have budget := sound.budget
  have more : levelM m 0 * (state.frontierPops + 1) =
      levelM m 0 * state.frontierPops + levelM m 0 := Nat.mul_succ _ _
  refine ⟨⟨sound.nodup, sound.within, sound.visited, ?_, ⟨?_, sound.fits.cells,
    sound.fits.limit⟩, sound.stack, ?_, fun _ => ?_, sound.quiet⟩, by omega⟩
  · dsimp only
    omega
  · have fits := sound.fits.size
    dsimp only
    omega
  · dsimp only
    omega
  · rcases Nat.eq_zero_or_pos state.frontierPops with first | later
    · rw [first, Nat.mul_zero] at budget
      omega
    · exact sound.started later

/-- **A node expanded.** -/
theorem Sound.expandNode (graph : ScanGraph D nodeCount m)
    (sound : Sound nodeCount m searchEf start onStack state) (nodeId : Nat)
    (budget : state.received.length + levelM m 0 ≤
      start + levelM m 0 * state.frontierPops) :
    Yields (Failed nodeCount m searchEf start onStack)
      (Sound nodeCount m searchEf start onStack) (expandNode graph searchEf state nodeId) := by
  obtain ⟨nodup, few, fresh⟩ := neighborBatch_spec nodeCount graph.codeLoads state.visited
    (graph.neighbors nodeId)
  have names : ((neighborBatch nodeCount graph.codeLoads state.visited
      (graph.neighbors nodeId)).map fun neighbor => (graph.score neighbor, neighbor)).map Prod.snd =
        neighborBatch nodeCount graph.codeLoads state.visited (graph.neighbors nodeId) := by
    rw [List.map_map]
    exact List.map_id _
  unfold ScanSearch.expandNode
  dsimp only
  refine Sound.offerNeighbors _
    (sound.see fun _ member => List.mem_append_right _ member) ?_ ?_ ?_
  · rw [names]
    exact nodup
  · intro item member
    obtain ⟨neighbor, inside, rfl⟩ := List.mem_map.mp member
    obtain ⟨within, new⟩ := fresh neighbor inside
    exact ⟨within, fun old => new (sound.visited neighbor old), List.mem_append_left _ inside⟩
  · rw [List.length_map]
    have listed := graph.listed nodeId
    dsimp only
    omega

/-- **The loop.** -/
theorem Sound.searchLoop (graph : ScanGraph D nodeCount m) (steps : Nat) {state : ScanState D}
    (sound : Sound nodeCount m searchEf start onStack state) :
    Yields (Failed nodeCount m searchEf start onStack)
      (Sound nodeCount m searchEf start onStack) (searchLoop graph searchEf steps state) := by
  induction steps generalizing state with
  | zero => exact sound
  | succ steps ih =>
    unfold ScanSearch.searchLoop
    cases root : state.frontier.items[0]? with
    | none => exact sound
    | some item =>
      obtain ⟨popped, budget⟩ := sound.pop root
      dsimp only
      split_ifs
      · exact ih popped
      · exact popped
      · exact ih popped
      · exact Yields.bind (popped.expandNode graph item.2 budget) fun next sound' => ih sound'

end Sound

/-! ### The entry points -/

/-- Among the entry points the visited nodes are those received. -/
structure Entering (nodeCount m searchEf : Nat) (onStack : Option Nat) (entryIds : List Nat)
    (state : ScanState D) : Prop where
  sound : Sound nodeCount m searchEf (entered nodeCount entryIds) onStack state
  pops : state.frontierPops = 0
  seen : state.visited = state.received
  entries : ∀ nodeId ∈ state.received, nodeId ∈ entryIds

section Entering

variable {searchEf : Nat} {onStack : Option Nat} {entryIds : List Nat} {state : ScanState D}

theorem Entering.room (entering : Entering nodeCount m searchEf onStack entryIds state)
    {nodeId : Nat} (inside : nodeId < nodeCount) (new : nodeId ∉ state.received)
    (entry : nodeId ∈ entryIds) : state.received.length < entered nodeCount entryIds := by
  have nodup : (nodeId :: state.received).Nodup := List.nodup_cons.mpr ⟨new, entering.sound.nodup⟩
  have part : (nodeId :: state.received).toFinset ⊆
      entryIds.toFinset.filter (· < nodeCount) := by
    intro other member
    rw [Finset.mem_filter, List.mem_toFinset]
    rcases List.mem_cons.mp (List.mem_toFinset.mp member) with rfl | old
    · exact ⟨entry, inside⟩
    · exact ⟨entering.entries other old, entering.sound.within other old⟩
  have few := Finset.card_le_card part
  rwa [List.toFinset_card_of_nodup nodup] at few

theorem Entering.enterEntry (entering : Entering nodeCount m searchEf onStack entryIds state)
    {entry : D × Nat} (listed : entry.2 ∈ entryIds) :
    Yields (Failed nodeCount m searchEf (entered nodeCount entryIds) onStack)
      (fun next => Entering nodeCount m searchEf onStack entryIds next ∧
        (∀ nodeId, nodeId ∈ next.received ↔
          nodeId ∈ state.received ∨ nodeId = entry.2 ∧ nodeId < nodeCount))
      (enterEntry nodeCount searchEf state entry) := by
  unfold ScanSearch.enterEntry
  split_ifs with skipped
  · refine ⟨entering, fun nodeId => ⟨Or.inl, ?_⟩⟩
    rintro (old | ⟨rfl, inside⟩)
    · exact old
    · rcases skipped with outside | seen
      · exact absurd inside (Nat.not_lt.mpr outside)
      · exact entering.seen ▸ seen
  · push Not at skipped
    obtain ⟨inside, unseen⟩ := skipped
    have new : entry.2 ∉ state.received := entering.seen ▸ unseen
    have room := entering.room inside new listed
    have marked : ∀ nodeId ∈ state.visited, nodeId ∈ entry.2 :: state.visited :=
      fun _ member => .tail _ member
    refine Yields.bind
      ((entering.sound.see marked).receive inside new List.mem_cons_self ?_ ?_) ?_
    · exact room.trans_le (Nat.le_add_right _ _)
    · exact fun full => absurd room (Nat.not_lt.mpr full)
    · rintro next ⟨sound, received, visited, -, pops⟩
      refine ⟨⟨?_, pops.trans entering.pops, ?_, ?_⟩, ?_⟩
      · exact sound.offer entry
      · dsimp only
        rw [visited, received, entering.seen]
      · dsimp only
        rw [received]
        exact List.forall_mem_cons.mpr ⟨listed, entering.entries⟩
      · intro nodeId
        dsimp only
        rw [received, List.mem_cons, or_comm]
        refine or_congr_right ⟨fun same => ⟨same, same ▸ inside⟩, And.left⟩

/-- **The entry points received** are the ids of nodes among them, each once. -/
theorem Entering.received {entries : List (D × Nat)} {state : ScanState D}
    (entering : Entering nodeCount m searchEf onStack (entries.map Prod.snd) state)
    (empty : state.received = []) :
    Yields (Failed nodeCount m searchEf (entered nodeCount (entries.map Prod.snd)) onStack)
      (fun next => Entering nodeCount m searchEf onStack (entries.map Prod.snd) next ∧
        ∀ nodeId, nodeId ∈ next.received ↔ nodeId ∈ entries.map Prod.snd ∧ nodeId < nodeCount)
      (entries.foldlM (ScanSearch.enterEntry nodeCount searchEf) state) := by
  refine @Yields.foldlM_taken _ _ _ _ _ (fun taken next =>
    Entering nodeCount m searchEf onStack (entries.map Prod.snd) next ∧
      ∀ nodeId, nodeId ∈ next.received ↔ nodeId ∈ taken.map Prod.snd ∧ nodeId < nodeCount)
    entries [] state ⟨entering, fun nodeId => ?_⟩ ?_
  · rw [empty, List.map_nil]
    exact ⟨fun member => absurd member List.not_mem_nil,
      fun both => absurd both.1 List.not_mem_nil⟩
  · rintro taken next item member ⟨entering', known⟩
    refine (entering'.enterEntry (List.mem_map_of_mem member)).imp (fun _ => id) ?_
    rintro after ⟨entering'', more⟩
    refine ⟨entering'', fun nodeId => ?_⟩
    rw [more, known, List.map_append, List.mem_append, List.map_singleton, List.mem_singleton,
      or_and_right]

end Entering

/-! ### The whole search -/

theorem initialFrontierCapacity_le (nodeCount searchEf entryCount maxNeighbors : Nat) :
    initialFrontierCapacity nodeCount searchEf entryCount maxNeighbors ≤ nodeCount ∧
      min nodeCount entryCount ≤
        initialFrontierCapacity nodeCount searchEf entryCount maxNeighbors := by
  unfold initialFrontierCapacity
  dsimp only
  split_ifs <;> omega

/-- The capacity of the array on the stack, if the search starts there. -/
def stackCapacity (stackScratch : Bool) (nodeCount m searchEf entryCount : Nat) : Option Nat :=
  if stackScratch = true ∧ nodeCount ≤ stackFrontierCapacity then
    some (initialFrontierCapacity nodeCount searchEf entryCount (levelM m 0))
  else none

theorem startState_entering (stackScratch : Bool) (nodeCount m searchEf : Nat)
    (entryIds : List Nat) (entryCount : Nat) :
    Entering nodeCount m searchEf (stackCapacity stackScratch nodeCount m searchEf entryCount)
      entryIds (startState stackScratch nodeCount m searchEf entryCount : ScanState D) := by
  have limit := (initialFrontierCapacity_le nodeCount searchEf entryCount (levelM m 0)).1
  refine ⟨⟨List.nodup_nil, ?_, ?_, rfl, ⟨Nat.zero_le _, ?_, limit⟩, fun stack => ?_,
    Nat.zero_le _, fun later => absurd later (lt_irrefl 0), fun _ => rfl⟩, rfl, rfl, ?_⟩
  · exact fun _ member => absurd member List.not_mem_nil
  · exact fun _ member => absurd member List.not_mem_nil
  · unfold startState
    dsimp only
    split_ifs with small
    · exact limit.trans small.2
    · exact le_rfl
  · unfold startState at stack ⊢
    dsimp only at stack ⊢
    split_ifs at stack with small
    exact if_pos small
  · exact fun _ member => absurd member List.not_mem_nil

/-- The most nodes the frontier can hold when another one is pushed, and that one: every expansion
takes one away and brings as many as a list has. -/
def frontierPeak (nodeCount m entryCount : Nat) : Nat :=
  nodeCount - (nodeCount - entryCount + levelM m 0 - 1) / levelM m 0

/-- The array lies on the stack, and its first capacity is less than the frontier can need. -/
def CanOverflow (stackScratch : Bool) (nodeCount m searchEf : Nat) (entryIds : List Nat) : Prop :=
  stackScratch = true ∧ nodeCount ≤ stackFrontierCapacity ∧ 0 < searchEf ∧
    0 < entered nodeCount entryIds ∧ 0 < levelM m 0 ∧ levelM m 0 ≤ maxNeighborBatch ∧
    initialFrontierCapacity nodeCount searchEf entryIds.length (levelM m 0) <
      frontierPeak nodeCount m (entered nodeCount entryIds)

instance (stackScratch : Bool) (nodeCount m searchEf : Nat) (entryIds : List Nat) :
    Decidable (CanOverflow stackScratch nodeCount m searchEf entryIds) := by
  unfold CanOverflow
  infer_instance

theorem entered_le (nodeCount : Nat) (entryIds : List Nat) :
    entered nodeCount entryIds ≤ min nodeCount entryIds.length := by
  refine Nat.le_min.mpr ⟨?_, ?_⟩
  · have inside : entryIds.toFinset.filter (· < nodeCount) ⊆ Finset.range nodeCount :=
      fun nodeId member => Finset.mem_range.mpr (Finset.mem_filter.mp member).2
    exact (Finset.card_le_card inside).trans_eq (Finset.card_range nodeCount)
  · exact (Finset.card_filter_le _ _).trans (List.toFinset_card_le entryIds)

theorem Overfull.canOverflow {stackScratch : Bool} {searchEf : Nat} {entryIds : List Nat}
    {state : ScanState D}
    (overfull : Overfull nodeCount m searchEf (entered nodeCount entryIds)
      (stackCapacity stackScratch nodeCount m searchEf entryIds.length) state)
    (sound : Sound nodeCount m searchEf (entered nodeCount entryIds)
      (stackCapacity stackScratch nodeCount m searchEf entryIds.length) state)
    (few : levelM m 0 ≤ maxNeighborBatch) :
    CanOverflow stackScratch nodeCount m searchEf entryIds := by
  have stack := overfull.stack
  unfold stackCapacity at stack
  split_ifs at stack with small
  have capacity := Option.some.inj stack
  have full := overfull.full
  have counted := sound.counted
  have room := overfull.room
  have budget := overfull.budget
  have entries := (entered_le nodeCount entryIds).trans
    (initialFrontierCapacity_le nodeCount searchEf entryIds.length (levelM m 0)).2
  rw [← capacity] at full
  have begun : entered nodeCount entryIds ≤ state.received.length := by omega
  have width : 0 < levelM m 0 := by
    refine Nat.pos_of_ne_zero fun none_ => ?_
    rw [none_, Nat.zero_mul] at budget
    omega
  have pops : 0 < state.frontierPops := by
    refine Nat.pos_of_ne_zero fun none_ => ?_
    rw [none_, Nat.mul_zero] at budget
    omega
  have rest : nodeCount - (state.received.length + 1) ≤
      levelM m 0 * (nodeCount - (state.received.length + 1)) := Nat.le_mul_of_pos_left _ width
  have expansions : (nodeCount - entered nodeCount entryIds + levelM m 0 - 1) / levelM m 0 <
      state.frontierPops + (nodeCount - (state.received.length + 1)) + 1 := by
    refine Nat.div_lt_of_lt_mul ?_
    rw [Nat.mul_add, Nat.mul_add, Nat.mul_one]
    omega
  refine ⟨small.1, small.2, overfull.accepts begun, sound.started pops, width, few, ?_⟩
  unfold frontierPeak
  omega

/-- **Every search** ends early for the size of an allocation or of its lists before anything is
received, or keeps its invariant, and then a full array on the stack is its only other failure. -/
theorem searchBaseLayer_ends (graph : ScanGraph D nodeCount m) (stackScratch : Bool)
    (entries : List (D × Nat)) (searchEf steps : Nat) :
    Yields (fun failure =>
        (failure.1 = .tooLarge ∨ failure.1 = .neighborBatch) ∧ failure.2.received = [] ∨
        levelM m 0 ≤ maxNeighborBatch ∧
          Failed nodeCount m searchEf (entered nodeCount (entries.map Prod.snd))
            (stackCapacity stackScratch nodeCount m searchEf entries.length) failure)
      (Sound nodeCount m searchEf (entered nodeCount (entries.map Prod.snd))
        (stackCapacity stackScratch nodeCount m searchEf entries.length))
      (searchBaseLayer graph stackScratch entries searchEf steps) := by
  have started : Entering nodeCount m searchEf
      (stackCapacity stackScratch nodeCount m searchEf entries.length) (entries.map Prod.snd)
      (startState stackScratch nodeCount m searchEf entries.length : ScanState D) :=
    startState_entering stackScratch nodeCount m searchEf _ _
  unfold searchBaseLayer
  dsimp only
  split_ifs with frontier nearest lists nodes
  · exact Or.inl ⟨Or.inl rfl, rfl⟩
  · exact Or.inl ⟨Or.inl rfl, rfl⟩
  · exact Or.inl ⟨Or.inr rfl, rfl⟩
  · exact Or.inl ⟨Or.inl rfl, rfl⟩
  · have few := Nat.not_lt.mp lists
    refine Yields.bind ((Entering.received started rfl).imp
      (fun _ failed => Or.inr ⟨few, failed⟩) fun _ => id) ?_
    rintro state ⟨entering, -⟩
    exact (entering.sound.searchLoop graph steps).imp (fun _ failed => Or.inr ⟨few, failed⟩)
      fun _ => id

/-! ### The claims about the frontier -/

def finalState (run : Run D (ScanState D)) : ScanState D :=
  match run with
  | .ok state => state
  | .error failure => failure.2

def fault (run : Run D (ScanState D)) : Option Fault :=
  match run with
  | .ok _ => none
  | .error failure => some failure.1

/-- The frontier received each node at most once, was full of nodes at no time, and nothing was
written past its array. -/
structure FrontierSound (nodeCount : Nat) (run : Run D (ScanState D)) : Prop where
  once : (finalState run).received.Nodup
  within : ∀ nodeId ∈ (finalState run).received, nodeId < nodeCount
  few : (finalState run).received.length ≤ nodeCount
  inside : fault run ≠ some .outOfBounds
  enough : fault run ≠ some .capacityExceeded

theorem few_of_nodup {received : List Nat} (nodup : received.Nodup)
    (within : ∀ nodeId ∈ received, nodeId < nodeCount) : received.length ≤ nodeCount := by
  have inRange : received ⊆ List.range nodeCount := fun nodeId member =>
    List.mem_range.mpr (within nodeId member)
  have few := (nodup.subperm inRange).length_le
  rwa [List.length_range] at few

/-- A search ends early only for the size of an allocation, of its lists, or on a full array on the
stack. -/
theorem searchBaseLayer_fault (graph : ScanGraph D nodeCount m) (stackScratch : Bool)
    (entries : List (D × Nat)) (searchEf steps : Nat) :
    fault (searchBaseLayer graph stackScratch entries searchEf steps) ∈
      [none, some .tooLarge, some .neighborBatch, some .stackRealloc] := by
  have ends := searchBaseLayer_ends graph stackScratch entries searchEf steps
  generalize searchBaseLayer graph stackScratch entries searchEf steps = run at ends ⊢
  cases run with
  | ok state => exact List.mem_cons_self
  | error failure =>
    unfold fault
    dsimp only
    rcases ends with ⟨large | batch, -⟩ | ⟨-, -, large | ⟨stack, -⟩⟩
    · rw [large]
      decide
    · rw [batch]
      decide
    · rw [large]
      decide
    · rw [stack]
      decide

/-- **What holds of every search.** -/
theorem searchBaseLayer_sound (graph : ScanGraph D nodeCount m) (stackScratch : Bool)
    (entries : List (D × Nat)) (searchEf steps : Nat) :
    FrontierSound nodeCount (searchBaseLayer graph stackScratch entries searchEf steps) := by
  have ends := searchBaseLayer_ends graph stackScratch entries searchEf steps
  have faults := searchBaseLayer_fault graph stackScratch entries searchEf steps
  generalize searchBaseLayer graph stackScratch entries searchEf steps = run at ends faults ⊢
  have received : (finalState run).received.Nodup ∧
      ∀ nodeId ∈ (finalState run).received, nodeId < nodeCount := by
    cases run with
    | ok state => exact ⟨ends.nodup, ends.within⟩
    | error failure =>
      unfold finalState
      dsimp only
      rcases ends with ⟨-, empty⟩ | ⟨-, sound, -⟩
      · rw [empty]
        exact ⟨List.nodup_nil, fun _ member => absurd member List.not_mem_nil⟩
      · exact ⟨sound.nodup, sound.within⟩
  refine ⟨received.1, received.2, few_of_nodup received.1 received.2, fun outside => ?_,
    fun exceeded => ?_⟩
  · rw [outside] at faults
    revert faults
    decide
  · rw [exceeded] at faults
    revert faults
    decide

/-- **Where the first capacity is enough**, no array on the stack is reallocated. -/
theorem searchBaseLayer_heapOnly (graph : ScanGraph D nodeCount m) {stackScratch : Bool}
    {entries : List (D × Nat)} {searchEf : Nat}
    (enough : ¬CanOverflow stackScratch nodeCount m searchEf (entries.map Prod.snd))
    (steps : Nat) :
    fault (searchBaseLayer graph stackScratch entries searchEf steps) ≠ some .stackRealloc := by
  have ends := searchBaseLayer_ends graph stackScratch entries searchEf steps
  generalize searchBaseLayer graph stackScratch entries searchEf steps = run at ends ⊢
  cases run with
  | ok state => exact (Option.some_ne_none _).symm
  | error failure =>
    intro stack
    have stack : failure.1 = .stackRealloc := Option.some.inj stack
    rcases ends with ⟨early, -⟩ | ⟨few, sound, late⟩
    · rw [stack] at early
      exact early.elim Fault.noConfusion Fault.noConfusion
    · rcases late with large | ⟨-, overfull⟩
      · rw [stack] at large
        exact Fault.noConfusion large
      · rw [← List.length_map (f := Prod.snd)] at overfull sound
        exact enough (overfull.canOverflow sound few)

end TurboHybrid.Graph.ScanSearch
