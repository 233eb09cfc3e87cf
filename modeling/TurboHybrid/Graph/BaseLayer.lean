/-
**Searches of the lowest level, one after another.**

A search marks the nodes it visits. A cached graph keeps the marks over its searches, as stamps of
the search that made them, and adds a cell for each new node; without a cache a search clears an
array of its own.

* `runStamped_eq`: over any run of searches and new nodes both visit the same nodes and return the
  same results;
* `baseSearch_spec`: what a search returns;
* `searchState_done`: a search ends after as many iterations as there are nodes;
* `runStamped_spec`: every search of every run does so;
* `baseSearch_crowded`: a visited node with the payload that is not returned.
-/
import TurboHybrid.Graph.Results
import TurboHybrid.Graph.DocumentCandidates
import TurboHybrid.Library.Stamps

set_option linter.unusedSectionVars false

namespace TurboHybrid.Graph.Dense

open Library

variable {Tid D V : Type} [LinearOrder D]

/-! ### A search -/

/-- What a search is given: an exact distance is there for the vectors that are cached, and the loop
makes so many iterations. -/
structure BaseQuery (Tid D : Type) where
  graph : ScanGraph Tid D
  filter : PayloadFilter
  cachedExactDistance : Nat → Option D
  entries : List (D × Nat)
  resultTarget : Nat
  searchEf : Nat
  steps : Nat

structure Marks (V : Type) where
  visited : V → Nat → Bool
  mark : V → Nat → V

/-- The state, with the visited nodes in the order in which they were offered. -/
structure LayerState (V D : Type) where
  marks : V
  order : List (D × Nat)
  frontier : Array (D × Nat)
  nearest : Array (D × Nat)

variable (marks : Marks V) (query : BaseQuery Tid D)

def enterBase (state : LayerState V D) (entry : D × Nat) : LayerState V D :=
  if query.graph.tqNodeCount ≤ entry.2 then state
  else if marks.visited state.marks entry.2 then state
  else
    { marks := marks.mark state.marks entry.2
      order := state.order ++ [entry]
      frontier := BinaryHeap.push frontierLess state.frontier entry
      nearest := (offerNearest query.searchEf state.nearest entry).1 }

def takeNeighbor (state : V × List Nat) (neighbor : Nat) : V × List Nat :=
  if query.graph.tqNodeCount ≤ neighbor then state
  else if marks.visited state.1 neighbor then state
  else if query.graph.loadCodePage neighbor = false then state
  else (marks.mark state.1 neighbor, state.2 ++ [neighbor])

/-- A scored neighbour enters the frontier where the nearest nodes take it. -/
def offerBase (state : LayerState V D) (item : D × Nat) : LayerState V D :=
  let offered := offerNearest query.searchEf state.nearest item
  { state with
    order := state.order ++ [item]
    nearest := offered.1
    frontier :=
      if offered.2 then BinaryHeap.push frontierLess state.frontier item else state.frontier }

def expandBase (state : LayerState V D) (nodeId : Nat) : LayerState V D :=
  let batch := (query.graph.neighbors nodeId).foldl (takeNeighbor marks query) (state.marks, [])
  (batch.2.map fun neighbor => (query.graph.scoreNode neighbor, neighbor)).foldl (offerBase query)
    { state with marks := batch.1 }

/-- So many iterations of the loop over the frontier. -/
def baseLoop : Nat → LayerState V D → LayerState V D
  | 0, state => state
  | steps + 1, state =>
    match state.frontier[0]? with
    | none => state
    | some item =>
      let popped := { state with frontier := BinaryHeap.pop frontierLess state.frontier }
      if query.graph.loadCodePage item.2 = false then baseLoop steps popped
      else if query.searchEf ≤ popped.nearest.size ∧
          popped.nearest[0]?.any (fun worst => frontierGreater item worst) = true then popped
      else if query.graph.loadAdjPage item.2 = false then baseLoop steps popped
      else baseLoop steps (expandBase marks query popped item.2)

def searchState (cleared : V) : LayerState V D :=
  baseLoop marks query query.steps
    (query.entries.foldl (enterBase marks query) ⟨cleared, [], #[], #[]⟩)

def admits (item : D × Nat) : Bool :=
  decide (item.2 < query.graph.tqNodeCount) && query.graph.eligible query.filter item.2

/-- The result of a node, by `PgturbohybridGraphResultDistance`. -/
def resultOf (item : D × Nat) : GraphResult Tid D :=
  match query.cachedExactDistance item.2 with
  | some exactDistance => ⟨item.2, query.graph.heaptid item.2, exactDistance, true⟩
  | none => ⟨item.2, query.graph.heaptid item.2, item.1, false⟩

/-- What a search leaves: the visited nodes with the distances they were offered at, in order, and
the results. -/
structure BaseOutcome (Tid D : Type) where
  order : List (D × Nat)
  results : Array (GraphResult Tid D)

/-- **`PgturbohybridGraphSearchBaseLayer`** on marks that are cleared; the marks it leaves. -/
def searchBase (cleared : V) : BaseOutcome Tid D × V :=
  let state := searchState marks query cleared
  (⟨state.order, ((state.nearest.toList.filter (admits query)).map (resultOf query)).foldl
    (offerCandidate query.resultTarget) #[]⟩, state.marks)

/-! ### Runs of searches -/

def flags : Marks (List Bool) := ⟨fun visited nodeId => visited.getD nodeId false,
  fun visited nodeId => visited.set nodeId true⟩

def stamps : Marks (Stamps 32) := ⟨Stamps.marked, Stamps.mark⟩

/-- What happens to a cached graph. A search finds the node count of the cache. -/
inductive CacheStep (Tid D : Type) where
  | search (query : BaseQuery Tid D)
  | append

def BaseQuery.at (query : BaseQuery Tid D) (tqNodeCount : Nat) : BaseQuery Tid D :=
  { query with graph := { query.graph with tqNodeCount := tqNodeCount } }

/-- The searches of a run with their outcomes, on stamps. -/
def runStamped : List (CacheStep Tid D) → Stamps 32 →
    List (BaseQuery Tid D × BaseOutcome Tid D)
  | [], _ => []
  | .append :: rest, visits => runStamped rest visits.grow
  | .search query :: rest, visits =>
    let query := query.at visits.cells.length
    let searched := searchBase stamps query visits.nextRound
    (query, searched.1) :: runStamped rest searched.2

/-- The same run with a cleared array for each search. -/
def runCleared : List (CacheStep Tid D) → Nat → List (BaseQuery Tid D × BaseOutcome Tid D)
  | [], _ => []
  | .append :: rest, nodeCount => runCleared rest (nodeCount + 1)
  | .search query :: rest, nodeCount =>
    let query := query.at nodeCount
    (query, (searchBase flags query (List.replicate nodeCount false)).1) ::
      runCleared rest nodeCount

/-! ### Two sets of marks that agree -/

section Agree

variable {W : Type} {one : Marks V} {other : Marks W} {query : BaseQuery Tid D}
  {R : V → W → Prop}

/-- **Marks that agree** on the nodes of a graph, and still do after a mark. -/
structure Agree (one : Marks V) (other : Marks W) (count : Nat) (R : V → W → Prop) : Prop where
  visited : ∀ {v w}, R v w → ∀ nodeId < count, one.visited v nodeId = other.visited w nodeId
  mark : ∀ {v w}, R v w → ∀ nodeId < count, R (one.mark v nodeId) (other.mark w nodeId)

/-- States that differ in the marks only, which agree. -/
structure Alike (R : V → W → Prop) (state : LayerState V D) (state' : LayerState W D) : Prop where
  marks : R state.marks state'.marks
  order : state.order = state'.order
  frontier : state.frontier = state'.frontier
  nearest : state.nearest = state'.nearest

variable (agree : Agree one other query.graph.tqNodeCount R)

include agree

theorem Alike.enter {state : LayerState V D} {state' : LayerState W D}
    (alike : Alike R state state') (entry : D × Nat) :
    Alike R (enterBase one query state entry) (enterBase other query state' entry) := by
  unfold enterBase
  by_cases outside : query.graph.tqNodeCount ≤ entry.2
  · rw [if_pos outside, if_pos outside]
    exact alike
  · have inside := Nat.not_le.mp outside
    rw [if_neg outside, if_neg outside, agree.visited alike.marks entry.2 inside]
    split_ifs
    · exact alike
    · refine ⟨agree.mark alike.marks entry.2 inside, ?_, ?_, ?_⟩
      · rw [alike.order]
      · rw [alike.frontier]
      · rw [alike.nearest]

theorem takeNeighbor_alike {state : V × List Nat} {state' : W × List Nat}
    (related : R state.1 state'.1) (same : state.2 = state'.2) (neighbor : Nat) :
    R (takeNeighbor one query state neighbor).1 (takeNeighbor other query state' neighbor).1 ∧
      (takeNeighbor one query state neighbor).2 =
        (takeNeighbor other query state' neighbor).2 := by
  unfold takeNeighbor
  by_cases outside : query.graph.tqNodeCount ≤ neighbor
  · rw [if_pos outside, if_pos outside]
    exact ⟨related, same⟩
  · have inside := Nat.not_le.mp outside
    rw [if_neg outside, if_neg outside, agree.visited related neighbor inside]
    split_ifs
    · exact ⟨related, same⟩
    · exact ⟨related, same⟩
    · exact ⟨agree.mark related neighbor inside, congrArg (· ++ [neighbor]) same⟩

theorem takeNeighbors_alike {state : V × List Nat} {state' : W × List Nat}
    (related : R state.1 state'.1) (same : state.2 = state'.2) (neighbors : List Nat) :
    R (neighbors.foldl (takeNeighbor one query) state).1
        (neighbors.foldl (takeNeighbor other query) state').1 ∧
      (neighbors.foldl (takeNeighbor one query) state).2 =
        (neighbors.foldl (takeNeighbor other query) state').2 := by
  induction neighbors generalizing state state' with
  | nil => exact ⟨related, same⟩
  | cons neighbor rest ih =>
    obtain ⟨related', same'⟩ := takeNeighbor_alike agree related same neighbor
    exact ih related' same'

omit agree in
theorem Alike.offers {state : LayerState V D} {state' : LayerState W D}
    (alike : Alike R state state') (items : List (D × Nat)) :
    Alike R (items.foldl (offerBase query) state) (items.foldl (offerBase query) state') := by
  induction items generalizing state state' with
  | nil => exact alike
  | cons item rest ih =>
    refine ih ⟨alike.marks, ?_, ?_, ?_⟩
    · exact congrArg (· ++ [item]) alike.order
    · unfold offerBase
      rw [alike.frontier, alike.nearest]
    · unfold offerBase
      rw [alike.nearest]

theorem Alike.expand {state : LayerState V D} {state' : LayerState W D}
    (alike : Alike R state state') (nodeId : Nat) :
    Alike R (expandBase one query state nodeId) (expandBase other query state' nodeId) := by
  obtain ⟨related, same⟩ := takeNeighbors_alike agree
    (show R (state.marks, ([] : List Nat)).1 (state'.marks, ([] : List Nat)).1 from alike.marks) rfl
    (query.graph.neighbors nodeId)
  unfold expandBase
  dsimp only
  rw [same]
  refine Alike.offers ?_ _
  exact ⟨related, alike.order, alike.frontier, alike.nearest⟩

theorem Alike.loop {state : LayerState V D} {state' : LayerState W D}
    (alike : Alike R state state') (steps : Nat) :
    Alike R (baseLoop one query steps state) (baseLoop other query steps state') := by
  induction steps generalizing state state' with
  | zero => exact alike
  | succ steps ih =>
    unfold baseLoop
    rw [alike.frontier]
    cases state'.frontier[0]? with
    | none => exact alike
    | some item =>
      have popped : Alike R
          { state with
            frontier := BinaryHeap.pop frontierLess state'.frontier
            nearest := state'.nearest }
          { state' with frontier := BinaryHeap.pop frontierLess state'.frontier } :=
        ⟨alike.marks, alike.order, rfl, rfl⟩
      dsimp only
      rw [alike.nearest]
      split_ifs
      · exact ih popped
      · exact popped
      · exact ih popped
      · exact ih (popped.expand agree item.2)

/-- **A search** does the same with marks that agree. -/
theorem searchBase_alike {cleared : V} {cleared' : W} (related : R cleared cleared') :
    (searchBase one query cleared).1 = (searchBase other query cleared').1 ∧
      R (searchBase one query cleared).2 (searchBase other query cleared').2 := by
  have started : Alike R (⟨cleared, [], #[], #[]⟩ : LayerState V D) ⟨cleared', [], #[], #[]⟩ :=
    ⟨related, rfl, rfl, rfl⟩
  have entered (entries : List (D × Nat)) {state : LayerState V D} {state' : LayerState W D}
      (alike : Alike R state state') :
      Alike R (entries.foldl (enterBase one query) state)
        (entries.foldl (enterBase other query) state') := by
    induction entries generalizing state state' with
    | nil => exact alike
    | cons entry rest ih => exact ih (alike.enter agree entry)
  have found := (entered query.entries started).loop agree query.steps
  refine ⟨?_, found.marks⟩
  unfold searchBase searchState
  dsimp only
  rw [found.order, found.nearest]

end Agree

/-! ### Stamps and flags -/

/-- Stamps of no later round with as many cells as there are flags, and the same marks. -/
structure SameMarks (count : Nat) (visits : Stamps 32) (visited : List Bool) : Prop where
  clean : visits.Clean
  cells : visits.cells.length = count
  length : visited.length = count
  marks : ∀ nodeId < count, visits.marked nodeId = visited.getD nodeId false

theorem getD_set_flag {visited : List Bool} {nodeId : Nat} (inside : nodeId < visited.length)
    (other : Nat) : (visited.set nodeId true).getD other false =
      (decide (other = nodeId) || visited.getD other false) := by
  by_cases same : other = nodeId
  · subst same
    simp [List.getD_eq_getElem?_getD, inside]
  · simp [List.getD_eq_getElem?_getD, List.getElem?_set_ne (Ne.symm same), same]

theorem stamps_agree (count : Nat) : Agree stamps flags count (SameMarks count) := by
  refine ⟨fun same nodeId inside => same.marks nodeId inside, fun same nodeId inside => ?_⟩
  refine ⟨same.clean.mark nodeId, ?_, ?_, fun other within => ?_⟩
  · exact (Stamps.length_mark _ _).trans same.cells
  · exact List.length_set.trans same.length
  · refine (Stamps.marked_mark (same.cells.symm ▸ inside) other).trans ?_
    rw [same.marks other within]
    exact (getD_set_flag (same.length.symm ▸ inside) other).symm

theorem nextRound_sameMarks {visits : Stamps 32} (clean : visits.Clean) :
    SameMarks visits.cells.length visits.nextRound
      (List.replicate visits.cells.length false) := by
  obtain ⟨later, cleared⟩ := clean.nextRound (by decide)
  refine ⟨later, Stamps.length_nextRound visits, List.length_replicate, fun nodeId inside => ?_⟩
  rw [cleared, List.getD_eq_getElem?_getD, List.getElem?_replicate, if_pos inside]
  rfl

/-- **Stamps serve as cleared arrays** over every run. -/
theorem runStamped_eq (steps : List (CacheStep Tid D)) {visits : Stamps 32} (clean : visits.Clean) :
    runStamped steps visits = runCleared steps visits.cells.length := by
  induction steps generalizing visits with
  | nil => rfl
  | cons step rest ih =>
    cases step with
    | append =>
      have longer : visits.grow.cells.length = visits.cells.length + 1 := List.length_append
      rw [runStamped, runCleared, ih clean.grow, longer]
    | search query =>
      have agree : Agree stamps flags (query.at visits.cells.length).graph.tqNodeCount
          (SameMarks visits.cells.length) := stamps_agree visits.cells.length
      obtain ⟨same, marks⟩ := searchBase_alike agree (nextRound_sameMarks clean)
      rw [runStamped, runCleared, same, ih marks.clean, marks.cells]

/-! ### What a search returns -/

section Spec

variable {query : BaseQuery Tid D}

def nearestOf (searchEf : Nat) (order : List (D × Nat)) : List (D × Nat) :=
  (TopK.best searchEf (order.map toLex)).map ofLex

theorem frontierGreater_compares :
    BinaryHeap.Compares (OrderDual.toDual ∘ (toLex : D × Nat → D ×ₗ Nat)) frontierGreater := by
  intro item worst
  exact frontierLess_iff

theorem offerNearest_perm (searchEf : Nat) (order : List (D × Nat)) :
    (order.foldl (BoundedHeap.offer frontierGreater searchEf) #[]).toList.Perm
      (nearestOf searchEf order) := by
  rcases Nat.eq_zero_or_pos searchEf with rfl | positive
  · have none_ : order.foldl (BoundedHeap.offer frontierGreater 0) #[] =
        (#[] : Array (D × Nat)) := by
      refine List.foldlRecOn _ _ (motive := fun heap : Array (D × Nat) => heap = #[]) rfl ?_
      rintro heap rfl item -
      rfl
    rw [none_]
    exact List.Perm.refl _
  · have keeps := BoundedHeap.offerAll_keepsBy frontierGreater_compares positive
      (BoundedHeap.keepsBy_empty toLex searchEf) order
    have perm := (keeps.selects.perm_best).map ofLex
    rw [List.map_map, List.nil_append] at perm
    exact (List.map_id (order.foldl (BoundedHeap.offer frontierGreater searchEf) #[]).toList) ▸ perm

/-- **What the visited nodes are** while the search goes on. -/
structure Explores (query : BaseQuery Tid D) (state : LayerState (List Bool) D) : Prop where
  length : state.marks.length = query.graph.tqNodeCount
  visited : ∀ item ∈ state.order, item.2 < query.graph.tqNodeCount ∧
    state.marks.getD item.2 false = true
  nodup : Distinct state.order
  nearest : state.nearest =
    state.order.foldl (BoundedHeap.offer frontierGreater query.searchEf) #[]

theorem Explores.offered {state : LayerState (List Bool) D} (explores : Explores query state)
    {visited : List Bool} (length : visited.length = state.marks.length)
    (keeps : ∀ nodeId, state.marks.getD nodeId false = true → visited.getD nodeId false = true)
    {items : List (D × Nat)} (distinct : Distinct items)
    (marked : ∀ item ∈ items, item.2 < query.graph.tqNodeCount ∧
      visited.getD item.2 false = true)
    (fresh : ∀ item ∈ items, state.marks.getD item.2 false = false) (frontier : Array (D × Nat)) :
    Explores query ⟨visited, state.order ++ items, frontier,
      items.foldl (BoundedHeap.offer frontierGreater query.searchEf) state.nearest⟩ := by
  refine ⟨length.trans explores.length, fun item member => ?_, ?_, ?_⟩
  · rcases List.mem_append.mp member with old | new
    · exact (explores.visited item old).imp id (keeps item.2)
    · exact marked item new
  · rw [Distinct, List.map_append]
    refine explores.nodup.append distinct fun nodeId old new => ?_
    obtain ⟨item, member, rfl⟩ := List.mem_map.mp old
    obtain ⟨other, member', same⟩ := List.mem_map.mp new
    have unmarked := fresh other member'
    rw [same, (explores.visited item member).2] at unmarked
    cases unmarked
  · dsimp only
    rw [List.foldl_append, ← explores.nearest]

theorem Explores.enter {state : LayerState (List Bool) D} (explores : Explores query state)
    (entry : D × Nat) : Explores query (enterBase flags query state entry) := by
  unfold enterBase
  split_ifs with outside seen
  · exact explores
  · exact explores
  · have inside := Nat.not_le.mp outside
    have set_ := @getD_set_flag state.marks entry.2 (explores.length.symm ▸ inside)
    have single : Distinct [entry] := List.nodup_singleton _
    refine explores.offered List.length_set (fun nodeId known => ?_) single
      (fun item member => ?_) (fun item member => ?_) _
    · exact (set_ nodeId).trans (by rw [known, Bool.or_true])
    · obtain rfl := List.mem_singleton.mp member
      exact ⟨inside, (set_ item.2).trans (by rw [decide_eq_true rfl, Bool.true_or])⟩
    · obtain rfl := List.mem_singleton.mp member
      exact Bool.not_eq_true _ ▸ seen

/-- The neighbours of a node that are taken: nodes that were not visited, each once. -/
structure Taken (query : BaseQuery Tid D) (visited : List Bool) (state : List Bool × List Nat) :
    Prop where
  length : state.1.length = visited.length
  keeps : ∀ nodeId, visited.getD nodeId false = true → state.1.getD nodeId false = true
  marked : ∀ nodeId ∈ state.2, nodeId < query.graph.tqNodeCount ∧
    state.1.getD nodeId false = true
  fresh : ∀ nodeId ∈ state.2, visited.getD nodeId false = false
  nodup : state.2.Nodup

theorem takeNeighbors_taken {visited : List Bool}
    (length : visited.length = query.graph.tqNodeCount) (neighbors : List Nat) :
    Taken query visited (neighbors.foldl (takeNeighbor flags query) (visited, [])) := by
  refine List.foldlRecOn _ _ (motive := Taken query visited) ⟨rfl, fun _ => id,
    fun _ member => absurd member List.not_mem_nil, fun _ member => absurd member List.not_mem_nil,
    List.nodup_nil⟩ ?_
  intro state taken neighbor _
  unfold takeNeighbor
  split_ifs with outside seen missing
  · exact taken
  · exact taken
  · exact taken
  · have inside := Nat.not_le.mp outside
    have new : state.1.getD neighbor false = false := Bool.not_eq_true _ ▸ seen
    have within : neighbor < state.1.length := by
      rw [taken.length, length]
      exact inside
    have set_ := getD_set_flag within
    refine ⟨List.length_set.trans taken.length, fun nodeId known => ?_, fun nodeId member => ?_,
      fun nodeId member => ?_, ?_⟩
    · exact (set_ nodeId).trans (by rw [taken.keeps nodeId known, Bool.or_true])
    · rcases List.mem_append.mp member with old | last
      · refine (taken.marked nodeId old).imp id fun marked => ?_
        exact (set_ nodeId).trans (by rw [marked, Bool.or_true])
      · obtain rfl := List.mem_singleton.mp last
        exact ⟨inside, (set_ nodeId).trans (by rw [decide_eq_true rfl, Bool.true_or])⟩
    · rcases List.mem_append.mp member with old | last
      · exact taken.fresh nodeId old
      · obtain rfl := List.mem_singleton.mp last
        rw [← Bool.not_eq_true]
        intro known
        rw [taken.keeps nodeId known] at new
        cases new
    · refine taken.nodup.append (List.nodup_singleton _) fun nodeId old last => ?_
      obtain rfl := List.mem_singleton.mp last
      rw [(taken.marked nodeId old).2] at new
      cases new

theorem offersBase_eq (items : List (D × Nat)) (state : LayerState V D) :
    (items.foldl (offerBase query) state).marks = state.marks ∧
    (items.foldl (offerBase query) state).order = state.order ++ items ∧
    (items.foldl (offerBase query) state).nearest =
      items.foldl (BoundedHeap.offer frontierGreater query.searchEf) state.nearest := by
  induction items generalizing state with
  | nil => exact ⟨rfl, (List.append_nil _).symm, rfl⟩
  | cons item rest ih =>
    obtain ⟨marks, order, nearest⟩ := ih (offerBase query state item)
    refine ⟨marks, order.trans ?_, nearest⟩
    exact List.append_assoc _ _ _

theorem Explores.expand {state : LayerState (List Bool) D} (explores : Explores query state)
    (nodeId : Nat) : Explores query (expandBase flags query state nodeId) := by
  have taken := takeNeighbors_taken explores.length (query.graph.neighbors nodeId)
  unfold expandBase
  dsimp only
  generalize (query.graph.neighbors nodeId).foldl (takeNeighbor flags query) (state.marks, []) =
    batch at taken
  have names : (batch.2.map fun neighbor => (query.graph.scoreNode neighbor, neighbor)).map
      Prod.snd = batch.2 := by
    rw [List.map_map]
    exact List.map_id batch.2
  generalize batch.2.map (fun neighbor => (query.graph.scoreNode neighbor, neighbor)) = items
    at names
  have member {item : D × Nat} (here : item ∈ items) : item.2 ∈ batch.2 :=
    names ▸ List.mem_map_of_mem here
  obtain ⟨marks, order, nearest⟩ := @offersBase_eq _ _ _ _ query items
    { state with marks := batch.1 }
  have after := explores.offered taken.length taken.keeps
    (show Distinct items by rw [Distinct, names]; exact taken.nodup)
    (fun item here => taken.marked item.2 (member here))
    (fun item here => taken.fresh item.2 (member here)) #[]
  refine ⟨?_, ?_, ?_, ?_⟩
  · rw [marks]
    exact after.length
  · rw [marks, order]
    exact after.visited
  · rw [order]
    exact after.nodup
  · rw [nearest, order]
    exact after.nearest

theorem Explores.loop {state : LayerState (List Bool) D} (explores : Explores query state)
    (steps : Nat) : Explores query (baseLoop flags query steps state) := by
  induction steps generalizing state with
  | zero => exact explores
  | succ steps ih =>
    unfold baseLoop
    cases state.frontier[0]? with
    | none => exact explores
    | some item =>
      have popped : Explores query
          { state with frontier := BinaryHeap.pop frontierLess state.frontier } :=
        ⟨explores.length, explores.visited, explores.nodup, explores.nearest⟩
      dsimp only
      split_ifs
      · exact ih popped
      · exact popped
      · exact ih popped
      · exact ih (popped.expand item.2)

/-- **What a search returns.** It visits different nodes of the graph, and returns different ones of
them that are live with the payload: the nearest, by their distances as results, of those that may
be returned among the `searchEf` nearest visited ones. -/
structure Returns (query : BaseQuery Tid D) (outcome : BaseOutcome Tid D) : Prop where
  visited : Distinct outcome.order
  inside : ∀ item ∈ outcome.order, item.2 < query.graph.tqNodeCount
  distinct : (nodeIds outcome.results.toList).Nodup
  eligible : ∀ result ∈ outcome.results.toList,
    query.graph.eligible query.filter result.nodeId = true
  nearest : keys (sortResults outcome.results.toList) = TopK.best query.resultTarget
    (keys (((nearestOf query.searchEf outcome.order).filter (admits query)).map (resultOf query)))
  heap : BinaryHeap.IsHeap (OrderDual.toDual ∘ GraphResult.key) outcome.results

theorem resultOf_nodeId (item : D × Nat) : (resultOf query item).nodeId = item.2 := by
  unfold resultOf
  cases query.cachedExactDistance item.2 <;> rfl

/-- **The results of a search**. -/
theorem baseSearch_spec (query : BaseQuery Tid D) :
    Returns query
      (searchBase flags query (List.replicate query.graph.tqNodeCount false)).1 := by
  have started : Explores query (⟨List.replicate query.graph.tqNodeCount false, [], #[], #[]⟩ :
      LayerState (List Bool) D) :=
    ⟨List.length_replicate, fun _ member => absurd member List.not_mem_nil, List.nodup_nil, rfl⟩
  have entered := List.foldlRecOn query.entries (enterBase flags query)
    (motive := Explores query) started fun state explores entry _ => explores.enter entry
  have found := entered.loop query.steps
  rw [searchBase]
  dsimp only
  rw [searchState]
  generalize baseLoop flags query query.steps _ = state at found
  have perm : state.nearest.toList.Perm (nearestOf query.searchEf state.order) :=
    found.nearest ▸ offerNearest_perm query.searchEf state.order
  have part : state.nearest.toList.Subperm state.order := by
    have inside := BoundedHeap.offerAll_subperm frontierGreater query.searchEf state.order #[]
    rw [← found.nearest] at inside
    simpa using inside
  have names : Distinct state.nearest.toList := found.nodup.subperm part
  have ids (items : List (D × Nat)) :
      nodeIds (items.map (resultOf query)) = items.map Prod.snd := by
    rw [nodeIds, List.map_map]
    exact List.map_congr_left fun item _ => resultOf_nodeId item
  have distinct : (nodeIds ((state.nearest.toList.filter (admits query)).map
      (resultOf query))).Nodup := by
    rw [ids]
    exact names.sublist (List.filter_sublist.map _)
  have same : (keys ((state.nearest.toList.filter (admits query)).map (resultOf query))).Perm
      (keys (((nearestOf query.searchEf state.order).filter (admits query)).map
        (resultOf query))) :=
    ((perm.filter _).map _).map _
  have allowed : ∀ result ∈ (state.nearest.toList.filter (admits query)).map (resultOf query),
      query.graph.eligible query.filter result.nodeId = true := by
    intro result member
    obtain ⟨item, here, rfl⟩ := List.mem_map.mp member
    have admitted := (List.mem_filter.mp here).2
    rw [admits, Bool.and_eq_true] at admitted
    rw [resultOf_nodeId]
    exact admitted.2
  generalize (state.nearest.toList.filter (admits query)).map (resultOf query) = offered
    at distinct same allowed
  have visited : ∀ item ∈ state.order, item.2 < query.graph.tqNodeCount :=
    fun item member => (found.visited item member).1
  rcases Nat.eq_zero_or_pos query.resultTarget with zero | positive
  · have none_ : offered.foldl (offerCandidate query.resultTarget) #[] =
        (#[] : Array (GraphResult Tid D)) := by
      refine List.foldlRecOn _ _ (motive := fun heap : Array (GraphResult Tid D) => heap = #[])
        rfl ?_
      rintro heap rfl item -
      exact if_pos zero
    rw [none_]
    refine ⟨found.nodup, visited, List.nodup_nil, fun _ member => absurd member List.not_mem_nil,
      ?_, (BoundedHeap.keepsBy_empty GraphResult.key 0).isHeap⟩
    rw [zero]
    rfl
  · have keeps := offerCandidate_keeps positive
      (BoundedHeap.keepsBy_empty GraphResult.key query.resultTarget) offered
    rw [List.nil_append] at keeps
    refine ⟨found.nodup, visited, ?_, fun result member => ?_, ?_, keeps.isHeap⟩
    · obtain ⟨kept, permuted, sublist⟩ := keeps.part
      exact (permuted.map GraphResult.nodeId).nodup_iff.mp (distinct.sublist (sublist.map _))
    · exact allowed result (keeps.part.subset member)
    · dsimp only
      rw [sortResults_keys, ← TopK.best_perm same]
      exact keeps.selects.sort_eq

/-! ### The search ends -/

def pending (state : LayerState (List Bool) D) : Nat :=
  state.frontier.size + state.marks.count false

theorem count_mark {visited : List Bool} {nodeId : Nat} (inside : nodeId < visited.length)
    (new : visited.getD nodeId false = false) :
    (visited.set nodeId true).count false + 1 = visited.count false := by
  rw [List.getD_eq_getElem?_getD, List.getElem?_eq_getElem inside, Option.getD_some] at new
  have some_ : 0 < visited.count false :=
    List.count_pos_iff.mpr (new ▸ List.getElem_mem inside)
  rw [List.count_set inside, new, if_pos (by rfl), if_neg (by decide)]
  omega

theorem size_pushed (heap : Array (D × Nat)) (item : D × Nat) :
    (BinaryHeap.push frontierLess heap item).size = heap.size + 1 := by
  have same := (BinaryHeap.push_perm frontierLess heap item).length_eq
  rwa [List.length_cons, Array.length_toList, Array.length_toList] at same

theorem size_popped {heap : Array (D × Nat)} {item : D × Nat} (root : heap[0]? = some item) :
    (BinaryHeap.pop frontierLess heap).size + 1 = heap.size := by
  rw [← Array.getElem?_toList] at root
  obtain ⟨first, rest, split⟩ :=
    List.exists_cons_of_length_pos (List.getElem?_eq_some_iff.mp root).1
  have same := (BinaryHeap.pop_perm frontierLess split).length_eq
  rw [← Array.length_toList, same, ← @Array.length_toList _ heap, split, List.length_cons]

theorem pending_enter {state : LayerState (List Bool) D}
    (length : state.marks.length = query.graph.tqNodeCount) (entry : D × Nat) :
    pending (enterBase flags query state entry) = pending state := by
  unfold enterBase
  split_ifs with outside seen
  · rfl
  · rfl
  · have count := count_mark (length.symm ▸ Nat.not_le.mp outside) (Bool.not_eq_true _ ▸ seen)
    rw [pending, size_pushed, pending]
    show _ + 1 + (state.marks.set entry.2 true).count false = _
    omega

theorem takeNeighbors_count {visited : List Bool}
    (length : visited.length = query.graph.tqNodeCount) (neighbors : List Nat) :
    (neighbors.foldl (takeNeighbor flags query) (visited, [])).1.length =
        query.graph.tqNodeCount ∧
      (neighbors.foldl (takeNeighbor flags query) (visited, [])).2.length +
        (neighbors.foldl (takeNeighbor flags query) (visited, [])).1.count false =
          visited.count false := by
  refine List.foldlRecOn _ _ (motive := fun state : List Bool × List Nat =>
    state.1.length = query.graph.tqNodeCount ∧
      state.2.length + state.1.count false = visited.count false) ⟨length, Nat.zero_add _⟩ ?_
  intro state before neighbor _
  unfold takeNeighbor
  split_ifs with outside seen missing
  · exact before
  · exact before
  · exact before
  · have count := count_mark (before.1.symm ▸ Nat.not_le.mp outside) (Bool.not_eq_true _ ▸ seen)
    refine ⟨List.length_set.trans before.1, ?_⟩
    show (state.2 ++ [neighbor]).length + (state.1.set neighbor true).count false = _
    rw [List.length_append, List.length_singleton]
    omega

theorem size_offersBase (items : List (D × Nat)) (state : LayerState (List Bool) D) :
    (items.foldl (offerBase query) state).frontier.size ≤
      state.frontier.size + items.length := by
  induction items generalizing state with
  | nil => exact le_rfl
  | cons item rest ih =>
    refine (ih (offerBase query state item)).trans ?_
    have step : (offerBase query state item).frontier.size ≤ state.frontier.size + 1 := by
      unfold offerBase
      dsimp only
      split_ifs
      · rw [size_pushed]
      · exact Nat.le_succ _
    rw [List.length_cons]
    omega

theorem pending_expand {state : LayerState (List Bool) D}
    (length : state.marks.length = query.graph.tqNodeCount) (nodeId : Nat) :
    (expandBase flags query state nodeId).marks.length = query.graph.tqNodeCount ∧
      pending (expandBase flags query state nodeId) ≤ pending state := by
  obtain ⟨length', count⟩ := takeNeighbors_count length (query.graph.neighbors nodeId)
  unfold expandBase
  dsimp only
  generalize (query.graph.neighbors nodeId).foldl (takeNeighbor flags query) (state.marks, []) =
    batch at length' count
  have marks := (@offersBase_eq _ _ _ _ query
    (batch.2.map fun neighbor => (query.graph.scoreNode neighbor, neighbor))
    { state with marks := batch.1 }).1
  have size := @size_offersBase _ _ _ query
    (batch.2.map fun neighbor => (query.graph.scoreNode neighbor, neighbor))
    { state with marks := batch.1 }
  rw [List.length_map] at size
  refine ⟨marks ▸ length', ?_⟩
  rw [pending, marks, pending]
  dsimp only at size ⊢
  omega

theorem baseLoop_done {steps : Nat} {state : LayerState (List Bool) D}
    (length : state.marks.length = query.graph.tqNodeCount) (enough : pending state ≤ steps)
    (extra : Nat) :
    baseLoop flags query (steps + extra) state = baseLoop flags query steps state := by
  induction steps generalizing state with
  | zero =>
    have empty : state.frontier[0]? = none := by
      refine Array.getElem?_eq_none ?_
      rw [pending] at enough
      omega
    cases extra with
    | zero => rfl
    | succ extra => simp only [baseLoop, empty]
  | succ steps ih =>
    have split : steps + 1 + extra = steps + extra + 1 := by omega
    rw [split, baseLoop, baseLoop]
    cases root : state.frontier[0]? with
    | none => rfl
    | some item =>
      have less := size_popped root
      have popped : pending { state with
          frontier := BinaryHeap.pop frontierLess state.frontier } ≤ steps := by
        rw [pending] at enough ⊢
        dsimp only
        omega
      have same : ({ state with frontier := BinaryHeap.pop frontierLess state.frontier } :
          LayerState (List Bool) D).marks.length = query.graph.tqNodeCount := length
      obtain ⟨length', expanded⟩ := pending_expand same item.2
      dsimp only
      rw [ih same popped, ih length' (expanded.trans popped)]

end Spec

/-! ### Runs -/

theorem runCleared_returns (steps : List (CacheStep Tid D)) (nodeCount : Nat) :
    ∀ searched ∈ runCleared steps nodeCount, Returns searched.1 searched.2 := by
  induction steps generalizing nodeCount with
  | nil => exact fun _ member => absurd member List.not_mem_nil
  | cons step rest ih =>
    cases step with
    | append => exact ih _
    | search query =>
      intro searched member
      rcases List.mem_cons.mp member with rfl | later
      · exact baseSearch_spec (query.at nodeCount)
      · exact ih _ searched later

/-- **Searches of a cached graph.** Over every run of searches and of new nodes from a new cache,
the searches visit the same nodes and return the same results as with a cleared array for each of
them, and each returns what it should. -/
theorem runStamped_spec (steps : List (CacheStep Tid D)) (nodeCount : Nat) :
    runStamped steps (Stamps.fresh 32 nodeCount) = runCleared steps nodeCount ∧
      ∀ searched ∈ runStamped steps (Stamps.fresh 32 nodeCount),
        Returns searched.1 searched.2 := by
  have same : runStamped steps (Stamps.fresh 32 nodeCount) = runCleared steps nodeCount := by
    rw [runStamped_eq steps (Stamps.clean_fresh 32 nodeCount)]
    exact congrArg _ List.length_replicate
  exact ⟨same, same ▸ runCleared_returns steps nodeCount⟩

/-! ### A visited node that is crowded out -/

/-- A dead entry and a live one that is farther, of which one is kept. -/
def crowdedQuery : BaseQuery Unit Nat :=
  { graph :=
      { tqNodeCount := 2
        nodes := fun nodeId => ⟨true, nodeId == 0, none, 0⟩
        heaptid := fun _ => ()
        loadCodePage := fun _ => true
        loadAdjPage := fun _ => true
        neighbors := fun _ => []
        scoreNode := fun nodeId => nodeId + 1 }
    filter := ⟨-1, 0⟩
    cachedExactDistance := fun _ => none
    entries := [(1, 0), (2, 1)]
    resultTarget := 1
    searchEf := 1
    steps := 2 }

/-- **The nearest dead node leaves no place** for a live one that is visited too. -/
theorem baseSearch_crowded :
    (searchBase flags crowdedQuery [false, false]).1.order = [(1, 0), (2, 1)] ∧
    admits crowdedQuery (2, 1) = true ∧
    (searchBase flags crowdedQuery [false, false]).1.results.toList = [] := by
  decide

end TurboHybrid.Graph.Dense
