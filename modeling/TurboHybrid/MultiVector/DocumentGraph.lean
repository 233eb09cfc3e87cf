/-
**The traversal of a document graph.**

The nodes of a document graph stand for documents. A traversal descends from the entry of the
index, collects entry points, and explores the lowest level with a bounded heap of the nearest
nodes; the candidates are taken from this heap. A node that is marked dead is explored like any
other, and left out when the candidates are taken.

* `baseLoop_stable`: as many rounds as there are nodes are enough;
* `Explores`: every node is offered once, and the heap keeps the nearest;
* `traverse_returns`: the candidates are the best live documents among the nearest nodes;
* `dead_displaces`: a dead node that takes the only place.
-/
import TurboHybrid.Graph.BaseLayer
import TurboHybrid.Graph.EntryPoints
import TurboHybrid.Library.Results
import TurboHybrid.MultiVector.PlainFallback

set_option linter.unusedSectionVars false

namespace TurboHybrid.DocumentGraph

open Library TurboHybrid.Graph
open TurboHybrid.PlainFallback (ItemPointer)
open TurboHybrid.Graph.Dense (offerDistanceEntry maxEntryPoints equalSteps size_pushed size_popped
  nearestOf offerNearest_perm)

/-! ### The graph -/

structure DocGraph where
  tqNodeCount : Nat
  tqEntryNodeId : Nat
  graphMaxLevel : Nat
  docCount : Nat
  level : Nat → Nat
  dead : Nat → Bool
  nodeDoc : Nat → Nat
  docTid : Nat → ItemPointer
  segmentEntryNodeIds : List Nat
  routingEntryNodeIds : List Nat
  loadCodePage : Nat → Bool
  loadAdjPage : Nat → Nat → Bool
  neighbors : Nat → Nat → List Nat

/-- A traversal of a graph. `score` is the distance of a document; it may be given the distance from
which the document is of no use. -/
structure Traversal (D : Type) where
  graph : DocGraph
  compact : Bool
  score : Option D → Nat → Except String D
  resultTarget : Nat
  searchEf : Nat
  entrySampleCount : Nat

variable {D : Type} [LinearOrder D]

section Definitions

variable (traversal : Traversal D)

/-- `DocumentGraphNodeDistance`; there is none for a node that cannot be loaded. -/
def nodeDistance (threshold : Option D) (nodeId : Nat) : Except String (Option D) :=
  if traversal.graph.tqNodeCount ≤ nodeId ∨ traversal.graph.loadCodePage nodeId = false then
    .ok none
  else if traversal.graph.docCount ≤ traversal.graph.nodeDoc nodeId then
    .error "document-node multivector sidecar has invalid document id"
  else (traversal.score threshold (traversal.graph.nodeDoc nodeId)).map some

/-! ### The descent -/

def nearerOf (current : D × Nat) (neighbor : Nat) (distance : Option D) : D × Nat :=
  if distance.any fun distance => decide (distance < current.1) then
    (distance.getD current.1, neighbor)
  else current

def greedyNeighbor (level : Nat) (current : D × Nat) (neighbor : Nat) :
    Except String (D × Nat) :=
  if traversal.graph.tqNodeCount ≤ neighbor ∨ traversal.graph.loadCodePage neighbor = false ∨
      traversal.graph.level neighbor < level then .ok current
  else (nodeDistance traversal none neighbor).map (nearerOf current neighbor)

def greedyRound (level : Nat) (current : D × Nat) : Except String (D × Nat) :=
  if traversal.graph.loadAdjPage current.2 level = false then .ok current
  else (traversal.graph.neighbors current.2 level).foldlM (greedyNeighbor traversal level) current

def greedyRounds (level : Nat) : Nat → D × Nat → Except String (D × Nat)
  | 0, current => .ok current
  | fuel + 1, current => do
    let next ← greedyRound traversal level current
    if next.1 < current.1 then greedyRounds level fuel next else .ok next

/-- `DocumentGraphGreedySearch`. -/
def greedySearch (level : Nat) (entry : D × Nat) : Except String (D × Nat) :=
  greedyRounds traversal level (traversal.graph.tqNodeCount + 1) entry

def startNode : Nat :=
  if traversal.graph.tqEntryNodeId < traversal.graph.tqNodeCount then
    traversal.graph.tqEntryNodeId
  else 0

def descendLevel (entry : D × Nat) (level : Nat) : Except String (D × Nat) :=
  if level ≤ traversal.graph.level entry.2 then greedySearch traversal level entry else .ok entry

def descend (distance : D) : Except String (D × Nat) :=
  ((List.range' 1 traversal.graph.graphMaxLevel).reverse).foldlM (descendLevel traversal)
    (distance, startNode traversal)

/-! ### The entry points -/

/-- `DocumentGraphAddEntry`. -/
def addEntry (entries : List (D × Nat)) (entry : D × Nat) : List (D × Nat) :=
  if entry.2 ∈ entries.map Prod.snd then entries else offerDistanceEntry entries entry

def descentEntries (distance : Option D) : Except String (List (D × Nat)) :=
  match distance with
  | none => .ok []
  | some distance => (descend traversal distance).map (addEntry [])

def addNode (entries : List (D × Nat)) (nodeId : Nat) : Except String (List (D × Nat)) :=
  if traversal.graph.tqNodeCount ≤ nodeId then .ok entries
  else (nodeDistance traversal none nodeId).map fun distance =>
    (distance.map fun distance => addEntry entries (distance, nodeId)).getD entries

def entrySampleTarget : Nat :=
  if 0 < traversal.entrySampleCount then
    min traversal.graph.tqNodeCount traversal.entrySampleCount
  else min traversal.graph.tqNodeCount (min 608 (max traversal.searchEf maxEntryPoints))

/-- One node of the samples: live, and no entry and no sample yet. -/
def sampleNode (entries sampled : List (D × Nat)) (nodeId : Nat) :
    Except String (List (D × Nat)) :=
  if nodeId ∈ entries.map Prod.snd ∨ nodeId ∈ sampled.map Prod.snd ∨
      traversal.graph.tqNodeCount ≤ nodeId ∨ traversal.graph.loadCodePage nodeId = false then
    .ok sampled
  else if traversal.graph.dead nodeId then .ok sampled
  else (nodeDistance traversal none nodeId).map fun distance =>
    (distance.map fun distance => sampled ++ [(distance, nodeId)]).getD sampled

def addSamples (entries : List (D × Nat)) : Except String (List (D × Nat)) :=
  if traversal.graph.tqNodeCount ≤ 1 then .ok entries
  else do
    let sampled ← (equalSteps (entrySampleTarget traversal) traversal.graph.tqNodeCount).foldlM
      (sampleNode traversal entries) []
    return (sortNearest sampled).foldl addEntry entries

def collectEntries : Except String (List (D × Nat)) := do
  let distance ← nodeDistance traversal none (startNode traversal)
  let entries ← descentEntries traversal distance
  let entries ← (traversal.graph.segmentEntryNodeIds ++
    traversal.graph.routingEntryNodeIds).foldlM (addNode traversal) entries
  addSamples traversal entries

/-! ### The lowest level -/

/-- The state of the exploration, with the offered nodes in their order. -/
structure BaseState (D : Type) where
  visited : List Nat
  offered : List (D × Nat)
  frontier : Array (D × Nat)
  nearest : Array (D × Nat)

def enterSeed (state : BaseState D) (seed : D × Nat) : BaseState D :=
  if traversal.graph.tqNodeCount ≤ seed.2 ∨ seed.2 ∈ state.visited then state
  else
    { visited := seed.2 :: state.visited
      offered := state.offered ++ [seed]
      frontier := BinaryHeap.push frontierLess state.frontier seed
      nearest := (offerNearest traversal.searchEf state.nearest seed).1 }

def offerNeighbor (state : BaseState D) (item : D × Nat) : BaseState D :=
  let offered := offerNearest traversal.searchEf state.nearest item
  { state with
    offered := state.offered ++ [item]
    nearest := offered.1
    frontier :=
      if offered.2 then BinaryHeap.push frontierLess state.frontier item else state.frontier }

/-- The distance from which a neighbour is of no use. -/
def scoreThreshold (nearest : Array (D × Nat)) : Option D :=
  if traversal.compact = true ∧ traversal.searchEf ≤ nearest.size then nearest[0]?.map Prod.fst
  else none

/-- A neighbour that has been scored, or could not be. -/
def receive (state : BaseState D) (neighbor : Nat) : Option D → BaseState D
  | none => state
  | some distance => offerNeighbor traversal state (distance, neighbor)

def visitNeighbor (state : BaseState D) (neighbor : Nat) : Except String (BaseState D) :=
  if traversal.graph.tqNodeCount ≤ neighbor ∨ neighbor ∈ state.visited then .ok state
  else
    (nodeDistance traversal (scoreThreshold traversal state.nearest) neighbor).map
      (receive traversal { state with visited := neighbor :: state.visited } neighbor)

def baseLoop : Nat → BaseState D → Except String (BaseState D)
  | 0, state => .ok state
  | rounds + 1, state =>
    match state.frontier[0]? with
    | none => .ok state
    | some item =>
      let popped := { state with frontier := BinaryHeap.pop frontierLess state.frontier }
      if traversal.searchEf ≤ popped.nearest.size ∧
          popped.nearest[0]?.any (fun worst => frontierGreater item worst) = true then .ok popped
      else if traversal.graph.loadAdjPage item.2 0 = false then baseLoop rounds popped
      else do
        let next ← (traversal.graph.neighbors item.2 0).foldlM (visitNeighbor traversal) popped
        baseLoop rounds next

def seeded (entries : List (D × Nat)) : BaseState D :=
  entries.foldl (enterSeed traversal) ⟨[], [], #[], #[]⟩

/-! ### The candidates -/

structure DocumentCandidate (D : Type) where
  nodeId : Nat
  docId : Nat
  heaptid : ItemPointer
  distance : D

/-- The candidate with the greater distance, of two at one distance by TID and node. -/
def candidateWorse (one other : DocumentCandidate D) : Bool :=
  if one.distance < other.distance then false
  else if other.distance < one.distance then true
  else if one.heaptid.block < other.heaptid.block then false
  else if other.heaptid.block < one.heaptid.block then true
  else if one.heaptid.offset < other.heaptid.offset then false
  else if other.heaptid.offset < one.heaptid.offset then true
  else decide (other.nodeId < one.nodeId)

def admits (nodeId : Nat) : Bool :=
  decide (nodeId < traversal.graph.tqNodeCount) && !traversal.graph.dead nodeId &&
    decide (traversal.graph.nodeDoc nodeId < traversal.graph.docCount)

def candidateOf (item : D × Nat) : DocumentCandidate D :=
  ⟨item.2, traversal.graph.nodeDoc item.2,
    traversal.graph.docTid (traversal.graph.nodeDoc item.2), item.1⟩

def materialize (nearest : List (D × Nat)) : Array (DocumentCandidate D) :=
  ((nearest.filter fun item => admits traversal item.2).map (candidateOf traversal)).foldl
    (BoundedHeap.offer candidateWorse traversal.resultTarget) #[]

/-- The nodes that a traversal offered, and its candidates. -/
structure Found (D : Type) where
  offered : List (D × Nat)
  candidates : Array (DocumentCandidate D)

/-- **`DocumentGraphTraverse`**, with so many rounds of its main loop. -/
def traverseRounds (rounds : Nat) : Except String (Found D) :=
  if traversal.graph.tqNodeCount = 0 ∨ traversal.resultTarget = 0 ∨ traversal.searchEf = 0 then
    .ok ⟨[], #[]⟩
  else do
    let entries ← collectEntries traversal
    let state ← baseLoop traversal rounds (seeded traversal entries)
    return ⟨state.offered, materialize traversal state.nearest.toList⟩

def traverse : Except String (Found D) := traverseRounds traversal traversal.graph.tqNodeCount

end Definitions

variable {traversal : Traversal D}

/-! ### The descent ends -/

/-- The neighbour that a round goes to was scored, and is nearer. -/
structure Nearer (traversal : Traversal D) (current next : D × Nat) : Prop where
  distance : next.1 < current.1
  inside : next.2 < traversal.graph.tqNodeCount
  scored : nodeDistance traversal none next.2 = .ok (some next.1)

theorem greedyNeighbor_spec {level neighbor : Nat} {current next : D × Nat}
    (taken : greedyNeighbor traversal level current neighbor = .ok next) :
    next = current ∨ Nearer traversal current next := by
  rw [greedyNeighbor] at taken
  by_cases out : traversal.graph.tqNodeCount ≤ neighbor ∨
      traversal.graph.loadCodePage neighbor = false ∨ traversal.graph.level neighbor < level
  · rw [if_pos out] at taken
    exact Or.inl (Except.ok.inj taken).symm
  · rw [if_neg out] at taken
    obtain ⟨distance, scored, rfl⟩ := map_ok taken
    rw [nearerOf]
    rcases distance with _ | distance
    · exact Or.inl (if_neg (by simp))
    · by_cases nearer : distance < current.1
      · rw [if_pos (by simpa using nearer)]
        exact Or.inr ⟨nearer, not_le.mp fun beyond => out (Or.inl beyond), scored⟩
      · exact Or.inl (if_neg (by simpa using nearer))

/-- **One round** stays, or comes nearer. -/
theorem greedyRound_spec {level : Nat} {current next : D × Nat}
    (round : greedyRound traversal level current = .ok next) :
    next = current ∨ Nearer traversal current next := by
  rw [greedyRound] at round
  by_cases missing : traversal.graph.loadAdjPage current.2 level = false
  · rw [if_pos missing] at round
    exact Or.inl (Except.ok.inj round).symm
  · rw [if_neg missing] at round
    have run (neighbors : List Nat) {before after : D × Nat}
        (far : before = current ∨ Nearer traversal current before)
        (rest : neighbors.foldlM (greedyNeighbor traversal level) before = .ok after) :
        after = current ∨ Nearer traversal current after := by
      induction neighbors generalizing before with
      | nil =>
        obtain rfl : before = after := Except.ok.inj rest
        exact far
      | cons neighbor neighbors ih =>
        rw [List.foldlM_cons] at rest
        obtain ⟨middle, one, rest⟩ := bind_ok rest
        refine ih ?_ rest
        rcases greedyNeighbor_spec one with rfl | nearer
        · exact far
        · refine Or.inr ⟨?_, nearer.inside, nearer.scored⟩
          rcases far with rfl | earlier
          · exact nearer.distance
          · exact nearer.distance.trans earlier.distance
    exact run _ (Or.inl rfl) round

theorem greedyRounds_stable (level fuel extra : Nat) {current : D × Nat}
    (enough : (nearerNodes (fun nodeId => (nodeDistance traversal none nodeId).toOption.join)
      traversal.graph.tqNodeCount current.1).length < fuel) :
    greedyRounds traversal level (fuel + extra) current =
      greedyRounds traversal level fuel current := by
  induction fuel generalizing current with
  | zero => exact absurd enough (Nat.not_lt_zero _)
  | succ fuel ih =>
    rw [Nat.succ_add, greedyRounds, greedyRounds]
    rcases round : greedyRound traversal level current with message | next
    · rfl
    · simp only [bind, Except.bind]
      by_cases nearer : next.1 < current.1
      · rw [if_pos nearer, if_pos nearer]
        rcases greedyRound_spec round with rfl | come
        · exact absurd nearer (lt_irrefl _)
        · have known : (nodeDistance traversal none next.2).toOption.join = some next.1 := by
            rw [come.scored]
            rfl
          exact ih ((nearerNodes_lt come.inside known nearer).trans_le (Nat.lt_succ_iff.mp enough))
      · rw [if_neg nearer, if_neg nearer]

/-- **The descent of a level ends** within the rounds that it has. -/
theorem greedySearch_done (level extra : Nat) (entry : D × Nat) :
    greedyRounds traversal level (traversal.graph.tqNodeCount + 1 + extra) entry =
      greedySearch traversal level entry :=
  greedyRounds_stable level _ extra (nearerNodes_length _ _ _)

/-! ### What is offered -/

/-- **What the state says** of the nodes that were offered. -/
structure Explores (traversal : Traversal D) (state : BaseState D) : Prop where
  nodup : state.visited.Nodup
  inside : ∀ nodeId ∈ state.visited, nodeId < traversal.graph.tqNodeCount
  offered : ∀ item ∈ state.offered, item.2 ∈ state.visited
  distinct : Distinct state.offered
  nearest : state.nearest =
    state.offered.foldl (BoundedHeap.offer frontierGreater traversal.searchEf) #[]

/-- The nodes that can still come out of the frontier. -/
def pending (traversal : Traversal D) (state : BaseState D) : Nat :=
  state.frontier.size + (traversal.graph.tqNodeCount - state.visited.length)

theorem Explores.length_le {state : BaseState D} (explores : Explores traversal state) :
    state.visited.length ≤ traversal.graph.tqNodeCount := by
  have part := explores.nodup.subperm fun nodeId member =>
    List.mem_range.mpr (explores.inside nodeId member)
  exact part.length_le.trans List.length_range.le

theorem Explores.mark {state : BaseState D} (explores : Explores traversal state) {nodeId : Nat}
    (inside : nodeId < traversal.graph.tqNodeCount) (fresh : nodeId ∉ state.visited) :
    Explores traversal { state with visited := nodeId :: state.visited } where
  nodup := List.nodup_cons.mpr ⟨fresh, explores.nodup⟩
  inside := fun other member => (List.mem_cons.mp member).elim
    (fun same => same ▸ inside) (explores.inside other)
  offered := fun item member => List.mem_cons_of_mem _ (explores.offered item member)
  distinct := explores.distinct
  nearest := explores.nearest

theorem Explores.offer {state : BaseState D} (explores : Explores traversal state)
    {item : D × Nat} (marked : item.2 ∈ state.visited) (fresh : item.2 ∉ state.offered.map Prod.snd)
    (frontier : Array (D × Nat)) :
    Explores traversal ⟨state.visited, state.offered ++ [item], frontier,
      (offerNearest traversal.searchEf state.nearest item).1⟩ where
  nodup := explores.nodup
  inside := explores.inside
  offered := fun other member => by
    rcases List.mem_append.mp member with old | new
    · exact explores.offered other old
    · rw [List.mem_singleton.mp new]
      exact marked
  distinct := by
    rw [Distinct, List.map_append]
    refine explores.distinct.append (List.nodup_singleton _) fun nodeId old new => ?_
    rw [List.map_singleton, List.mem_singleton] at new
    exact fresh (new ▸ old)
  nearest := by
    rw [List.foldl_concat, ← explores.nearest]
    rfl

theorem Explores.fresh {state : BaseState D} (explores : Explores traversal state) {nodeId : Nat}
    (unmarked : nodeId ∉ state.visited) : nodeId ∉ state.offered.map Prod.snd := by
  intro member
  obtain ⟨item, inside, rfl⟩ := List.mem_map.mp member
  exact unmarked (explores.offered item inside)

theorem Explores.enterSeed {state : BaseState D} (explores : Explores traversal state)
    (seed : D × Nat) :
    Explores traversal (enterSeed traversal state seed) ∧
      pending traversal (DocumentGraph.enterSeed traversal state seed) =
        pending traversal state := by
  rw [DocumentGraph.enterSeed]
  by_cases out : traversal.graph.tqNodeCount ≤ seed.2 ∨ seed.2 ∈ state.visited
  · rw [if_pos out]
    exact ⟨explores, rfl⟩
  · rw [if_neg out]
    obtain ⟨inside, unmarked⟩ := not_or.mp out
    have marked := explores.mark (not_le.mp inside) unmarked
    refine ⟨marked.offer List.mem_cons_self (explores.fresh unmarked) _, ?_⟩
    have length := marked.length_le
    rw [pending, pending, size_pushed]
    rw [List.length_cons] at length ⊢
    omega

theorem Explores.visitNeighbor {state next : BaseState D} (explores : Explores traversal state)
    {neighbor : Nat} (visited : visitNeighbor traversal state neighbor = .ok next) :
    Explores traversal next ∧ pending traversal next ≤ pending traversal state := by
  rw [DocumentGraph.visitNeighbor] at visited
  by_cases out : traversal.graph.tqNodeCount ≤ neighbor ∨ neighbor ∈ state.visited
  · rw [if_pos out] at visited
    obtain rfl := Except.ok.inj visited
    exact ⟨explores, le_refl _⟩
  · rw [if_neg out] at visited
    obtain ⟨inside, unmarked⟩ := not_or.mp out
    have marked := explores.mark (not_le.mp inside) unmarked
    have length := marked.length_le
    rw [List.length_cons] at length
    obtain ⟨distance, _, rfl⟩ := map_ok visited
    rcases distance with _ | distance
    · refine ⟨marked, ?_⟩
      rw [receive, pending, pending]
      dsimp only
      rw [List.length_cons]
      omega
    · refine ⟨marked.offer List.mem_cons_self (explores.fresh unmarked) _, ?_⟩
      rw [receive, pending, pending, offerNeighbor]
      dsimp only
      rw [List.length_cons]
      split_ifs
      · rw [size_pushed]
        omega
      · omega

theorem Explores.visitNeighbors {state next : BaseState D} (explores : Explores traversal state)
    {neighbors : List Nat}
    (visited : neighbors.foldlM (DocumentGraph.visitNeighbor traversal) state = .ok next) :
    Explores traversal next ∧ pending traversal next ≤ pending traversal state := by
  induction neighbors generalizing state with
  | nil =>
    obtain rfl : state = next := Except.ok.inj visited
    exact ⟨explores, le_refl _⟩
  | cons neighbor neighbors ih =>
    rw [List.foldlM_cons] at visited
    obtain ⟨middle, one, rest⟩ := bind_ok visited
    obtain ⟨kept, fewer⟩ := explores.visitNeighbor one
    obtain ⟨kept, fewest⟩ := ih kept rest
    exact ⟨kept, fewest.trans fewer⟩

theorem Explores.popped {state : BaseState D} (explores : Explores traversal state)
    (frontier : Array (D × Nat)) : Explores traversal { state with frontier := frontier } :=
  { explores with }

theorem Explores.baseLoop {state next : BaseState D} (explores : Explores traversal state)
    {rounds : Nat} (run : baseLoop traversal rounds state = .ok next) :
    Explores traversal next := by
  induction rounds generalizing state with
  | zero =>
    obtain rfl : state = next := Except.ok.inj run
    exact explores
  | succ rounds ih =>
    rw [DocumentGraph.baseLoop] at run
    rcases root : state.frontier[0]? with _ | item <;> rw [root] at run
    · obtain rfl : state = next := Except.ok.inj run
      exact explores
    · have popped := explores.popped (BinaryHeap.pop frontierLess state.frontier)
      dsimp only at run
      split_ifs at run
      · obtain rfl := Except.ok.inj run
        exact popped
      · exact ih popped run
      · obtain ⟨middle, visited, run⟩ := bind_ok run
        exact ih (popped.visitNeighbors visited).1 run

/-- **The loop ends** within as many rounds as nodes can come out of the frontier. -/
theorem baseLoop_stable {rounds : Nat} (extra : Nat) {state : BaseState D}
    (explores : Explores traversal state) (enough : pending traversal state ≤ rounds) :
    baseLoop traversal (rounds + extra) state = baseLoop traversal rounds state := by
  induction rounds generalizing state with
  | zero =>
    have empty : state.frontier.size = 0 := by
      rw [pending] at enough
      omega
    have none_ : state.frontier[0]? = none := by
      rw [Array.getElem?_eq_none_iff]
      omega
    cases extra with
    | zero => rfl
    | succ extra =>
      simp only [baseLoop, none_]
  | succ rounds ih =>
    rw [Nat.succ_add, baseLoop, baseLoop]
    rcases root : state.frontier[0]? with _ | item
    · rfl
    · have size := size_popped root
      have popped := explores.popped (BinaryHeap.pop frontierLess state.frontier)
      have fewer : pending traversal
          { state with frontier := BinaryHeap.pop frontierLess state.frontier } ≤ rounds := by
        rw [pending] at enough ⊢
        dsimp only
        omega
      dsimp only
      split_ifs
      · rfl
      · exact ih popped fewer
      · rcases visited : (traversal.graph.neighbors item.2 0).foldlM (visitNeighbor traversal)
          { state with frontier := BinaryHeap.pop frontierLess state.frontier } with message | next
        · rfl
        · obtain ⟨kept, fewest⟩ := popped.visitNeighbors visited
          exact ih kept (fewest.trans fewer)

theorem seeded_explores (traversal : Traversal D) (entries : List (D × Nat)) :
    Explores traversal (seeded traversal entries) ∧
      pending traversal (seeded traversal entries) = traversal.graph.tqNodeCount := by
  have started : Explores traversal (⟨[], [], #[], #[]⟩ : BaseState D) :=
    ⟨List.nodup_nil, fun _ member => absurd member List.not_mem_nil,
      fun _ member => absurd member List.not_mem_nil, List.nodup_nil, rfl⟩
  have run (entries : List (D × Nat)) {state : BaseState D} (explores : Explores traversal state) :
      Explores traversal (entries.foldl (enterSeed traversal) state) ∧
        pending traversal (entries.foldl (enterSeed traversal) state) =
          pending traversal state := by
    induction entries generalizing state with
    | nil => exact ⟨explores, rfl⟩
    | cons seed entries ih =>
      obtain ⟨kept, same⟩ := explores.enterSeed seed
      obtain ⟨kept, rest⟩ := ih kept
      exact ⟨kept, rest.trans same⟩
  refine (run entries started).imp id fun same => same.trans ?_
  exact Nat.zero_add _

/-- **The traversal ends** within as many rounds of its main loop as there are nodes. -/
theorem traverse_stable (traversal : Traversal D) (extra : Nat) :
    traverseRounds traversal (traversal.graph.tqNodeCount + extra) = traverse traversal := by
  rw [traverse, traverseRounds, traverseRounds]
  split_ifs
  · rfl
  · rcases collectEntries traversal with message | entries
    · rfl
    · obtain ⟨explores, all⟩ := seeded_explores traversal entries
      simp only [bind, Except.bind]
      rw [baseLoop_stable extra explores all.le]

/-! ### The candidates -/

def DocumentCandidate.key (candidate : DocumentCandidate D) : D ×ₗ Nat ×ₗ Nat ×ₗ Nat :=
  toLex (candidate.distance, toLex (candidate.heaptid.block,
    toLex (candidate.heaptid.offset, candidate.nodeId)))

theorem candidateWorse_compares :
    BinaryHeap.Compares (OrderDual.toDual ∘ DocumentCandidate.key)
      (candidateWorse : DocumentCandidate D → DocumentCandidate D → Bool) := by
  intro one other
  show candidateWorse one other = true ↔ other.key < one.key
  simp only [DocumentCandidate.key, Prod.Lex.toLex_lt_toLex, candidateWorse]
  split_ifs <;> simp only [decide_eq_true_iff, false_iff, true_iff] <;> grind

def candidatesOf (traversal : Traversal D) (items : List (D × Nat)) :
    List (DocumentCandidate D) :=
  (items.filter fun item => admits traversal item.2).map (candidateOf traversal)

/-- Every document has one node that can become a candidate. -/
def OneNodeEach (traversal : Traversal D) : Prop :=
  ∀ nodeId other, admits traversal nodeId = true → admits traversal other = true →
    traversal.graph.nodeDoc nodeId = traversal.graph.nodeDoc other → nodeId = other

/-- **What a traversal returns**: of the live documents among the `searchEf` nearest nodes that
were offered, the best, each once. -/
structure Returns (traversal : Traversal D) (found : Found D) : Prop where
  once : Distinct found.offered
  inside : ∀ item ∈ found.offered, item.2 < traversal.graph.tqNodeCount
  nearest : found.candidates.toList.Subperm
    (candidatesOf traversal (nearestOf traversal.searchEf found.offered))
  best : (found.candidates.toList.map DocumentCandidate.key).Perm
    (TopK.best traversal.resultTarget ((candidatesOf traversal
      (nearestOf traversal.searchEf found.offered)).map DocumentCandidate.key))
  documents : OneNodeEach traversal →
    (found.candidates.toList.map DocumentCandidate.docId).Nodup

theorem candidatesOf_docIds (single : OneNodeEach traversal) {items : List (D × Nat)}
    (distinct : Distinct items) :
    ((candidatesOf traversal items).map DocumentCandidate.docId).Nodup := by
  have names : ((items.filter fun item => admits traversal item.2).map Prod.snd).Nodup :=
    distinct.sublist (List.filter_sublist.map _)
  have same : (candidatesOf traversal items).map DocumentCandidate.docId =
      ((items.filter fun item => admits traversal item.2).map Prod.snd).map
        traversal.graph.nodeDoc := by
    rw [candidatesOf, List.map_map, List.map_map]
    rfl
  rw [same]
  refine names.map_on fun nodeId member other member' doc => ?_
  obtain ⟨item, inside, rfl⟩ := List.mem_map.mp member
  obtain ⟨item', inside', rfl⟩ := List.mem_map.mp member'
  exact single _ _ (List.mem_filter.mp inside).2 (List.mem_filter.mp inside').2 doc

theorem materialize_spec (positive : 0 < traversal.resultTarget) {offered nearest : List (D × Nat)}
    (perm : nearest.Perm (nearestOf traversal.searchEf offered)) :
    (materialize traversal nearest).toList.Subperm
        (candidatesOf traversal (nearestOf traversal.searchEf offered)) ∧
      ((materialize traversal nearest).toList.map DocumentCandidate.key).Perm
        (TopK.best traversal.resultTarget ((candidatesOf traversal
          (nearestOf traversal.searchEf offered)).map DocumentCandidate.key)) := by
  have same : (candidatesOf traversal nearest).Perm
      (candidatesOf traversal (nearestOf traversal.searchEf offered)) := (perm.filter _).map _
  have keeps := BoundedHeap.offerAll_keepsBy candidateWorse_compares positive
    (BoundedHeap.keepsBy_empty DocumentCandidate.key traversal.resultTarget)
    (candidatesOf traversal nearest)
  rw [List.nil_append] at keeps
  refine ⟨keeps.part.trans same.subperm, ?_⟩
  rw [← TopK.best_perm (same.map _)]
  exact keeps.selects.perm_best

/-- **The result of a traversal.** -/
theorem traverse_returns {found : Found D} (run : traverse traversal = .ok found) :
    Returns traversal found := by
  rw [traverse, traverseRounds] at run
  by_cases idle : traversal.graph.tqNodeCount = 0 ∨ traversal.resultTarget = 0 ∨
      traversal.searchEf = 0
  · rw [if_pos idle] at run
    obtain rfl := Except.ok.inj run
    have none_ : nearestOf traversal.searchEf ([] : List (D × Nat)) = [] := by
      simp [nearestOf, TopK.best]
    refine ⟨List.nodup_nil, fun _ member => absurd member List.not_mem_nil,
      List.nil_subperm, ?_, fun _ => List.nodup_nil⟩
    rw [none_]
    simp [candidatesOf, TopK.best]
  · rw [if_neg idle] at run
    obtain ⟨entries, _, run⟩ := bind_ok run
    obtain ⟨state, looped, run⟩ := bind_ok run
    obtain rfl := Except.ok.inj run
    have explores := (seeded_explores traversal entries).1.baseLoop looped
    have positive : 0 < traversal.resultTarget :=
      Nat.pos_of_ne_zero fun zero => idle (Or.inr (Or.inl zero))
    have perm : state.nearest.toList.Perm (nearestOf traversal.searchEf state.offered) :=
      explores.nearest ▸ offerNearest_perm traversal.searchEf state.offered
    obtain ⟨part, best⟩ := materialize_spec positive perm
    refine ⟨explores.distinct, fun item member => explores.inside _ (explores.offered _ member),
      part, best, fun single => ?_⟩
    have kept : (nearestOf traversal.searchEf state.offered).Subperm state.offered := by
      have inside := BoundedHeap.offerAll_subperm frontierGreater traversal.searchEf
        state.offered #[]
      rw [← explores.nearest] at inside
      exact perm.symm.subperm.trans (by simpa using inside)
    obtain ⟨listed, same, sublist⟩ := part
    exact (same.map DocumentCandidate.docId).nodup_iff.mp
      ((candidatesOf_docIds single (explores.distinct.subperm kept)).sublist (sublist.map _))

/-- **A traversal ends**, and what it returns are the best live documents among the nearest nodes
that it offered. -/
theorem traverse_nearest (traversal : Traversal D) :
    (∀ extra, traverseRounds traversal (traversal.graph.tqNodeCount + extra) =
      traverse traversal) ∧
    ∀ found, traverse traversal = .ok found → Returns traversal found :=
  ⟨traverse_stable traversal, fun _ run => traverse_returns run⟩

/-! ### A dead node in the only place -/

/-- A dead node at the query and a live one that is farther, of which one is kept. -/
def deadNearest : Traversal Nat where
  graph :=
    { tqNodeCount := 2
      tqEntryNodeId := 0
      graphMaxLevel := 0
      docCount := 2
      level := fun _ => 0
      dead := fun nodeId => nodeId == 0
      nodeDoc := fun nodeId => nodeId
      docTid := fun docId => ⟨0, docId + 1⟩
      segmentEntryNodeIds := []
      routingEntryNodeIds := []
      loadCodePage := fun _ => true
      loadAdjPage := fun _ _ => true
      neighbors := fun nodeId _ => [1 - nodeId] }
  compact := false
  score := fun _ docId => .ok docId
  resultTarget := 1
  searchEf := 1
  entrySampleCount := 0

theorem deadNearest_returns :
    ∃ found, traverse deadNearest = .ok found ∧ Returns deadNearest found :=
  ⟨⟨[(0, 0), (1, 1)], #[]⟩, rfl, (traverse_nearest deadNearest).2 _ rfl⟩

/-- **The dead node leaves no place** for the live document, which was offered too. -/
theorem dead_displaces :
    ¬∀ traversal : Traversal Nat, ∀ found, traverse traversal = .ok found →
      (found.candidates.toList.map DocumentCandidate.key).Perm
        (TopK.best (min traversal.resultTarget traversal.searchEf)
          ((candidatesOf traversal found.offered).map DocumentCandidate.key)) := by
  intro best
  have perm := best deadNearest ⟨[(0, 0), (1, 1)], #[]⟩ rfl
  exact absurd perm.length_eq (by decide)

end TurboHybrid.DocumentGraph
