/-
**The candidates of an insert.**

The neighbours of a new node are chosen among candidates: for a vector those that a best-first
search of the lowest level finds, for a multi-vector document the best of all documents.

* `searchBaseLayer`: the search, with its frontier and the heap of the nearest nodes;
* `traverse_distinct`: it names no node twice, whatever entries it starts from;
* `collectDocumentInsertCandidates`, `collectDocumentInsertCandidates_distinct`: the pass over the
  documents.
-/
import Mathlib.Order.Nat
import Mathlib.Tactic.Push
import TurboHybrid.Library.BoundedHeap

set_option linter.unusedSectionVars false

namespace TurboHybrid.Graph

open Library

section Candidates

variable {D : Type} [LinearOrder D]

/-! ### Nodes with their distances -/

def frontierLess (one other : D × Nat) : Bool :=
  decide (one.1 < other.1 ∨ one.1 = other.1 ∧ one.2 < other.2)

def frontierGreater (one other : D × Nat) : Bool := frontierLess other one

def Distinct (items : List (D × Nat)) : Prop := (items.map Prod.snd).Nodup

theorem Distinct.subperm {items kept : List (D × Nat)} (distinct : Distinct items)
    (inside : kept.Subperm items) : Distinct kept := by
  obtain ⟨part, same, sublist⟩ := inside
  have names : (part.map Prod.snd).Nodup := List.Nodup.sublist (sublist.map Prod.snd) distinct
  exact (same.map Prod.snd).nodup_iff.mp names

theorem Distinct.rename {items : List (D × Nat)} (distinct : Distinct items)
    (distance : D × Nat → D) : Distinct (items.map fun item => (distance item, item.2)) := by
  unfold Distinct
  rw [List.map_map]
  exact distinct

/-! ### The search of the lowest level -/

/-- What a search reads: the lists of the lowest level, the dead nodes, the score of a node against
the new vector, its distance as a result and its exact one. -/
structure SearchContext (D : Type) where
  nodeCount : Nat
  neighbors : Nat → List Nat
  dead : Nat → Bool
  score : Nat → D
  resultDistance : Nat → D → D
  exactRescore : Nat → D → D

structure BaseSearch (D : Type) where
  visited : List Nat
  frontier : Array (D × Nat)
  nearest : Array (D × Nat)

variable (ctx : SearchContext D)

/-- Offer a node to the nearest ones, and whether it was taken. -/
def offerNearest (capacity : Nat) (heap : Array (D × Nat)) (item : D × Nat) :
    Array (D × Nat) × Bool :=
  (BoundedHeap.offer frontierGreater capacity heap item,
    decide (heap.size < capacity) || heap[0]?.any fun root => frontierLess item root)

def enterEntry (searchEf : Nat) (state : BaseSearch D) (entry : D × Nat) : BaseSearch D :=
  if entry.2 < ctx.nodeCount ∧ entry.2 ∉ state.visited then
    { visited := entry.2 :: state.visited
      frontier := BinaryHeap.push frontierLess state.frontier entry
      nearest := (offerNearest searchEf state.nearest entry).1 }
  else state

/-- The neighbours of a node that were not visited yet, in the order of its list. -/
def neighborBatch (visited neighbors : List Nat) : List Nat :=
  neighbors.foldl (fun batch neighbor =>
    if neighbor < ctx.nodeCount ∧ neighbor ∉ visited ∧ neighbor ∉ batch then batch ++ [neighbor]
    else batch) []

/-- A scored neighbour enters the frontier where the nearest nodes take it. -/
def offerNeighbor (searchEf : Nat) (state : BaseSearch D) (item : D × Nat) : BaseSearch D :=
  let offered := offerNearest searchEf state.nearest item
  { state with
    nearest := offered.1
    frontier :=
      if offered.2 then BinaryHeap.push frontierLess state.frontier item else state.frontier }

def expandNode (searchEf : Nat) (state : BaseSearch D) (nodeId : Nat) : BaseSearch D :=
  let batch := neighborBatch ctx state.visited (ctx.neighbors nodeId)
  (batch.map fun neighbor => (ctx.score neighbor, neighbor)).foldl (offerNeighbor searchEf)
    { state with visited := batch ++ state.visited }

/-- Expand the frontier's nearest node until it is farther than all nearest nodes. A node is pushed
at most once, so that the node count is fuel enough. -/
def searchLoop (searchEf : Nat) : Nat → BaseSearch D → BaseSearch D
  | 0, state => state
  | fuel + 1, state =>
    match state.frontier[0]? with
    | none => state
    | some item =>
      let popped := { state with frontier := BinaryHeap.pop frontierLess state.frontier }
      if searchEf ≤ popped.nearest.size ∧
          popped.nearest[0]?.any (fun worst => frontierGreater item worst) = true then popped
      else searchLoop searchEf fuel (expandNode ctx searchEf popped item.2)

/-- The live ones of the nearest nodes, as many as wanted. -/
def searchBaseLayer (entries : List (D × Nat)) (resultTarget searchEf : Nat) : List (D × Nat) :=
  let found := searchLoop ctx searchEf ctx.nodeCount
    (entries.foldl (enterEntry ctx searchEf) ⟨[], #[], #[]⟩)
  let live := found.nearest.toList.filter fun item =>
    decide (item.2 < ctx.nodeCount) && !ctx.dead item.2
  ((live.map fun item => (ctx.resultDistance item.2 item.1, item.2)).foldl
    (BoundedHeap.offer frontierGreater resultTarget) #[]).toList

/-- The candidates for a vector: the search's results with their exact distances. -/
def traverse (entries : List (D × Nat)) (resultTarget searchEf : Nat) : List (D × Nat) :=
  (searchBaseLayer ctx entries resultTarget searchEf).map fun item =>
    (ctx.exactRescore item.2 item.1, item.2)

/-! ### The search names no node twice -/

variable {ctx}

structure Explored (state : BaseSearch D) : Prop where
  distinct : Distinct state.nearest.toList
  visited : ∀ item ∈ state.nearest.toList, item.2 ∈ state.visited

theorem Explored.offer {state : BaseSearch D} (explored : Explored state) (searchEf : Nat)
    (items : List (D × Nat)) (distinct : Distinct items)
    (fresh : ∀ item ∈ items, item.2 ∉ state.visited) (frontier : Array (D × Nat)) :
    Explored ⟨items.map Prod.snd ++ state.visited, frontier,
      items.foldl (BoundedHeap.offer frontierGreater searchEf) state.nearest⟩ := by
  have inside := BoundedHeap.offerAll_subperm frontierGreater searchEf items state.nearest
  refine ⟨Distinct.subperm ?_ inside, fun item member => ?_⟩
  · show ((items ++ state.nearest.toList).map Prod.snd).Nodup
    rw [List.map_append]
    refine distinct.append explored.distinct ?_
    intro nodeId new old
    obtain ⟨item, member, rfl⟩ := List.mem_map.mp new
    obtain ⟨other, present, same⟩ := List.mem_map.mp old
    exact fresh item member (same ▸ explored.visited other present)
  · rcases List.mem_append.mp (inside.subset member) with new | old
    · exact List.mem_append_left _ (List.mem_map_of_mem new)
    · exact List.mem_append_right _ (explored.visited item old)

theorem Explored.enterEntry {state : BaseSearch D} (explored : Explored state) (searchEf : Nat)
    (entry : D × Nat) : Explored (enterEntry ctx searchEf state entry) := by
  unfold Graph.enterEntry
  split_ifs with new
  · refine explored.offer searchEf [entry] (List.nodup_singleton _) ?_ _
    intro item member
    exact List.mem_singleton.mp member ▸ new.2
  · exact explored

variable (ctx) in
theorem neighborBatch_spec (visited neighbors : List Nat) :
    (neighborBatch ctx visited neighbors).Nodup ∧
      ∀ nodeId ∈ neighborBatch ctx visited neighbors, nodeId ∉ visited := by
  refine List.foldlRecOn _ _ (motive := fun batch => batch.Nodup ∧ ∀ nodeId ∈ batch,
    nodeId ∉ visited) ⟨List.nodup_nil, fun _ member => absurd member List.not_mem_nil⟩ ?_
  intro batch ⟨nodup, fresh⟩ neighbor _
  split_ifs with new
  · refine ⟨nodup.append (List.nodup_singleton neighbor) ?_, fun nodeId member => ?_⟩
    · exact fun nodeId old last => new.2.2 (List.mem_singleton.mp last ▸ old)
    · rcases List.mem_append.mp member with old | last
      · exact fresh nodeId old
      · exact List.mem_singleton.mp last ▸ new.2.1
  · exact ⟨nodup, fresh⟩

theorem offerNeighbors_eq (searchEf : Nat) (items : List (D × Nat)) (state : BaseSearch D) :
    (items.foldl (offerNeighbor searchEf) state).visited = state.visited ∧
      (items.foldl (offerNeighbor searchEf) state).nearest =
        items.foldl (BoundedHeap.offer frontierGreater searchEf) state.nearest := by
  induction items generalizing state with
  | nil => exact ⟨rfl, rfl⟩
  | cons item rest ih => exact ih _

theorem Explored.expandNode {state : BaseSearch D} (explored : Explored state) (searchEf : Nat)
    (nodeId : Nat) : Explored (expandNode ctx searchEf state nodeId) := by
  obtain ⟨nodup, fresh⟩ := neighborBatch_spec ctx state.visited (ctx.neighbors nodeId)
  unfold Graph.expandNode
  generalize neighborBatch ctx state.visited (ctx.neighbors nodeId) = batch at nodup fresh
  dsimp only
  generalize scored : batch.map (fun neighbor => (ctx.score neighbor, neighbor)) = items
  have names : items.map Prod.snd = batch := by
    rw [← scored, List.map_map]
    exact List.map_id batch
  obtain ⟨visited, nearest⟩ :=
    offerNeighbors_eq searchEf items { state with visited := batch ++ state.visited }
  have after := explored.offer searchEf items (by rw [Distinct, names]; exact nodup)
    (fun item member => fresh item.2 (names ▸ List.mem_map_of_mem member)) #[]
  rw [names] at after
  refine ⟨?_, ?_⟩
  · rw [nearest]
    exact after.distinct
  · rw [nearest, visited]
    exact after.visited

variable (ctx) in
theorem Explored.searchLoop {state : BaseSearch D} (explored : Explored state) (searchEf fuel : Nat) :
    Explored (searchLoop ctx searchEf fuel state) := by
  induction fuel generalizing state with
  | zero => exact explored
  | succ fuel ih =>
    unfold Graph.searchLoop
    cases state.frontier[0]? with
    | none => exact explored
    | some item =>
      dsimp only
      split_ifs
      · exact ⟨explored.distinct, explored.visited⟩
      · have popped : Explored
            { state with frontier := BinaryHeap.pop frontierLess state.frontier } :=
          ⟨explored.distinct, explored.visited⟩
        exact ih (popped.expandNode searchEf item.2)

/-- **The candidates for a vector are distinct.** -/
theorem traverse_distinct (ctx : SearchContext D) (entries : List (D × Nat))
    (resultTarget searchEf : Nat) : Distinct (traverse ctx entries resultTarget searchEf) := by
  have started : Explored (entries.foldl (enterEntry ctx searchEf) ⟨[], #[], #[]⟩) := by
    refine List.foldlRecOn _ _ (motive := Explored) ⟨List.nodup_nil, ?_⟩ ?_
    · exact fun item member => absurd member List.not_mem_nil
    · exact fun state explored entry _ => explored.enterEntry searchEf entry
  have found := started.searchLoop ctx searchEf ctx.nodeCount
  refine Distinct.rename ?_ _
  unfold searchBaseLayer
  refine Distinct.subperm ?_ (BoundedHeap.offerAll_subperm frontierGreater resultTarget _ #[])
  show Distinct (_ ++ [])
  rw [List.append_nil]
  refine Distinct.rename ?_ _
  exact found.distinct.subperm List.filter_sublist.subperm

/-! ### The pass over the documents -/

/-- What the pass reads of the documents in the order of their ids: the node of each, which nodes are
dead, and the distance of the new document to a node's. -/
structure DocumentContext (D : Type) where
  nodeCount : Nat
  firstNodeIds : List Nat
  dead : Nat → Bool
  distance : Nat → D
  dblMax : D

/-- The first candidate after which none is farther. -/
def worstCandidate (candidates : List (D × Nat)) : Option Nat :=
  (List.range candidates.length).foldl (fun worst pos =>
    match worst with
    | none => some pos
    | some chosen =>
      match candidates[pos]?, candidates[chosen]? with
      | some item, some farthest => if frontierGreater item farthest then some pos else worst
      | _, _ => worst) none

def documentInsertOfferCandidate (dblMax : D) (candidateLimit : Nat)
    (candidates : List (D × Nat)) (item : D × Nat) : List (D × Nat) :=
  if candidateLimit = 0 ∨ item.1 = dblMax ∨ item.2 ∈ candidates.map Prod.snd then candidates
  else if candidates.length < candidateLimit then candidates ++ [item]
  else
    match worstCandidate candidates with
    | none => candidates
    | some worst =>
      match candidates[worst]? with
      | none => candidates
      | some farthest =>
        if frontierLess item farthest then candidates.set worst item else candidates

def collectDocumentInsertCandidates (docs : DocumentContext D) (candidateLimit : Nat) :
    List (D × Nat) :=
  docs.firstNodeIds.foldl (fun candidates nodeId =>
    if docs.nodeCount ≤ nodeId ∨ docs.dead nodeId = true then candidates
    else
      documentInsertOfferCandidate docs.dblMax candidateLimit candidates
        (docs.distance nodeId, nodeId)) []

theorem documentInsertOfferCandidate_distinct (dblMax : D) (candidateLimit : Nat)
    {candidates : List (D × Nat)} (distinct : Distinct candidates) (item : D × Nat) :
    Distinct (documentInsertOfferCandidate dblMax candidateLimit candidates item) := by
  unfold documentInsertOfferCandidate
  split_ifs with skipped room
  · exact distinct
  · push Not at skipped
    unfold Distinct
    rw [List.map_append]
    refine distinct.append (List.nodup_singleton _) ?_
    exact fun nodeId old new => skipped.2.2 (List.mem_singleton.mp new ▸ old)
  · push Not at skipped
    cases worstCandidate candidates with
    | none => exact distinct
    | some worst =>
      dsimp only
      cases candidates[worst]? with
      | none => exact distinct
      | some farthest =>
        dsimp only
        split_ifs
        · unfold Distinct
          rw [List.map_set]
          exact distinct.set skipped.2.2
        · exact distinct

/-- **The candidates for a document are distinct**, whatever nodes the map names for the others. -/
theorem collectDocumentInsertCandidates_distinct (docs : DocumentContext D)
    (candidateLimit : Nat) : Distinct (collectDocumentInsertCandidates docs candidateLimit) := by
  refine List.foldlRecOn _ _ (motive := Distinct) List.nodup_nil ?_
  intro candidates distinct nodeId _
  split_ifs
  · exact distinct
  · exact documentInsertOfferCandidate_distinct docs.dblMax candidateLimit distinct _

end Candidates

end TurboHybrid.Graph
