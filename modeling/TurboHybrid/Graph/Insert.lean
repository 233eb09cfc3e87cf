/-
**Insertion into the graph, and the entry a build starts with.**

An insert reads the page, links the new node with the neighbours a search selected, appends its
tuples and writes the page from the reading it started with.

* `reciprocalNeighbors`: a neighbour's list with the new node, cut to its capacity by distance;
* `graphInsert`: a whole insert with no other operation between its steps;
* `buildEntry`, `buildEntry_highest`: the entry of a build is a node of the highest level.
-/
import TurboHybrid.Graph.Repair

namespace TurboHybrid.Graph

/-! ### Reciprocal neighbours -/

section Reciprocal

variable {D : Type} [LinearOrder D]

/-- What an insert takes from the vectors and the level draw: the level of a node id, distances
from one node to another, and the distance of what cannot be read. -/
structure InsertSupport (D : Type) where
  pickLevel : Nat → Nat
  distance : Nat → Nat → D
  dblMax : D

/-- A list of neighbours ranked by their distance from a source, the readable ones up to the
capacity. -/
def pruneNeighbors (support : InsertSupport D) (source maxNeighbors : Nat) (neighbors : List Nat) :
    List Nat :=
  let ranked := (neighbors.map fun neighbor => (support.distance source neighbor, neighbor))
    |>.insertionSort fun one other => one.1 < other.1 ∨ one.1 = other.1 ∧ one.2 ≤ other.2
  ((ranked.filter fun item => decide (item.1 < support.dblMax)).take maxNeighbors).map (·.2)

/-- The list an insert writes for a neighbour whose list it read. -/
def reciprocalNeighbors (support : InsertSupport D) (maxNeighbors newNodeId source : Nat)
    (neighbors : List Nat) : List Nat :=
  let extended := if newNodeId ∈ neighbors then neighbors else neighbors ++ [newNodeId]
  if maxNeighbors < extended.length then pruneNeighbors support source maxNeighbors extended
  else extended

/-- A selected neighbour is left alone where it is unknown, dead or below the level. -/
def takesReciprocal (index : GraphIndex) (source level : Nat) : Bool :=
  decide (source < index.page.nodeCount) && !nodeDead index.nodes source &&
    decide (level ≤ nodeLevel index.nodes source)

def updateReciprocalNeighbor (support : InsertSupport D) (newNodeId level : Nat)
    (index : GraphIndex) (source : Nat) : GraphIndex :=
  if takesReciprocal index source level then
    { index with
      adjacency := index.adjacency.set source level
        (reciprocalNeighbors support (levelM index.page.m level) newNodeId source
          (loadAdjTuple index source level)) }
  else index

def updateReciprocalNeighbors (support : InsertSupport D) (newNodeId nodeLevel : Nat)
    (selected : Nat → List Nat) (index : GraphIndex) : GraphIndex :=
  (List.range (nodeLevel + 1)).foldl (fun index level =>
    (selected level).foldl (updateReciprocalNeighbor support newNodeId level) index) index

/-! ### The whole insert -/

/-- What a statement brings to an insert: the code of its vector and the neighbours that the search
selects for it at each level. -/
structure NewNode where
  code : List Nat
  selected : Nat → List Nat

/-- The tuples of the new node, behind those of the others. -/
def appendInserted (newNodeId nodeLevel : Nat) (new : NewNode) (index : GraphIndex) : GraphIndex :=
  { index with
    nodes := index.nodes ++ [{ level := nodeLevel, dead := false, code := new.code }]
    adjacency := fun nodeId level =>
      if nodeId = newNodeId ∧ level ≤ min nodeLevel (levelCapacity index.page.m - 1) then
        new.selected level
      else index.adjacency nodeId level }

/-- Insert a node. Where the generation is exhausted the page stays as it is, and no reader looks at
the tuples of a node at or above its node count. -/
def graphInsert (support : InsertSupport D) (new : NewNode) (index : GraphIndex) :
    GraphIndex × Except GraphError Nat :=
  let read := index.page
  let newNodeId := read.nodeCount
  let nodeLevel := support.pickLevel newNodeId
  let linked :=
    if 0 < read.nodeCount then
      updateReciprocalNeighbors support newNodeId nodeLevel new.selected index
    else index
  match updateMetaPageFromUpdate linked.page (insertMetaUpdate read nodeLevel) with
  | .ok page => ({ appendInserted newNodeId nodeLevel new linked with page }, .ok newNodeId)
  | .error error => (linked, .error error)

theorem updateReciprocalNeighbor_page (support : InsertSupport D) (newNodeId level : Nat)
    (index : GraphIndex) (source : Nat) :
    (updateReciprocalNeighbor support newNodeId level index source).page = index.page ∧
      (updateReciprocalNeighbor support newNodeId level index source).nodes = index.nodes := by
  unfold updateReciprocalNeighbor
  split_ifs <;> exact ⟨rfl, rfl⟩

theorem updateLevel_page (support : InsertSupport D) (newNodeId : Nat) (sources : List Nat)
    (level : Nat) (index : GraphIndex) :
    (sources.foldl (updateReciprocalNeighbor support newNodeId level) index).page = index.page ∧
      (sources.foldl (updateReciprocalNeighbor support newNodeId level) index).nodes =
        index.nodes := by
  induction sources generalizing index with
  | nil => exact ⟨rfl, rfl⟩
  | cons source rest ih =>
    have one := updateReciprocalNeighbor_page support newNodeId level index source
    exact ⟨(ih _).1.trans one.1, (ih _).2.trans one.2⟩

theorem updateReciprocalNeighbors_page (support : InsertSupport D) (newNodeId nodeLevel : Nat)
    (selected : Nat → List Nat) (index : GraphIndex) :
    (updateReciprocalNeighbors support newNodeId nodeLevel selected index).page = index.page ∧
      (updateReciprocalNeighbors support newNodeId nodeLevel selected index).nodes = index.nodes := by
  unfold updateReciprocalNeighbors
  generalize List.range (nodeLevel + 1) = levels
  induction levels generalizing index with
  | nil => exact ⟨rfl, rfl⟩
  | cons current rest ih =>
    have one := updateLevel_page support newNodeId (selected current) current index
    exact ⟨(ih _).1.trans one.1, (ih _).2.trans one.2⟩

/-- **What an insert does to the page and the nodes**: it appends a live node and writes the fields
of its update, or the generation is exhausted and both stay as they are. -/
theorem graphInsert_page (support : InsertSupport D) (new : NewNode) (index : GraphIndex) :
    let level := support.pickLevel index.page.nodeCount
    let inserted := (graphInsert support new index).1
    (index.page.graphGeneration = uint64Max ∧ inserted.page = index.page ∧
        inserted.nodes = index.nodes) ∨
      ∃ generation, index.page.graphGeneration ≠ uint64Max ∧
        inserted.page = { insertMetaUpdate index.page level with graphGeneration := generation } ∧
        inserted.nodes = index.nodes ++ [{ level, dead := false, code := new.code }] := by
  have linked : ∀ linked : GraphIndex, linked =
      (if 0 < index.page.nodeCount then
        updateReciprocalNeighbors support index.page.nodeCount
          (support.pickLevel index.page.nodeCount) new.selected index
      else index) → linked.page = index.page ∧ linked.nodes = index.nodes := by
    rintro _ rfl
    split_ifs
    · exact updateReciprocalNeighbors_page ..
    · exact ⟨rfl, rfl⟩
  dsimp only [graphInsert]
  generalize present : (if 0 < index.page.nodeCount then _ else _) = linkedIndex
  obtain ⟨samePage, sameNodes⟩ := linked linkedIndex present.symm
  rw [samePage]
  unfold updateMetaPageFromUpdate
  by_cases exhausted : index.page.graphGeneration = uint64Max
  · have failed : nextGeneration index.page = .error .generationExhausted := if_pos exhausted
    rw [failed]
    exact .inl ⟨exhausted, samePage, sameNodes⟩
  · obtain ⟨generation, advanced⟩ : ∃ generation, nextGeneration index.page = .ok generation :=
      ⟨_, if_neg exhausted⟩
    rw [advanced]
    refine .inr ⟨generation, exhausted, ?_, by
      simp [appendInserted, sameNodes, bind, Except.bind, pure, Except.pure]⟩
    have positive : 0 < (insertMetaUpdate index.page
        (support.pickLevel index.page.nodeCount)).nodeCount := Nat.succ_pos _
    simp only [bind, Except.bind, pure, Except.pure, positive, if_true]

end Reciprocal

/-! ### The entry of a build -/

/-- The entry of one range of a build: the first node of its order, then each of a higher level. -/
def buildEntryRange (level : Nat → Nat) : List Nat → Option Nat
  | [] => none
  | first :: rest =>
    some (rest.foldl (fun entry nodeId => if level entry < level nodeId then nodeId else entry) first)

/-- The entry over all ranges: a range's entry where its level is above the one so far. -/
def buildEntry (level : Nat → Nat) (ranges : List (List Nat)) : Option Nat :=
  ranges.foldl (fun entry range =>
    match buildEntryRange level range, entry with
    | some new, some old => if level old < level new then some new else some old
    | some new, none => some new
    | none, old => old) none

/-- A node of a list with the highest level of the list. -/
def IsHighest (level : Nat → Nat) (members : List Nat) (nodeId : Nat) : Prop :=
  nodeId ∈ members ∧ ∀ other ∈ members, level other ≤ level nodeId

theorem isHighest_append {level : Nat → Nat} {front back : List Nat} {one other : Nat}
    (first : IsHighest level front one) (second : IsHighest level back other) :
    IsHighest level (front ++ back) (if level one < level other then other else one) := by
  split_ifs with higher
  · refine ⟨List.mem_append_right _ second.1, fun nodeId member => ?_⟩
    rcases List.mem_append.mp member with old | new
    · exact (first.2 nodeId old).trans higher.le
    · exact second.2 nodeId new
  · refine ⟨List.mem_append_left _ first.1, fun nodeId member => ?_⟩
    rcases List.mem_append.mp member with old | new
    · exact first.2 nodeId old
    · exact (second.2 nodeId new).trans (not_lt.mp higher)

theorem buildEntryRange_highest {level : Nat → Nat} (range : List Nat) :
    (range = [] ∧ buildEntryRange level range = none) ∨
      ∃ entry, buildEntryRange level range = some entry ∧ IsHighest level range entry := by
  cases range with
  | nil => exact .inl ⟨rfl, rfl⟩
  | cons first rest =>
    refine .inr ⟨_, rfl, ?_⟩
    have grown (rest : List Nat) : ∀ (seen : List Nat) (entry : Nat), IsHighest level seen entry →
        IsHighest level (seen ++ rest) (rest.foldl (fun entry nodeId =>
          if level entry < level nodeId then nodeId else entry) entry) := by
      induction rest with
      | nil => exact fun seen entry highest => by simpa using highest
      | cons nodeId rest ih =>
        intro seen entry highest
        rw [List.foldl_cons, ← List.singleton_append, ← List.append_assoc]
        exact ih _ _ (isHighest_append highest
          ⟨List.mem_singleton_self _, fun other member => (List.mem_singleton.mp member) ▸ le_rfl⟩)
    exact grown rest [first] first
      ⟨List.mem_singleton_self _, fun other member => (List.mem_singleton.mp member) ▸ le_rfl⟩

/-- **The entry of a build** is a node of the highest level, and there is none only without nodes. -/
theorem buildEntry_highest {level : Nat → Nat} (ranges : List (List Nat)) :
    (ranges.flatten = [] ∧ buildEntry level ranges = none) ∨
      ∃ entry, buildEntry level ranges = some entry ∧ IsHighest level ranges.flatten entry := by
  have grown (ranges : List (List Nat)) : ∀ (seen : List Nat) (entry : Option Nat),
      (seen = [] ∧ entry = none ∨ ∃ old, entry = some old ∧ IsHighest level seen old) →
      let final := ranges.foldl (fun entry range =>
        match buildEntryRange level range, entry with
        | some new, some old => if level old < level new then some new else some old
        | some new, none => some new
        | none, old => old) entry
      seen ++ ranges.flatten = [] ∧ final = none ∨
        ∃ old, final = some old ∧ IsHighest level (seen ++ ranges.flatten) old := by
    induction ranges with
    | nil => exact fun seen entry before => by simpa using before
    | cons range rest ih =>
      intro seen entry before
      simp only [List.flatten_cons, List.foldl_cons]
      rw [← List.append_assoc]
      apply ih
      rcases buildEntryRange_highest range with ⟨rfl, none⟩ | ⟨new, found, newHighest⟩
      · rw [none, List.append_nil]
        exact before
      · right
        rw [found]
        rcases before with ⟨rfl, rfl⟩ | ⟨old, rfl, oldHighest⟩
        · exact ⟨new, rfl, newHighest⟩
        · refine ⟨_, ?_, isHighest_append oldHighest newHighest⟩
          dsimp only
          split_ifs <;> rfl
  exact grown ranges [] none (.inl ⟨rfl, rfl⟩)

end TurboHybrid.Graph
