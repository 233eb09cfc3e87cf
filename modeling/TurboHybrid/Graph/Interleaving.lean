/-
**Inserts interleaved with a bulk delete.**

An insert holds the update lock and a bulk delete the scan lock, so neither waits for the other.
Both write whole adjacency tuples from copies they loaded earlier, and the insert writes the page
from the reading it started with; the deletion's two updates of the page read and write it under the
page's lock.

* `nothingLost_of_unseen`: no update is lost in runs whose writes find what that side has read;
* `reciprocal_edge_lost`: a deletion that loads a tuple before and writes it after an insert.
-/
import TurboHybrid.Graph.Insert
import TurboHybrid.Library.Transition

set_option linter.unusedSectionVars false

namespace TurboHybrid.Graph

open TurboHybrid.Library

/-! ### The two sides -/

structure Edge where
  source : Nat
  level : Nat
  target : Nat
  deriving DecidableEq, Repr

def edgesOf (source level : Nat) (targets : List Nat) : List Edge :=
  targets.map fun target => { source, level, target }

/-- Where an insert stands: the neighbours still to link, then its own tuples, then the page. -/
inductive InsertPhase where
  | idle
  | linking (pending : List (Nat × Nat))
  | appending
  | publishing

/-- An insert: the page as it read it, the new node, and its copies of neighbours' lists and dead
flags, which may come from the backend's cache. -/
structure InsertSide where
  phase : InsertPhase
  read : Metapage
  new : NewNode
  copies : Nat → Nat → Option (List Nat)
  knownDead : Nat → Bool

inductive VacuumPhase where
  | idle
  | marking (next : Nat)
  | loading (cells : List (Nat × Nat))
  | writing (cells : List (Nat × Nat))
  | entries
  | generation

/-- A bulk delete: the page as it read it, what it knows of the nodes, and its copy of the
adjacency before and after the repair. -/
structure VacuumSide where
  phase : VacuumPhase
  read : Metapage
  callback : Nat → Bool
  nodes : VacuumNodes
  original : Adjacency
  repaired : Adjacency
  changed : Bool

/-- What was published and not knowingly replaced: an edge or an entry leaves the record when a side
that had read it writes something else in its place. -/
structure Published where
  edges : List Edge
  entries : List (Option Nat)
  nodeCounts : List Nat
  maxLevels : List Nat
  generations : List Nat

structure SharedGraph where
  index : GraphIndex
  insert : InsertSide
  vacuum : VacuumSide
  published : Published

/-- A list written over a cell by a side that had read a copy of it. -/
def Published.writeEdges (published : Published) (source level : Nat) (copy written : List Nat) :
    Published :=
  { published with
    edges := published.edges.filter (fun edge =>
        !(edge.source == source && edge.level == level && copy.contains edge.target)) ++
      edgesOf source level written }

/-- An entry written by a side that had read the one before. -/
def Published.writeEntry (published : Published) (read written : Option Nat) : Published :=
  { published with
    entries := published.entries.filter (· != read) ++ [written] }

def Published.writeCounters (published : Published) (page : Metapage) : Published :=
  { published with
    nodeCounts := page.nodeCount :: published.nodeCounts
    maxLevels := page.graphMaxLevel :: published.maxLevels
    generations := page.graphGeneration :: published.generations }

/-! ### The steps -/

section Steps

variable {D : Type} [LinearOrder D] (support : InsertSupport D)

/-- What a side loads from a cell, under the page it read. -/
def loadCell (read : Metapage) (index : GraphIndex) : Adjacency :=
  loadAdjTuple { index with page := read }

/-- The neighbours an insert links: level by level, in the order of the search. -/
def pendingLinks (nodeLevel : Nat) (selected : Nat → List Nat) : List (Nat × Nat) :=
  (List.range (nodeLevel + 1)).flatMap fun level => (selected level).map fun source => (source, level)

/-- An insert skips a neighbour that it takes for unknown, dead or below the level. -/
def skipsLink (side : InsertSide) (nodes : List GraphNode) (source level : Nat) : Bool :=
  decide (side.read.nodeCount ≤ source) || side.knownDead source ||
    decide (nodeLevel nodes source < level)

/-- What the repair works with: the nodes as the deletion marked and read them. -/
def VacuumSide.context (side : VacuumSide) (index : GraphIndex) : RepairContext :=
  { side.nodes with
    m := side.read.m
    nodeCount := side.read.nodeCount
    code := fun nodeId => (index.nodes[nodeId]?.map (·.code)).getD [] }

def VacuumSide.cells (side : VacuumSide) : List (Nat × Nat) :=
  (List.range side.read.nodeCount).flatMap fun nodeId =>
    (List.range (min (side.nodes.level nodeId + 1) (levelCapacity side.read.m))).map fun level =>
      (nodeId, level)

/-- The next nodes of the code pages: their flags are read and set. -/
def markNodes (side : VacuumSide) (nodes : List GraphNode) (next count : Nat) :
    List GraphNode × VacuumNodes :=
  let inside nodeId := decide (next ≤ nodeId) && decide (nodeId < next + count) &&
    decide (nodeId < side.read.nodeCount)
  let marked := markDead (fun nodeId => inside nodeId && side.callback nodeId) nodes
  (marked,
    { dead := fun nodeId => if inside nodeId then nodeDead marked nodeId else side.nodes.dead nodeId
      level := fun nodeId =>
        if inside nodeId then nodeLevel nodes nodeId else side.nodes.level nodeId })

inductive GraphEvent where
  | insertBegin (new : NewNode)
  | insertLoad (source level : Nat)
  | insertLink
  | insertAppend
  | insertPublish
  | vacuumBegin (callback : Nat → Bool)
  | vacuumMark (count : Nat)
  | vacuumLoad
  | vacuumWrite
  | vacuumEntries
  | vacuumGeneration

def insertStep (state : SharedGraph) : GraphEvent → Option SharedGraph
  | .insertBegin new =>
    match state.insert.phase with
    | .idle =>
      let read := state.index.page
      let pending :=
        if 0 < read.nodeCount then
          pendingLinks (support.pickLevel read.nodeCount) new.selected
        else []
      some { state with insert := { state.insert with phase := .linking pending, read, new } }
    | _ => none
  | .insertLoad source level =>
    some { state with
      insert := { state.insert with
        copies := fun other otherLevel =>
          if other = source ∧ otherLevel = level then
            some (loadCell state.insert.read state.index source level)
          else state.insert.copies other otherLevel
        knownDead := fun other =>
          if other = source then nodeDead state.index.nodes source
          else state.insert.knownDead other } }
  | .insertLink =>
    match state.insert.phase with
    | .linking [] => some { state with insert := { state.insert with phase := .appending } }
    | .linking ((source, level) :: rest) =>
      let side := { state.insert with phase := .linking rest }
      if skipsLink side state.index.nodes source level then some { state with insert := side }
      else
        (state.insert.copies source level).map fun copy =>
          let written := reciprocalNeighbors support (levelM side.read.m level)
            side.read.nodeCount source copy
          { state with
            index := { state.index with
              adjacency := state.index.adjacency.set source level written }
            insert := { side with
              copies := fun other otherLevel =>
                if other = source ∧ otherLevel = level then some written
                else side.copies other otherLevel }
            published := state.published.writeEdges source level copy written }
    | _ => none
  | .insertAppend =>
    match state.insert.phase with
    | .appending =>
      let newNodeId := state.insert.read.nodeCount
      some { state with
        index := appendInserted newNodeId (support.pickLevel newNodeId) state.insert.new state.index
        insert := { state.insert with phase := .publishing } }
    | _ => none
  | .insertPublish =>
    match state.insert.phase with
    | .publishing =>
      let read := state.insert.read
      let nodeLevel := support.pickLevel read.nodeCount
      let insert := { state.insert with phase := .idle }
      match updateMetaPageFromUpdate state.index.page (insertMetaUpdate read nodeLevel) with
      | .error _ => some { state with insert }
      | .ok page =>
        some { state with
          index := { state.index with page }
          insert
          published :=
            { (state.published.writeEntry read.entryNodeId page.entryNodeId).writeCounters page with
              edges := state.published.edges ++
                (List.range (min nodeLevel (levelCapacity read.m - 1) + 1)).flatMap fun level =>
                  edgesOf read.nodeCount level (state.insert.new.selected level) } }
    | _ => none
  | _ => none

def vacuumStep (state : SharedGraph) : GraphEvent → Option SharedGraph
  | .vacuumBegin callback =>
    match state.vacuum.phase with
    | .idle =>
      some { state with
        vacuum := { state.vacuum with
          phase := if state.index.page.nodeCount = 0 then .idle else .marking 0
          read := state.index.page, callback, changed := false
          nodes := { dead := fun _ => false, level := fun _ => 0 } } }
    | _ => none
  | .vacuumMark count =>
    match state.vacuum.phase with
    | .marking next =>
      let (nodes, known) := markNodes state.vacuum state.index.nodes next count
      let side := { state.vacuum with
        nodes := known
        changed := state.vacuum.changed || decide (nodes ≠ state.index.nodes) }
      let phase :=
        if next + count < side.read.nodeCount then .marking (next + count)
        else if (List.range side.read.nodeCount).any known.dead then .loading side.cells
        else .generation
      some { state with index := { state.index with nodes }, vacuum := { side with phase } }
    | _ => none
  | .vacuumLoad =>
    match state.vacuum.phase with
    | .loading [] =>
      let repaired := repairAdjacencyForDeadNodes (state.vacuum.context state.index)
        state.vacuum.original
      some { state with
        vacuum := { state.vacuum with
          repaired
          phase := .writing (state.vacuum.cells.filter fun cell =>
            decide (repaired cell.1 cell.2 ≠ state.vacuum.original cell.1 cell.2)) } }
    | .loading ((source, level) :: rest) =>
      some { state with
        vacuum := { state.vacuum with
          original := state.vacuum.original.set source level
            (loadCell state.vacuum.read state.index source level)
          phase := .loading rest } }
    | _ => none
  | .vacuumWrite =>
    match state.vacuum.phase with
    | .writing [] => some { state with vacuum := { state.vacuum with phase := .entries } }
    | .writing ((source, level) :: rest) =>
      let written := state.vacuum.repaired source level
      some { state with
        index := { state.index with
          adjacency := state.index.adjacency.set source level written }
        vacuum := { state.vacuum with phase := .writing rest, changed := true }
        published := state.published.writeEdges source level
          (state.vacuum.original source level) written }
    | _ => none
  | .vacuumEntries =>
    match state.vacuum.phase with
    | .entries =>
      let page := vacuumRepairEntries state.vacuum.nodes state.vacuum.read.nodeCount state.index.page
      some { state with
        index := { state.index with page }
        vacuum := { state.vacuum with
          phase := .generation
          changed := state.vacuum.changed || vacuumEntriesChanged state.vacuum.nodes
            state.vacuum.read.nodeCount state.index.page }
        published := state.published.writeEntry state.index.page.entryNodeId page.entryNodeId }
    | _ => none
  | .vacuumGeneration =>
    match state.vacuum.phase with
    | .generation =>
      let vacuum := { state.vacuum with phase := .idle }
      if state.vacuum.changed then
        match bumpMetaGeneration state.index.page with
        | .error _ => some { state with vacuum }
        | .ok page =>
          some { state with
            index := { state.index with page }
            vacuum
            published := state.published.writeCounters page }
      else some { state with vacuum }
    | _ => none
  | _ => none

/-- **A step of either side.** -/
def eventStep (state : SharedGraph) (event : GraphEvent) : Option SharedGraph :=
  (insertStep support state event).or (vacuumStep state event)

end Steps

/-! ### The property -/

/-- **No update is lost**: what was published and not knowingly replaced is there, no counter has
gone back, and no two publications share a generation. -/
structure NothingLost (state : SharedGraph) : Prop where
  edges : ∀ edge ∈ state.published.edges,
    edge.target ∈ state.index.adjacency edge.source edge.level
  entries : ∀ entry ∈ state.published.entries, state.index.page.entryNodeId = entry
  nodeCounts : ∀ count ∈ state.published.nodeCounts, count ≤ state.index.page.nodeCount
  maxLevels : ∀ level ∈ state.published.maxLevels, level ≤ state.index.page.graphMaxLevel
  generations : ∀ generation ∈ state.published.generations,
    generation ≤ state.index.page.graphGeneration
  generationsApart : state.published.generations.Pairwise (· > ·)

/-- The writes from a copy that find what the side has read: no reference in the cell is new to it,
and the entry is the one it read. -/
def FindsAsRead (state : SharedGraph) : GraphEvent → Prop
  | .insertLink => ∀ source level rest copy,
      state.insert.phase = .linking ((source, level) :: rest) →
      state.insert.copies source level = some copy →
      ∀ target ∈ state.index.adjacency source level, target ∈ copy
  | .vacuumWrite => ∀ source level rest, state.vacuum.phase = .writing ((source, level) :: rest) →
      ∀ target ∈ state.index.adjacency source level,
        target ∈ state.vacuum.original source level
  | .insertPublish => state.insert.phase matches .publishing →
      state.index.page.entryNodeId = state.insert.read.entryNodeId
  | _ => True

/-! ### Writes -/

section Writes

variable {published : Published} {adjacency : Adjacency} {page newPage : Metapage}

theorem writeEdges_present {source level : Nat} {copy written : List Nat}
    (present : ∀ edge ∈ published.edges, edge.target ∈ adjacency edge.source edge.level)
    (asRead : ∀ target ∈ adjacency source level, target ∈ copy) :
    ∀ edge ∈ (published.writeEdges source level copy written).edges,
      edge.target ∈ (adjacency.set source level written) edge.source edge.level := by
  intro edge member
  unfold Adjacency.set
  rcases List.mem_append.mp member with old | new
  · obtain ⟨standing, stays⟩ := List.mem_filter.mp old
    split_ifs with cell
    · have target := asRead edge.target (by rw [← cell.1, ← cell.2]; exact present edge standing)
      simp [cell.1, cell.2, target] at stays
    · exact present edge standing
  · obtain ⟨target, wrote, rfl⟩ := List.mem_map.mp new
    rw [if_pos ⟨rfl, rfl⟩]
    exact wrote

theorem writeEdges_source {source level bound : Nat} {copy written : List Nat}
    (sources : ∀ edge ∈ published.edges, edge.source < bound) (below : source < bound) :
    ∀ edge ∈ (published.writeEdges source level copy written).edges, edge.source < bound := by
  intro edge member
  rcases List.mem_append.mp member with old | new
  · exact sources edge (List.mem_filter.mp old).1
  · obtain ⟨target, -, rfl⟩ := List.mem_map.mp new
    exact below

theorem writeEntry_present {read written : Option Nat}
    (present : ∀ entry ∈ published.entries, page.entryNodeId = entry)
    (asRead : page.entryNodeId = read) :
    ∀ entry ∈ (published.writeEntry read written).entries, written = entry := by
  intro entry member
  rcases List.mem_append.mp member with old | new
  · obtain ⟨standing, stays⟩ := List.mem_filter.mp old
    rw [← present entry standing, asRead] at stays
    simp at stays
  · exact (List.mem_singleton.mp new).symm

theorem lt_of_nextGeneration {generation : Nat} (next : nextGeneration page = .ok generation) :
    page.graphGeneration < generation := by
  unfold nextGeneration at next
  split_ifs at next with exhausted zero
  · obtain rfl := Except.ok.inj next
    omega
  · obtain rfl := Except.ok.inj next
    omega

theorem updateMetaPageFromUpdate_counters {read : Metapage} {nodeLevel : Nat}
    (wrote : updateMetaPageFromUpdate page (insertMetaUpdate read nodeLevel) = .ok newPage) :
    newPage.nodeCount = read.nodeCount + 1 ∧
      newPage.graphMaxLevel = max read.graphMaxLevel nodeLevel ∧
      page.graphGeneration < newPage.graphGeneration := by
  unfold updateMetaPageFromUpdate at wrote
  cases advanced : nextGeneration page with
  | error error =>
    rw [advanced] at wrote
    cases wrote
  | ok generation =>
    rw [advanced] at wrote
    obtain rfl := Except.ok.inj wrote
    exact ⟨rfl, rfl, lt_of_nextGeneration advanced⟩

theorem bumpMetaGeneration_counters (wrote : bumpMetaGeneration page = .ok newPage) :
    ∃ generation, page.graphGeneration < generation ∧
      newPage = { page with graphGeneration := generation } := by
  unfold bumpMetaGeneration at wrote
  cases advanced : nextGeneration page with
  | error error =>
    rw [advanced] at wrote
    cases wrote
  | ok generation =>
    rw [advanced] at wrote
    obtain rfl := Except.ok.inj wrote
    exact ⟨generation, lt_of_nextGeneration advanced, rfl⟩

theorem writeCounters_present
    (nodeCounts : ∀ count ∈ published.nodeCounts, count ≤ page.nodeCount)
    (maxLevels : ∀ level ∈ published.maxLevels, level ≤ page.graphMaxLevel)
    (generations : ∀ generation ∈ published.generations, generation ≤ page.graphGeneration)
    (apart : published.generations.Pairwise (· > ·)) (counted : page.nodeCount ≤ newPage.nodeCount)
    (levels : page.graphMaxLevel ≤ newPage.graphMaxLevel)
    (later : page.graphGeneration < newPage.graphGeneration) :
    (∀ count ∈ (published.writeCounters newPage).nodeCounts, count ≤ newPage.nodeCount) ∧
      (∀ level ∈ (published.writeCounters newPage).maxLevels, level ≤ newPage.graphMaxLevel) ∧
      (∀ generation ∈ (published.writeCounters newPage).generations,
        generation ≤ newPage.graphGeneration) ∧
      (published.writeCounters newPage).generations.Pairwise (· > ·) := by
  refine ⟨fun count member => ?_, fun level member => ?_, fun generation member => ?_,
    List.pairwise_cons.mpr ⟨fun generation member => ?_, apart⟩⟩
  · rcases List.mem_cons.mp member with rfl | old
    · exact le_rfl
    · exact (nodeCounts count old).trans counted
  · rcases List.mem_cons.mp member with rfl | old
    · exact le_rfl
    · exact (maxLevels level old).trans levels
  · rcases List.mem_cons.mp member with rfl | old
    · exact le_rfl
    · exact (generations generation old).trans later.le
  · exact (generations generation member).trans_lt later

end Writes

/-! ### Runs -/

section Runs

variable {D : Type} [LinearOrder D] {support : InsertSupport D} {state next : SharedGraph}

/-- **What is kept along the way**: the counters stay those that a running insert has read, and both
sides write within the nodes they know. -/
structure Tracked (support : InsertSupport D) (state : SharedGraph) : Prop
    extends NothingLost state where
  sources : ∀ edge ∈ state.published.edges, edge.source < state.index.page.nodeCount
  running : state.insert.phase ≠ .idle →
    state.index.page.nodeCount = state.insert.read.nodeCount ∧
      state.index.page.graphMaxLevel = state.insert.read.graphMaxLevel ∧
      state.index.page.m = state.insert.read.m
  appended : state.insert.phase = .publishing →
    ∀ level ≤ min (support.pickLevel state.insert.read.nodeCount)
        (levelCapacity state.insert.read.m - 1),
      state.index.adjacency state.insert.read.nodeCount level = state.insert.new.selected level
  known : state.vacuum.phase ≠ .idle → state.vacuum.read.nodeCount ≤ state.index.page.nodeCount
  cells : ∀ cells, state.vacuum.phase = .writing cells →
    ∀ cell ∈ cells, cell.1 < state.vacuum.read.nodeCount

theorem insertBegin_tracked (tracked : Tracked support state) (new : NewNode)
    (stepped : insertStep support state (.insertBegin new) = some next) :
    Tracked support next := by
  unfold insertStep at stepped
  dsimp only at stepped
  split at stepped
  · obtain rfl := Option.some.inj stepped
    exact {
      toNothingLost := ⟨tracked.edges, tracked.entries, tracked.nodeCounts, tracked.maxLevels,
        tracked.generations, tracked.generationsApart⟩
      sources := tracked.sources
      running := fun _ => ⟨rfl, rfl, rfl⟩
      appended := fun publishing => by cases publishing
      known := tracked.known
      cells := tracked.cells }
  · cases stepped

theorem insertLink_tracked (tracked : Tracked support state)
    (asRead : FindsAsRead state .insertLink)
    (stepped : insertStep support state .insertLink = some next) : Tracked support next := by
  unfold insertStep at stepped
  dsimp only at stepped
  split at stepped
  case h_1 linking =>
    obtain rfl := Option.some.inj stepped
    exact {
      toNothingLost := ⟨tracked.edges, tracked.entries, tracked.nodeCounts, tracked.maxLevels,
        tracked.generations, tracked.generationsApart⟩
      sources := tracked.sources
      running := fun _ => tracked.running (by rw [linking]; exact InsertPhase.noConfusion)
      appended := fun publishing => by cases publishing
      known := tracked.known
      cells := tracked.cells }
  case h_2 source level rest linking =>
    have running := tracked.running (by rw [linking]; exact InsertPhase.noConfusion)
    split_ifs at stepped with skips
    · obtain rfl := Option.some.inj stepped
      exact {
        toNothingLost := ⟨tracked.edges, tracked.entries, tracked.nodeCounts, tracked.maxLevels,
          tracked.generations, tracked.generationsApart⟩
        sources := tracked.sources
        running := fun _ => running
        appended := fun publishing => by cases publishing
        known := tracked.known
        cells := tracked.cells }
    · obtain ⟨copy, copied, rfl⟩ := Option.map_eq_some_iff.mp stepped
      simp only [skipsLink, Bool.or_eq_true, decide_eq_true_eq, not_or, not_le] at skips
      exact {
        toNothingLost := ⟨writeEdges_present tracked.edges
          (asRead source level rest copy linking copied), tracked.entries, tracked.nodeCounts,
          tracked.maxLevels, tracked.generations, tracked.generationsApart⟩
        sources := writeEdges_source tracked.sources (running.1 ▸ skips.1.1)
        running := fun _ => running
        appended := fun publishing => by cases publishing
        known := tracked.known
        cells := tracked.cells }
  case h_3 => cases stepped

theorem insertAppend_tracked (tracked : Tracked support state)
    (stepped : insertStep support state .insertAppend = some next) : Tracked support next := by
  unfold insertStep at stepped
  dsimp only at stepped
  split at stepped
  case h_2 => cases stepped
  case h_1 appending =>
    obtain rfl := Option.some.inj stepped
    obtain ⟨counted, levels, sameM⟩ :=
      tracked.running (by rw [appending]; exact InsertPhase.noConfusion)
    exact {
      toNothingLost := {
        edges := fun edge member => by
          have below := tracked.sources edge member
          dsimp only [appendInserted]
          rw [if_neg fun new => by rw [new.1, counted] at below; exact lt_irrefl _ below]
          exact tracked.edges edge member
        entries := tracked.entries
        nodeCounts := tracked.nodeCounts
        maxLevels := tracked.maxLevels
        generations := tracked.generations
        generationsApart := tracked.generationsApart }
      sources := tracked.sources
      running := fun _ => ⟨counted, levels, sameM⟩
      appended := fun _ level low => by
        dsimp only [appendInserted]
        rw [if_pos ⟨rfl, sameM.symm ▸ low⟩]
      known := tracked.known
      cells := tracked.cells }

theorem insertPublish_tracked (tracked : Tracked support state)
    (asRead : FindsAsRead state .insertPublish)
    (stepped : insertStep support state .insertPublish = some next) : Tracked support next := by
  unfold insertStep at stepped
  dsimp only at stepped
  split at stepped
  case h_2 => cases stepped
  case h_1 publishing =>
    obtain ⟨counted, levels, sameM⟩ :=
      tracked.running (by rw [publishing]; exact InsertPhase.noConfusion)
    have sameEntry : state.index.page.entryNodeId = state.insert.read.entryNodeId :=
      asRead (by rw [publishing])
    split at stepped
    · obtain rfl := Option.some.inj stepped
      exact {
        toNothingLost := ⟨tracked.edges, tracked.entries, tracked.nodeCounts, tracked.maxLevels,
          tracked.generations, tracked.generationsApart⟩
        sources := tracked.sources
        running := fun idle => absurd rfl idle
        appended := fun publishing => by cases publishing
        known := tracked.known
        cells := tracked.cells }
    · rename_i page wrote
      obtain rfl := Option.some.inj stepped
      obtain ⟨newCount, newLevel, later⟩ := updateMetaPageFromUpdate_counters wrote
      have grown : state.index.page.nodeCount < page.nodeCount := by omega
      have raised : state.index.page.graphMaxLevel ≤ page.graphMaxLevel := by
        rw [newLevel, levels]
        exact le_max_left _ _
      obtain ⟨nodeCounts, maxLevels, generations, apart⟩ := writeCounters_present tracked.nodeCounts
        tracked.maxLevels tracked.generations tracked.generationsApart grown.le raised later
      have edgesAre (edge : Edge) (member : edge ∈ state.published.edges ++
          (List.range (min (support.pickLevel state.insert.read.nodeCount)
            (levelCapacity state.insert.read.m - 1) + 1)).flatMap fun level =>
              edgesOf state.insert.read.nodeCount level (state.insert.new.selected level)) :
          edge.target ∈ state.index.adjacency edge.source edge.level ∧
            edge.source < page.nodeCount := by
        rcases List.mem_append.mp member with old | new
        · exact ⟨tracked.edges edge old, (tracked.sources edge old).trans grown⟩
        · obtain ⟨level, low, inLevel⟩ := List.mem_flatMap.mp new
          obtain ⟨target, selected, rfl⟩ := List.mem_map.mp inLevel
          refine ⟨?_, ?_⟩
          · dsimp only
            rw [tracked.appended publishing level (Nat.lt_succ_iff.mp (List.mem_range.mp low))]
            exact selected
          · rw [newCount]
            exact Nat.lt_succ_self _
      exact {
        toNothingLost := {
          edges := fun edge member => (edgesAre edge member).1
          entries := writeEntry_present tracked.entries sameEntry
          nodeCounts := nodeCounts
          maxLevels := maxLevels
          generations := generations
          generationsApart := apart }
        sources := fun edge member => (edgesAre edge member).2
        running := fun idle => absurd rfl idle
        appended := fun publishing => by cases publishing
        known := fun active => (tracked.known active).trans grown.le
        cells := tracked.cells }

theorem insertStep_tracked (tracked : Tracked support state) {event : GraphEvent}
    (asRead : FindsAsRead state event) (stepped : insertStep support state event = some next) :
    Tracked support next := by
  cases event with
  | insertBegin new => exact insertBegin_tracked tracked new stepped
  | insertLoad source level =>
    obtain rfl := Option.some.inj stepped
    exact {
      toNothingLost := ⟨tracked.edges, tracked.entries, tracked.nodeCounts, tracked.maxLevels,
        tracked.generations, tracked.generationsApart⟩
      sources := tracked.sources
      running := tracked.running
      appended := tracked.appended
      known := tracked.known
      cells := tracked.cells }
  | insertLink => exact insertLink_tracked tracked asRead stepped
  | insertAppend => exact insertAppend_tracked tracked stepped
  | insertPublish => exact insertPublish_tracked tracked asRead stepped
  | vacuumBegin | vacuumMark | vacuumLoad | vacuumWrite | vacuumEntries | vacuumGeneration =>
    cases stepped

theorem vacuum_local_tracked (tracked : Tracked support state) (nodes : List GraphNode)
    (side : VacuumSide)
    (known : side.phase ≠ .idle → side.read.nodeCount ≤ state.index.page.nodeCount)
    (cells : ∀ cells, side.phase = .writing cells → ∀ cell ∈ cells, cell.1 < side.read.nodeCount) :
    Tracked support
      { state with index := { state.index with nodes }, vacuum := side } where
  toNothingLost := ⟨tracked.edges, tracked.entries, tracked.nodeCounts, tracked.maxLevels,
    tracked.generations, tracked.generationsApart⟩
  sources := tracked.sources
  running := tracked.running
  appended := tracked.appended
  known := known
  cells := cells

theorem vacuumMark_tracked (tracked : Tracked support state) (count : Nat)
    (stepped : vacuumStep state (.vacuumMark count) = some next) : Tracked support next := by
  unfold vacuumStep at stepped
  dsimp only at stepped
  split at stepped
  case h_2 => cases stepped
  case h_1 position marking =>
    obtain rfl := Option.some.inj stepped
    refine vacuum_local_tracked tracked _ _ (fun _ =>
      tracked.known (by rw [marking]; exact VacuumPhase.noConfusion)) fun cells writing => ?_
    dsimp only at writing
    split_ifs at writing

theorem vacuumLoad_tracked (tracked : Tracked support state)
    (stepped : vacuumStep state .vacuumLoad = some next) : Tracked support next := by
  unfold vacuumStep at stepped
  dsimp only at stepped
  split at stepped
  case h_3 => cases stepped
  case h_1 loading =>
    obtain rfl := Option.some.inj stepped
    refine vacuum_local_tracked tracked state.index.nodes _ (fun _ =>
      tracked.known (by rw [loading]; exact VacuumPhase.noConfusion)) fun cells writing cell member => ?_
    obtain rfl := VacuumPhase.writing.inj writing
    obtain ⟨nodeId, below, inNode⟩ := List.mem_flatMap.mp (List.mem_filter.mp member).1
    obtain ⟨level, -, rfl⟩ := List.mem_map.mp inNode
    exact List.mem_range.mp below
  case h_2 source level rest loading =>
    obtain rfl := Option.some.inj stepped
    exact vacuum_local_tracked tracked state.index.nodes _ (fun _ =>
      tracked.known (by rw [loading]; exact VacuumPhase.noConfusion))
      fun cells writing => by cases writing

theorem vacuumWrite_tracked (tracked : Tracked support state)
    (asRead : FindsAsRead state .vacuumWrite)
    (stepped : vacuumStep state .vacuumWrite = some next) : Tracked support next := by
  unfold vacuumStep at stepped
  dsimp only at stepped
  split at stepped
  case h_3 => cases stepped
  case h_1 writing =>
    obtain rfl := Option.some.inj stepped
    exact vacuum_local_tracked tracked state.index.nodes _ (fun _ =>
      tracked.known (by rw [writing]; exact VacuumPhase.noConfusion))
      fun cells writing => by cases writing
  case h_2 source level rest writing =>
    obtain rfl := Option.some.inj stepped
    have known := tracked.known (by rw [writing]; exact VacuumPhase.noConfusion)
    have below : source < state.vacuum.read.nodeCount :=
      tracked.cells _ writing (source, level) List.mem_cons_self
    exact {
      toNothingLost := ⟨writeEdges_present tracked.edges (asRead source level rest writing),
        tracked.entries, tracked.nodeCounts, tracked.maxLevels, tracked.generations,
        tracked.generationsApart⟩
      sources := writeEdges_source tracked.sources (below.trans_le known)
      running := tracked.running
      appended := fun publishing other low => by
        have counted := (tracked.running (by rw [publishing]; exact InsertPhase.noConfusion)).1
        dsimp only
        unfold Adjacency.set
        rw [if_neg fun same => by
          have apart := below.trans_le known
          rw [← same.1, counted] at apart
          exact lt_irrefl _ apart]
        exact tracked.appended publishing other low
      known := fun _ => known
      cells := fun cells rest cell member => by
        obtain rfl := VacuumPhase.writing.inj rest
        exact tracked.cells _ writing cell (List.mem_cons_of_mem _ member) }

theorem vacuumEntries_tracked (tracked : Tracked support state)
    (stepped : vacuumStep state .vacuumEntries = some next) : Tracked support next := by
  unfold vacuumStep at stepped
  dsimp only at stepped
  split at stepped
  case h_2 => cases stepped
  case h_1 entries =>
    obtain rfl := Option.some.inj stepped
    have known := tracked.known (by rw [entries]; exact VacuumPhase.noConfusion)
    obtain ⟨counted, levels, sameM, generation⟩ := vacuumRepairEntries_counters
      state.vacuum.nodes state.vacuum.read.nodeCount state.index.page
    exact {
      toNothingLost := {
        edges := tracked.edges
        entries := writeEntry_present tracked.entries rfl
        nodeCounts := fun count member => counted ▸ tracked.nodeCounts count member
        maxLevels := fun level member => levels ▸ tracked.maxLevels level member
        generations := fun other member => generation ▸ tracked.generations other member
        generationsApart := tracked.generationsApart }
      sources := fun edge member => counted ▸ tracked.sources edge member
      running := fun active => by
        rw [counted, levels, sameM]
        exact tracked.running active
      appended := tracked.appended
      known := fun _ => counted ▸ known
      cells := fun cells writing => by cases writing }

theorem vacuumGeneration_tracked (tracked : Tracked support state)
    (stepped : vacuumStep state .vacuumGeneration = some next) : Tracked support next := by
  unfold vacuumStep at stepped
  dsimp only at stepped
  split at stepped
  case h_2 => cases stepped
  case h_1 generation =>
    have idle : Tracked support { state with vacuum := { state.vacuum with phase := .idle } } :=
      vacuum_local_tracked tracked state.index.nodes { state.vacuum with phase := .idle }
        (fun active => absurd rfl active) fun cells writing => by cases writing
    split_ifs at stepped with changed
    · split at stepped
      · obtain rfl := Option.some.inj stepped
        exact idle
      · rename_i page wrote
        obtain rfl := Option.some.inj stepped
        obtain ⟨generation, later, rfl⟩ := bumpMetaGeneration_counters wrote
        have sameCount : state.index.page.nodeCount ≤
            { state.index.page with graphGeneration := generation }.nodeCount := le_rfl
        obtain ⟨nodeCounts, maxLevels, generations, apart⟩ := writeCounters_present
          tracked.nodeCounts tracked.maxLevels tracked.generations tracked.generationsApart sameCount
          le_rfl later
        exact {
          toNothingLost := ⟨tracked.edges, tracked.entries, nodeCounts, maxLevels, generations,
            apart⟩
          sources := tracked.sources
          running := tracked.running
          appended := tracked.appended
          known := fun active => absurd rfl active
          cells := fun cells writing => by cases writing }
    · obtain rfl := Option.some.inj stepped
      exact idle

theorem vacuumStep_tracked (tracked : Tracked support state) {event : GraphEvent}
    (asRead : FindsAsRead state event) (stepped : vacuumStep state event = some next) :
    Tracked support next := by
  cases event with
  | vacuumBegin callback =>
    unfold vacuumStep at stepped
    dsimp only at stepped
    split at stepped
    case h_2 => cases stepped
    case h_1 idle =>
      obtain rfl := Option.some.inj stepped
      refine vacuum_local_tracked tracked state.index.nodes _ (fun _ => le_rfl)
        fun cells writing => ?_
      dsimp only at writing
      split_ifs at writing
  | vacuumMark count => exact vacuumMark_tracked tracked count stepped
  | vacuumLoad => exact vacuumLoad_tracked tracked stepped
  | vacuumWrite => exact vacuumWrite_tracked tracked asRead stepped
  | vacuumEntries => exact vacuumEntries_tracked tracked stepped
  | vacuumGeneration => exact vacuumGeneration_tracked tracked stepped
  | insertBegin | insertLoad | insertLink | insertAppend | insertPublish => cases stepped

/-- **One step** that finds what its side has read keeps what is tracked. -/
theorem eventStep_tracked (tracked : Tracked support state) {event : GraphEvent}
    (asRead : FindsAsRead state event) (stepped : eventStep support state event = some next) :
    Tracked support next := by
  rcases Option.or_eq_some_iff.mp stepped with inserted | ⟨-, deleted⟩
  · exact insertStep_tracked tracked asRead inserted
  · exact vacuumStep_tracked tracked asRead deleted

def quietGraph (index : GraphIndex) : SharedGraph where
  index
  insert := {
    phase := .idle, read := index.page, new := { code := [], selected := fun _ => [] }
    copies := fun _ _ => none, knownDead := fun _ => false }
  vacuum := {
    phase := .idle, read := index.page, callback := fun _ => false
    nodes := { dead := fun _ => false, level := fun _ => 0 }
    original := fun _ _ => [], repaired := fun _ _ => [], changed := false }
  published := { edges := [], entries := [], nodeCounts := [], maxLevels := [], generations := [] }

theorem quietGraph_tracked (support : InsertSupport D) (index : GraphIndex) :
    Tracked support (quietGraph index) where
  toNothingLost := {
    edges := fun _ none => absurd none List.not_mem_nil
    entries := fun _ none => absurd none List.not_mem_nil
    nodeCounts := fun _ none => absurd none List.not_mem_nil
    maxLevels := fun _ none => absurd none List.not_mem_nil
    generations := fun _ none => absurd none List.not_mem_nil
    generationsApart := .nil }
  sources := fun _ none => absurd none List.not_mem_nil
  running := fun active => absurd rfl active
  appended := fun publishing => by cases publishing
  known := fun active => absurd rfl active
  cells := fun _ writing => by cases writing

/-- **No update is lost** in any interleaving of inserts and bulk deletes whose writes each find
what their side has read of the cell or of the entry. -/
theorem nothingLost_of_unseen {index : GraphIndex}
    (reached : ReachedBy (eventStep support) FindsAsRead (quietGraph index) state) :
    NothingLost state :=
  (reached.invariant (quietGraph_tracked support index)
    fun tracked asRead stepped => eventStep_tracked tracked asRead stepped).toNothingLost

end Runs

/-! ### A lost edge -/

/-- Three nodes of level 0, where nodes 0 and 2 refer to node 1 only. -/
def chainGraph : GraphIndex where
  page := {
    m := 16, nodeCount := 3, entryNodeId := some 0, entryLevel := 0, graphMaxLevel := 0
    graphGeneration := 1, segments := [], routingEntryNodeIds := [], entrySidecarNodeIds := [] }
  nodes := [0, 1, 2].map fun byte => { level := 0, dead := false, code := [byte] }
  adjacency nodeId level :=
    if level = 0 then
      match nodeId with
      | 0 => [1]
      | 1 => [0, 2]
      | 2 => [1]
      | _ => []
    else []

def chainSupport : InsertSupport Nat where
  pickLevel _ := 0
  distance _ _ := 0
  dblMax := 1

def nearFirst : NewNode where
  code := [0]
  selected level := if level = 0 then [0] else []

/-- The steps of an insert of that node up to its first link. -/
theorem nothingLost_after_link :
    ∃ state, state.index.adjacency 0 0 = [1, 3] ∧ NothingLost state := by
  have begun : ReachedBy (eventStep chainSupport) FindsAsRead (quietGraph chainGraph) _ :=
    .step .start (show FindsAsRead _ (.insertBegin nearFirst) from trivial)
      (show eventStep chainSupport _ (.insertBegin nearFirst) = some _ from rfl)
  have loaded := ReachedBy.step begun (show FindsAsRead _ (.insertLoad 0 0) from trivial)
    (show eventStep chainSupport _ (.insertLoad 0 0) = some _ from rfl)
  refine ⟨_, ?_, nothingLost_of_unseen (ReachedBy.step loaded ?_
    (show eventStep chainSupport _ .insertLink = some _ from rfl))⟩
  · rfl
  · intro source level rest copy linking copied target member
    obtain ⟨cell, -⟩ := List.cons.inj (InsertPhase.linking.inj linking)
    obtain ⟨rfl, rfl⟩ := Prod.mk.inj cell
    obtain rfl := Option.some.inj copied
    exact member

/-- A deletion of node 1 loads its copies, an insert links node 3 with node 0, and the deletion
writes its list of node 0 back: the edge is gone, and the deletion never saw it. -/
theorem reciprocal_edge_lost :
    ¬ ∀ state, Reached (eventStep chainSupport) (quietGraph chainGraph) state →
      NothingLost state := by
  intro always
  have ran : (runActions (eventStep chainSupport) (quietGraph chainGraph)
      [.vacuumBegin (· == 1), .vacuumMark 3, .vacuumLoad, .vacuumLoad, .vacuumLoad,
        .insertBegin nearFirst, .insertLoad 0 0, .insertLink, .insertLink, .insertAppend,
        .insertPublish, .vacuumLoad, .vacuumWrite, .vacuumWrite, .vacuumWrite, .vacuumEntries,
        .vacuumGeneration]).map (fun state =>
          (decide (⟨0, 0, 3⟩ ∈ state.published.edges), state.index.adjacency 0 0)) =
      some (true, [2]) := by decide +kernel
  obtain ⟨state, run, values⟩ := Option.map_eq_some_iff.mp ran
  obtain ⟨standing, list⟩ := Prod.mk.inj values
  have present := (always state (reached_of_run run)).edges _ (of_decide_eq_true standing)
  rw [list] at present
  exact absurd present (by decide)

end TurboHybrid.Graph
