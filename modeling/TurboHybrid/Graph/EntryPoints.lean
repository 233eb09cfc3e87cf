/-
**The entry points of a scan.**

A scan descends greedily from the entry of the metapage and starts the search of the lowest level
from the node it reaches and from others: the entries of the segments and the routing entries, of
which those of the highest levels are kept, then nodes in equal steps, nodes with the payload and
the representatives of the sidecar, of which the nearest are kept.

* `greedySearch_stable`: the descent of a level ends at a node none of whose neighbours is nearer;
* `offerDistanceEntry_step`: what one offer by distance does;
* `entryPoints_spec`: what every list of entry points is, and when it has the node of the descent;
* `entryPoints_dead`: it may have dead nodes, and not the node of the descent.
-/
import TurboHybrid.Graph.Results
import TurboHybrid.Graph.InsertShape
import TurboHybrid.Library.Descent
import Mathlib.Data.Finset.Card
import Mathlib.Data.Finset.Dedup

set_option linter.unusedSectionVars false

namespace TurboHybrid.Graph.Dense

open TurboHybrid.Library (nearerNodes nearerNodes_lt nearerNodes_length)

variable {D : Type} [LinearOrder D]

/-! ### The descent -/

/-- What the entry points are chosen from. An exact distance is there for the vectors of a high
dimension whose pages are cached. -/
structure EntryGraph (D : Type) where
  tqNodeCount : Nat
  tqEntryNodeId : Nat
  graphMaxLevel : Nat
  segmentEntryNodeIds : List Nat
  routingEntryNodeIds : List Nat
  entrySidecarNodeIds : List Nat
  level : Nat → Nat
  dead : Nat → Bool
  loadCodePage : Nat → Bool
  loadAdjPage : Nat → Nat → Bool
  neighbors : Nat → Nat → List Nat
  entryDistance : Nat → D
  scoreNode : Nat → D
  exactHighdimDistance : Nat → Option D
  dblMax : D

structure EntrySettings where
  hasQuery : Bool
  searchEf : Nat
  highdimL2 : Bool
  entrySampleCount : Nat
  payloadEntrySeeding : Bool
  payloadEntrySeedCount : Nat

/-- `PGTURBOHYBRID_GRAPH_MAX_ENTRY_POINTS`. -/
def maxEntryPoints : Nat := 16

section Traverse

variable (graph : EntryGraph D) (settings : EntrySettings)

def greedyDistance (nodeId : Nat) : D :=
  if settings.hasQuery then graph.entryDistance nodeId else graph.scoreNode nodeId

def greedyRound (level : Nat) (current : D × Nat) : D × Nat :=
  if graph.loadAdjPage current.2 level = false then current
  else
    let batch := (graph.neighbors current.2 level).filter fun neighbor =>
      decide (neighbor < graph.tqNodeCount) && graph.loadCodePage neighbor &&
        decide (level ≤ graph.level neighbor)
    batch.foldl (fun current neighbor =>
      if greedyDistance graph settings neighbor < current.1 then
        (greedyDistance graph settings neighbor, neighbor)
      else current) current

def greedyRounds (level : Nat) : Nat → D × Nat → D × Nat
  | 0, current => current
  | fuel + 1, current =>
    let next := greedyRound graph settings level current
    if next.1 < current.1 then greedyRounds level fuel next else current

/-- `PgturbohybridGraphScanGreedySearch`. -/
def greedySearch (entry : D × Nat) (level : Nat) : D × Nat :=
  greedyRounds graph settings level (graph.tqNodeCount + 1) entry

def startNode : Nat := if graph.tqEntryNodeId < graph.tqNodeCount then graph.tqEntryNodeId else 0

/-- The node reached by the descent through the levels. -/
def greedyDescent : D × Nat :=
  ((List.range' 1 graph.graphMaxLevel).reverse).foldl (fun entry level =>
    if level ≤ graph.level entry.2 then greedySearch graph settings entry level else entry)
    (graph.entryDistance (startNode graph), startNode graph)

/-! ### Entries by their levels -/

structure LevelEntry (D : Type) where
  item : D × Nat
  level : Nat

/-- The index of the worst entry, of several the first one's. -/
def worstIndex {α : Type} (worse : α → α → Bool) (entries : List α) : Nat :=
  (List.range' 1 (entries.length - 1)).foldl (fun worst i =>
    if entries[i]?.any (fun entry => entries[worst]?.any (worse entry)) then i else worst) 0

/-- The lower level, of two at one level the greater id. -/
def levelWorse (entry other : LevelEntry D) : Bool :=
  decide (entry.level < other.level ∨ entry.level = other.level ∧ other.item.2 < entry.item.2)

/-- `PgturbohybridGraphOfferLevelEntry`. -/
def offerLevelEntry (entries : List (LevelEntry D)) (nodeId : Nat) : List (LevelEntry D) :=
  let entry : LevelEntry D := ⟨(graph.dblMax, nodeId), graph.level nodeId⟩
  if nodeId ∈ entries.map (fun entry => entry.item.2) then entries
  else if entries.length < maxEntryPoints then entries ++ [entry]
  else
    let worst := worstIndex levelWorse entries
    if entries[worst]?.any (fun other => levelWorse other entry) then entries.set worst entry
    else entries

/-- The entries of the segments and the routing entries that are offered. -/
def alternatives (entryNodeId : Nat) : List Nat :=
  (graph.segmentEntryNodeIds.filter fun nodeId =>
    decide (nodeId ≠ entryNodeId) && decide (nodeId < graph.tqNodeCount) &&
      graph.loadCodePage nodeId) ++
  graph.routingEntryNodeIds.filter fun nodeId =>
    decide (nodeId ≠ entryNodeId) && decide (nodeId < graph.tqNodeCount) &&
      graph.loadCodePage nodeId && !graph.dead nodeId && decide (0 < graph.level nodeId)

def levelEntries (entry : D × Nat) : List (LevelEntry D) :=
  (alternatives graph entry.2).foldl (offerLevelEntry graph) [⟨entry, graph.level entry.2⟩]

def scoreEntries : List (LevelEntry D) → List (D × Nat)
  | [] => []
  | first :: rest =>
    first.item :: rest.map fun entry =>
      if graph.loadCodePage entry.item.2 then (graph.scoreNode entry.item.2, entry.item.2)
      else entry.item

/-! ### Entries by their distances -/

/-- `PgturbohybridGraphOfferDistanceEntry`; the ids of the entries are distinct. -/
def offerDistanceEntry (entries : List (D × Nat)) (entry : D × Nat) : List (D × Nat) :=
  if entry.2 ∈ entries.map Prod.snd then
    entries.map fun other =>
      if other.2 = entry.2 then (min other.1 entry.1, other.2) else other
  else if entries.length < maxEntryPoints then entries ++ [entry]
  else
    let worst := worstIndex (fun entry other => decide (entry.1 > other.1)) entries
    if entries[worst]?.any (fun other => decide (entry.1 < other.1)) then entries.set worst entry
    else entries

/-- The nodes of a list that are no entries yet, each once. -/
def collectNew (entries : List (D × Nat)) (candidates : List Nat) : List Nat :=
  candidates.foldl (fun collected nodeId =>
    if nodeId ∈ entries.map Prod.snd ∨ nodeId ∈ collected ∨ graph.tqNodeCount ≤ nodeId ∨
        graph.loadCodePage nodeId = false then collected
    else collected ++ [nodeId]) []

def equalSteps (count length : Nat) : List Nat :=
  (List.range count).map fun i => if count = 1 then 0 else i * (length - 1) / (count - 1)

def entrySampleCount : Nat :=
  let sampleTarget :=
    if settings.highdimL2 then max maxEntryPoints (settings.searchEf / 4) else settings.searchEf
  if 0 < settings.entrySampleCount then min graph.tqNodeCount settings.entrySampleCount
  else min graph.tqNodeCount (min 608 (max sampleTarget maxEntryPoints))

def offerSamples (entries : List (D × Nat)) : List (D × Nat) :=
  if graph.tqNodeCount ≤ 1 then entries
  else
    let sampled := collectNew graph entries
      (equalSteps (entrySampleCount graph settings) graph.tqNodeCount)
    (sortNearest (sampled.map fun nodeId =>
      ((graph.exactHighdimDistance nodeId).getD (graph.scoreNode nodeId), nodeId))).foldl
      offerDistanceEntry entries

/-- Nodes that are scored and offered in their order. -/
def offerScored (candidates : List Nat) (entries : List (D × Nat)) : List (D × Nat) :=
  ((collectNew graph entries candidates).map fun nodeId =>
    (graph.scoreNode nodeId, nodeId)).foldl offerDistanceEntry entries

/-- The nodes in equal steps of the references of a payload. -/
def payloadSeeds (payloadNodes : List Nat) : List Nat :=
  if settings.payloadEntrySeeding = false then []
  else
    (equalSteps (min (min settings.payloadEntrySeedCount 64) payloadNodes.length)
      payloadNodes.length).filterMap fun offset => payloadNodes[offset]?

/-- **The entry points in `PgturbohybridGraphTraverse`**, with the nodes of the payload's
references; none if the first node cannot be loaded. -/
def entryPoints (payloadNodes : List Nat) : Option (List (D × Nat)) :=
  if graph.tqNodeCount = 0 ∨ graph.loadCodePage (startNode graph) = false then none
  else
    let entries := scoreEntries graph (levelEntries graph (greedyDescent graph settings))
    let entries := offerSamples graph settings entries
    let entries := offerScored graph (payloadSeeds settings payloadNodes) entries
    some (offerScored graph graph.entrySidecarNodeIds entries)

end Traverse

/-! ### The descent ends at a nearest neighbour -/

section Descent

variable {graph : EntryGraph D} {settings : EntrySettings}

/-- **One round** stays or comes nearer, to a node that was scored. -/
theorem greedyRound_spec (level : Nat) (current : D × Nat) :
    greedyRound graph settings level current = current ∨
      ((greedyRound graph settings level current).1 < current.1 ∧
        (greedyRound graph settings level current).2 < graph.tqNodeCount ∧
        graph.loadCodePage (greedyRound graph settings level current).2 = true ∧
        (greedyRound graph settings level current).1 =
          greedyDistance graph settings (greedyRound graph settings level current).2) := by
  unfold greedyRound
  split_ifs
  · exact Or.inl rfl
  · refine List.foldlRecOn _ _ (motive := fun next : D × Nat => next = current ∨
      (next.1 < current.1 ∧ next.2 < graph.tqNodeCount ∧ graph.loadCodePage next.2 = true ∧
        next.1 = greedyDistance graph settings next.2)) (Or.inl rfl) ?_
    intro next before neighbor member
    have scored := (List.mem_filter.mp member).2
    simp only [Bool.and_eq_true, decide_eq_true_eq] at scored
    split_ifs with nearer
    · refine Or.inr ⟨?_, scored.1.1, scored.1.2, rfl⟩
      exact before.elim (fun same => same ▸ nearer) fun next => nearer.trans next.1
    · exact before

theorem greedyRounds_stable (level fuel : Nat) (current : D × Nat)
    (enough : (nearerNodes (fun nodeId => some (greedyDistance graph settings nodeId))
      graph.tqNodeCount current.1).length < fuel) :
    ¬(greedyRound graph settings level (greedyRounds graph settings level fuel current)).1 <
      (greedyRounds graph settings level fuel current).1 := by
  induction fuel generalizing current with
  | zero => exact absurd enough (Nat.not_lt_zero _)
  | succ fuel ih =>
    rw [greedyRounds]
    split_ifs with nearer
    · rcases greedyRound_spec level current with same | ⟨-, inside, -, distance⟩
      · rw [same] at nearer
        exact absurd nearer (lt_irrefl _)
      · refine ih _ (lt_of_lt_of_le (nearerNodes_lt inside ?_ nearer) (Nat.lt_succ_iff.mp enough))
        exact congrArg some distance.symm
    · exact nearer

/-- **The search of a level ends** at a node none of whose neighbours is nearer. -/
theorem greedySearch_stable (entry : D × Nat) (level : Nat) :
    ¬(greedyRound graph settings level (greedySearch graph settings entry level)).1 <
      (greedySearch graph settings entry level).1 :=
  greedyRounds_stable level _ entry (nearerNodes_length _ _ _)

/-- A node with a distance that was computed for it. -/
structure Measured (graph : EntryGraph D) (entry : D × Nat) : Prop where
  inside : entry.2 < graph.tqNodeCount
  loads : graph.loadCodePage entry.2 = true
  distance : entry.1 = graph.entryDistance entry.2 ∨ entry.1 = graph.scoreNode entry.2 ∨
    graph.exactHighdimDistance entry.2 = some entry.1

theorem greedyRounds_measured (level fuel : Nat) {current : D × Nat}
    (measured : Measured graph current) :
    Measured graph (greedyRounds graph settings level fuel current) := by
  induction fuel generalizing current with
  | zero => exact measured
  | succ fuel ih =>
    rw [greedyRounds]
    split_ifs
    · refine ih ?_
      rcases greedyRound_spec level current with same | ⟨-, inside, loads, distance⟩
      · rw [same]
        exact measured
      · refine ⟨inside, loads, ?_⟩
        rw [greedyDistance] at distance
        split_ifs at distance
        · exact Or.inl distance
        · exact Or.inr (Or.inl distance)
    · exact measured

theorem greedyDescent_measured (some_ : 0 < graph.tqNodeCount)
    (loads : graph.loadCodePage (startNode graph) = true) :
    Measured graph (greedyDescent graph settings) := by
  have start : startNode graph < graph.tqNodeCount := by
    unfold startNode
    split_ifs with inside
    · exact inside
    · exact some_
  refine List.foldlRecOn _ _ (motive := Measured graph) ⟨start, loads, Or.inl rfl⟩ ?_
  intro entry measured level _
  split_ifs
  · exact greedyRounds_measured level _ measured
  · exact measured

end Descent

/-! ### The worst entry -/

section Worst

variable {α K : Type} [LinearOrder K] {rank : α → K} {worse : α → α → Bool}

/-- **The worst entry** has the least rank. -/
theorem worstIndex_spec (ranks : ∀ one other, worse one other = true ↔ rank one < rank other)
    {entries : List α} (some_ : entries ≠ []) :
    ∃ worst, entries[worstIndex worse entries]? = some worst ∧
      ∀ entry ∈ entries, rank worst ≤ rank entry := by
  have run (count : Nat) (inside : count < entries.length) :
      ∃ worst, entries[(List.range' 1 count).foldl (fun worst i =>
          if entries[i]?.any (fun entry => entries[worst]?.any (worse entry)) then i else worst)
          0]? = some worst ∧
        ∀ i ≤ count, ∀ entry, entries[i]? = some entry → rank worst ≤ rank entry := by
    induction count with
    | zero =>
      refine ⟨entries[0], List.getElem?_eq_getElem inside, fun i zero entry here => ?_⟩
      obtain rfl : i = 0 := Nat.le_zero.mp zero
      rw [List.getElem?_eq_getElem inside] at here
      exact (Option.some.inj here ▸ le_rfl)
    | succ count ih =>
      obtain ⟨worst, found, below⟩ := ih (Nat.lt_of_succ_lt inside)
      rw [List.range'_1_concat, List.foldl_append, List.foldl_cons, List.foldl_nil]
      generalize (List.range' 1 count).foldl _ 0 = chosen at found
      have next : entries[1 + count]? = some entries[1 + count] :=
        List.getElem?_eq_getElem (by omega)
      rw [found, next, Option.any_some, Option.any_some]
      have last {i : Nat} (within : i ≤ count + 1) : i ≤ count ∨ i = 1 + count := by omega
      split_ifs with less
      · refine ⟨_, next, fun i within entry here => ?_⟩
        rcases last within with early | rfl
        · exact ((ranks _ _).mp less).le.trans (below i early entry here)
        · exact (Option.some.inj (next.symm.trans here) ▸ le_rfl)
      · refine ⟨worst, found, fun i within entry here => ?_⟩
        rcases last within with early | rfl
        · exact below i early entry here
        · rw [ranks, not_lt] at less
          exact Option.some.inj (next.symm.trans here) ▸ less
  have positive : 0 < entries.length := List.length_pos_iff.mpr some_
  obtain ⟨worst, found, below⟩ := run (entries.length - 1) (by omega)
  refine ⟨worst, found, fun entry member => ?_⟩
  obtain ⟨i, inside, rfl⟩ := List.getElem_of_mem member
  exact below i (by omega) _ (List.getElem?_eq_getElem inside)

end Worst

/-! ### Entries by their levels -/

section Levels

variable {graph : EntryGraph D}

/-- What an entry is kept for: its level, then its small id. -/
def LevelEntry.rank (entry : LevelEntry D) : Nat ×ₗ Natᵒᵈ :=
  toLex (entry.level, OrderDual.toDual entry.item.2)

theorem levelWorse_iff (entry other : LevelEntry D) :
    levelWorse entry other = true ↔ entry.rank < other.rank := by
  rw [levelWorse, decide_eq_true_iff, LevelEntry.rank, LevelEntry.rank, Prod.Lex.toLex_lt_toLex]
  rfl

def nodesOf (entries : List (LevelEntry D)) : List Nat := entries.map fun entry => entry.item.2

/-- A node that comes before another one by its level. -/
def outranks (graph : EntryGraph D) (nodeId other : Nat) : Bool :=
  decide (graph.level nodeId < graph.level other ∨
    graph.level nodeId = graph.level other ∧ other < nodeId)

def better (graph : EntryGraph D) (nodeId : Nat) : Finset Nat :=
  ((alternatives graph nodeId).filter (outranks graph nodeId)).toFinset

/-- **What the entries are** while they are offered by their levels. -/
structure LevelEntries (graph : EntryGraph D) (descent : D × Nat) (entries : List (LevelEntry D)) :
    Prop where
  some_ : 0 < entries.length
  bounded : entries.length ≤ maxEntryPoints
  nodup : (nodesOf entries).Nodup
  levels : ∀ entry ∈ entries, entry.level = graph.level entry.item.2
  offered : ∀ entry ∈ entries, entry.item.2 = descent.2 ∨
    entry.item.2 ∈ alternatives graph descent.2
  first : (better graph descent.2).card < maxEntryPoints →
    entries[0]? = some ⟨descent, graph.level descent.2⟩

variable {descent : D × Nat} {entries : List (LevelEntry D)}

/-- The first entry is not the worst one while fewer than all alternatives outrank it. -/
theorem LevelEntries.worst_ne_first (kept : LevelEntries graph descent entries)
    (full : maxEntryPoints ≤ entries.length) {nodeId : Nat} (new : nodeId ∉ nodesOf entries)
    (offered : nodeId ∈ alternatives graph descent.2) {worst : LevelEntry D}
    (found : entries[worstIndex levelWorse entries]? = some worst)
    (least : ∀ entry ∈ entries, worst.rank ≤ entry.rank)
    (replaced : levelWorse worst ⟨(graph.dblMax, nodeId), graph.level nodeId⟩ = true)
    (few : (better graph descent.2).card < maxEntryPoints) :
    worstIndex levelWorse entries ≠ 0 := by
  intro first
  have head := kept.first few
  rw [first, head] at found
  obtain rfl := Option.some.inj found
  obtain ⟨rest, split⟩ : ∃ rest, entries = ⟨descent, graph.level descent.2⟩ :: rest := by
    cases entries with
    | nil => exact absurd kept.some_ (Nat.lt_irrefl 0)
    | cons one rest => exact ⟨rest, congrArg (· :: rest) (Option.some.inj head)⟩
  have apart := kept.nodup
  rw [split] at apart new least full
  have before {entry : LevelEntry D} (level : entry.level = graph.level entry.item.2)
      (less : LevelEntry.rank ⟨descent, graph.level descent.2⟩ < entry.rank) :
      outranks graph descent.2 entry.item.2 = true := by
    rw [← levelWorse_iff] at less
    simpa only [levelWorse, outranks, level] using less
  -- the other entries and the new node all outrank the first one
  have inside : nodeId :: nodesOf rest ⊆ (alternatives graph descent.2).filter
      (outranks graph descent.2) := by
    intro other member
    rcases List.mem_cons.mp member with rfl | old
    · refine List.mem_filter.mpr ⟨offered, ?_⟩
      exact @before ⟨(graph.dblMax, other), graph.level other⟩ rfl
        ((levelWorse_iff _ _).mp replaced)
    · obtain ⟨entry, here, rfl⟩ := List.mem_map.mp old
      have elsewhere : entry.item.2 ≠ descent.2 :=
        fun same => (List.nodup_cons.mp apart).1 (List.mem_map.mpr ⟨entry, here, same⟩)
      have listed : entry ∈ entries := split ▸ List.mem_cons_of_mem _ here
      refine List.mem_filter.mpr ⟨(kept.offered entry listed).resolve_left elsewhere, ?_⟩
      refine before (kept.levels entry listed) (lt_of_le_of_ne ?_ fun same => ?_)
      · exact least entry (List.mem_cons_of_mem _ here)
      · exact elsewhere (congrArg (fun key : Nat ×ₗ Natᵒᵈ => OrderDual.ofDual (ofLex key).2)
          same).symm
  have distinct : (nodeId :: nodesOf rest).Nodup :=
    List.nodup_cons.mpr ⟨fun old => new (List.mem_cons_of_mem _ old), (List.nodup_cons.mp apart).2⟩
  have many : (nodeId :: nodesOf rest).length ≤ (better graph descent.2).card := by
    rw [← List.toFinset_card_of_nodup distinct]
    exact Finset.card_le_card fun other member =>
      List.mem_toFinset.mpr (inside (List.mem_toFinset.mp member))
  rw [List.length_cons, nodesOf, List.length_map] at many
  rw [List.length_cons] at full
  exact absurd (full.trans many) (Nat.not_le.mpr few)

/-- **One offer by level.** -/
theorem LevelEntries.offer (kept : LevelEntries graph descent entries) {nodeId : Nat}
    (offered : nodeId ∈ alternatives graph descent.2) :
    LevelEntries graph descent (offerLevelEntry graph entries nodeId) := by
  unfold offerLevelEntry
  dsimp only
  split_ifs with old room takes
  · exact kept
  · refine ⟨?_, ?_, ?_, ?_, ?_, fun few => ?_⟩
    · rw [List.length_append]
      exact Nat.lt_add_right _ kept.some_
    · rw [List.length_append]
      exact room
    · rw [nodesOf, List.map_append]
      refine kept.nodup.append (List.nodup_singleton _) fun other here last => ?_
      obtain rfl : other = nodeId := List.mem_singleton.mp last
      exact old here
    · intro entry member
      rcases List.mem_append.mp member with here | last
      · exact kept.levels entry here
      · rw [List.mem_singleton.mp last]
    · intro entry member
      rcases List.mem_append.mp member with here | last
      · exact kept.offered entry here
      · rw [List.mem_singleton.mp last]
        exact Or.inr offered
    · rw [List.getElem?_append_left kept.some_]
      exact kept.first few
  · obtain ⟨worst, found, least⟩ := worstIndex_spec levelWorse_iff
      (List.length_pos_iff.mp kept.some_)
    rw [found, Option.any_some] at takes
    refine ⟨?_, ?_, ?_, ?_, ?_, fun few => ?_⟩
    · rw [List.length_set]
      exact kept.some_
    · rw [List.length_set]
      exact kept.bounded
    · rw [nodesOf, List.map_set]
      exact kept.nodup.set old
    · intro entry member
      rcases List.mem_or_eq_of_mem_set member with here | rfl
      · exact kept.levels entry here
      · rfl
    · intro entry member
      rcases List.mem_or_eq_of_mem_set member with here | rfl
      · exact kept.offered entry here
      · exact Or.inr offered
    · rw [List.getElem?_set_ne (kept.worst_ne_first (Nat.not_lt.mp room) old offered found least
        takes few)]
      exact kept.first few
  · exact kept

theorem levelEntries_spec (graph : EntryGraph D) (descent : D × Nat) :
    LevelEntries graph descent (levelEntries graph descent) := by
  refine List.foldlRecOn _ _ (motive := LevelEntries graph descent) ?_
    fun entries kept nodeId offered => kept.offer offered
  refine ⟨Nat.one_pos, Nat.le_of_ble_eq_true rfl, List.nodup_singleton _, ?_, ?_, fun _ => rfl⟩
  · intro entry member
    rw [List.mem_singleton.mp member]
  · intro entry member
    rw [List.mem_singleton.mp member]
    exact Or.inl rfl

theorem alternatives_loads {entryNodeId nodeId : Nat}
    (member : nodeId ∈ alternatives graph entryNodeId) :
    nodeId < graph.tqNodeCount ∧ graph.loadCodePage nodeId = true := by
  rcases List.mem_append.mp member with segment | routing
  · have kept := (List.mem_filter.mp segment).2
    simp only [Bool.and_eq_true, decide_eq_true_eq] at kept
    exact ⟨kept.1.2, kept.2⟩
  · have kept := (List.mem_filter.mp routing).2
    simp only [Bool.and_eq_true, decide_eq_true_eq] at kept
    exact ⟨kept.1.1.1.2, kept.1.1.2⟩

end Levels

/-! ### Entries by their distances -/

section Distances

variable {graph : EntryGraph D} {entries : List (D × Nat)}

/-- **One offer by distance**: the entry is known, or appended, or takes the place of a farthest one
that it is nearer than. -/
theorem offerDistanceEntry_step (entries : List (D × Nat)) (entry : D × Nat) :
    (entry.2 ∈ entries.map Prod.snd ∧ offerDistanceEntry entries entry =
      entries.map fun other =>
        if other.2 = entry.2 then (min other.1 entry.1, other.2) else other) ∨
    (entry.2 ∉ entries.map Prod.snd ∧ entries.length < maxEntryPoints ∧
      offerDistanceEntry entries entry = entries ++ [entry]) ∨
    (entry.2 ∉ entries.map Prod.snd ∧ maxEntryPoints ≤ entries.length ∧
      ∃ i worst, entries[i]? = some worst ∧ (∀ other ∈ entries, other.1 ≤ worst.1) ∧
        entry.1 < worst.1 ∧ offerDistanceEntry entries entry = entries.set i entry) ∨
    offerDistanceEntry entries entry = entries := by
  have ranks (one other : D × Nat) : decide (one.1 > other.1) = true ↔
      OrderDual.toDual one.1 < OrderDual.toDual other.1 := by
    rw [decide_eq_true_iff]
    rfl
  unfold offerDistanceEntry
  dsimp only
  split_ifs with old room takes
  · exact Or.inl ⟨old, rfl⟩
  · exact Or.inr (Or.inl ⟨old, room, rfl⟩)
  · have some_ : entries ≠ [] := by
      rintro rfl
      exact room (Nat.zero_lt_succ 15)
    obtain ⟨worst, found, least⟩ := worstIndex_spec ranks some_
    rw [found, Option.any_some, decide_eq_true_iff] at takes
    exact Or.inr (Or.inr (Or.inl ⟨old, Nat.not_lt.mp room, _, worst, found,
      fun other member => least other member, takes, rfl⟩))
  · exact Or.inr (Or.inr (Or.inr rfl))

/-- **What entries are**: few, distinct, with pages that can be loaded. -/
structure Entries (graph : EntryGraph D) (entries : List (D × Nat)) : Prop where
  bounded : entries.length ≤ maxEntryPoints
  nodup : (entries.map Prod.snd).Nodup
  loads : ∀ nodeId ∈ entries.map Prod.snd,
    nodeId < graph.tqNodeCount ∧ graph.loadCodePage nodeId = true

theorem Entries.offer (kept : Entries graph entries) {entry : D × Nat}
    (loads : entry.2 < graph.tqNodeCount ∧ graph.loadCodePage entry.2 = true) :
    Entries graph (offerDistanceEntry entries entry) := by
  rcases offerDistanceEntry_step entries entry with ⟨-, known⟩ | ⟨new, room, added⟩ |
    ⟨new, -, i, worst, -, -, -, replaced⟩ | same
  · have names : (entries.map fun other =>
        if other.2 = entry.2 then (min other.1 entry.1, other.2) else other).map Prod.snd =
        entries.map Prod.snd := by
      rw [List.map_map]
      refine List.map_congr_left fun other _ => ?_
      rw [Function.comp_apply]
      split_ifs <;> rfl
    rw [known]
    refine ⟨?_, names ▸ kept.nodup, names ▸ kept.loads⟩
    rw [List.length_map]
    exact kept.bounded
  · rw [added]
    refine ⟨?_, ?_, fun nodeId member => ?_⟩
    · rw [List.length_append]
      exact room
    · rw [List.map_append]
      refine kept.nodup.append (List.nodup_singleton _) fun nodeId here last => ?_
      obtain rfl : nodeId = entry.2 := List.mem_singleton.mp last
      exact new here
    · rw [List.map_append] at member
      rcases List.mem_append.mp member with here | last
      · exact kept.loads nodeId here
      · obtain rfl : nodeId = entry.2 := List.mem_singleton.mp last
        exact loads
  · rw [replaced]
    refine ⟨?_, ?_, fun nodeId member => ?_⟩
    · rw [List.length_set]
      exact kept.bounded
    · rw [List.map_set]
      exact kept.nodup.set new
    · rw [List.map_set] at member
      rcases List.mem_or_eq_of_mem_set member with here | rfl
      · exact kept.loads nodeId here
      · exact loads
  · rw [same]
    exact kept

/-- **The node of the descent** is an entry, or nearer ones took all places. -/
def Reaches (descent : D × Nat) (entries : List (D × Nat)) : Prop :=
  (descent.2 ∈ entries.map Prod.snd ∧ ∀ entry ∈ entries, entry.2 = descent.2 →
    entry.1 ≤ descent.1) ∨
  (entries.length = maxEntryPoints ∧ (∀ entry ∈ entries, entry.1 ≤ descent.1) ∧
    ∃ entry ∈ entries, entry.1 < descent.1)

/-- Every entry has a distance computed for it, and the node of the descent is not lost. -/
structure Scored (graph : EntryGraph D) (descent : D × Nat) (entries : List (D × Nat)) : Prop where
  measured : ∀ entry ∈ entries, Measured graph entry
  reaches : Reaches descent entries

theorem min_measured {entry other : D × Nat} (one : Measured graph entry)
    (two : Measured graph other) (same : other.2 = entry.2) :
    Measured graph (min other.1 entry.1, other.2) := by
  rcases le_total other.1 entry.1 with less | less
  · rw [min_eq_left less]
    exact two
  · rw [min_eq_right less, same]
    exact one

variable {descent : D × Nat}

theorem Reaches.offer (bounded : entries.length ≤ maxEntryPoints)
    (reaches : Reaches descent entries) (entry : D × Nat) :
    Reaches descent (offerDistanceEntry entries entry) := by
  rcases offerDistanceEntry_step entries entry with ⟨-, known⟩ | ⟨new, room, added⟩ |
    ⟨new, full, i, worst, found, farthest, nearer, replaced⟩ | same
  · rw [known]
    have lower (other : D × Nat) : (if other.2 = entry.2 then (min other.1 entry.1, other.2)
        else other).1 ≤ other.1 ∧ (if other.2 = entry.2 then (min other.1 entry.1, other.2)
        else other).2 = other.2 := by
      split_ifs
      · exact ⟨min_le_left _ _, rfl⟩
      · exact ⟨le_rfl, rfl⟩
    rcases reaches with ⟨here, near⟩ | ⟨full, near, other, member, less⟩
    · refine Or.inl ⟨?_, fun other member => ?_⟩
      · obtain ⟨other, member, same⟩ := List.mem_map.mp here
        rw [List.map_map]
        exact List.mem_map.mpr ⟨other, member, (lower other).2.trans same⟩
      · obtain ⟨old, listed, rfl⟩ := List.mem_map.mp member
        exact fun same => (lower old).1.trans (near old listed ((lower old).2.symm.trans same))
    · refine Or.inr ⟨?_, fun other member => ?_, _, List.mem_map_of_mem member,
        (lower other).1.trans_lt less⟩
      · rw [List.length_map]
        exact full
      · obtain ⟨old, listed, rfl⟩ := List.mem_map.mp member
        exact (lower old).1.trans (near old listed)
  · rw [added]
    rcases reaches with ⟨here, near⟩ | ⟨full, -⟩
    · refine Or.inl ⟨?_, fun other member same => ?_⟩
      · rw [List.map_append]
        exact List.mem_append_left _ here
      · rcases List.mem_append.mp member with old | last
        · exact near other old same
        · obtain rfl := List.mem_singleton.mp last
          exact absurd (same ▸ here) new
    · exact absurd full room.ne
  · rw [replaced]
    have inside : i < entries.length := (List.getElem?_eq_some_iff.mp found).1
    by_cases stays : descent.2 ∈ (entries.set i entry).map Prod.snd
    · refine Or.inl ⟨stays, fun other member same => ?_⟩
      rcases reaches with ⟨here, near⟩ | ⟨-, near, -⟩
      · rcases List.mem_or_eq_of_mem_set member with old | rfl
        · exact near other old same
        · exact absurd (same ▸ here) new
      · rcases List.mem_or_eq_of_mem_set member with old | rfl
        · exact near other old
        · exact nearer.le.trans (near worst (List.mem_of_getElem? found))
    · have last : worst.1 ≤ descent.1 := by
        rcases reaches with ⟨here, near⟩ | ⟨-, near, -⟩
        · refine near worst (List.mem_of_getElem? found) ?_
          by_contra other
          refine stays ?_
          rw [List.map_set]
          refine mem_set_of_ne here ?_ _
          rw [List.getElem?_map, found]
          exact fun same => other (Option.some.inj same)
        · exact near worst (List.mem_of_getElem? found)
      refine Or.inr ⟨?_, fun other member => ?_, entry, List.mem_set inside entry,
        nearer.trans_le last⟩
      · rw [List.length_set]
        exact le_antisymm bounded full
      · rcases List.mem_or_eq_of_mem_set member with old | rfl
        · exact (farthest other old).trans last
        · exact (nearer.trans_le last).le
  · rw [same]
    exact reaches

theorem Scored.offer (bounded : entries.length ≤ maxEntryPoints)
    (scored : Scored graph descent entries) {entry : D × Nat} (measured : Measured graph entry) :
    Scored graph descent (offerDistanceEntry entries entry) := by
  refine ⟨?_, scored.reaches.offer bounded entry⟩
  rcases offerDistanceEntry_step entries entry with ⟨-, known⟩ | ⟨-, -, added⟩ |
    ⟨-, -, i, worst, -, -, -, replaced⟩ | same
  · rw [known]
    intro other member
    obtain ⟨old, listed, rfl⟩ := List.mem_map.mp member
    split_ifs with same
    · exact min_measured measured (scored.measured old listed) same
    · exact scored.measured old listed
  · rw [added]
    intro other member
    rcases List.mem_append.mp member with old | last
    · exact scored.measured other old
    · exact List.mem_singleton.mp last ▸ measured
  · rw [replaced]
    intro other member
    rcases List.mem_or_eq_of_mem_set member with old | rfl
    · exact scored.measured other old
    · exact measured
  · rw [same]
    exact scored.measured

/-- **A run of offers** of nodes with distances computed for them. -/
theorem offers_kept (items : List (D × Nat)) (measured : ∀ item ∈ items, Measured graph item)
    (kept : Entries graph entries) :
    Entries graph (items.foldl offerDistanceEntry entries) ∧
      (Scored graph descent entries →
        Scored graph descent (items.foldl offerDistanceEntry entries)) := by
  induction items generalizing entries with
  | nil => exact ⟨kept, id⟩
  | cons item rest ih =>
    have here := measured item List.mem_cons_self
    obtain ⟨entries', scored'⟩ := ih (fun other member =>
      measured other (List.mem_cons_of_mem _ member)) (kept.offer ⟨here.inside, here.loads⟩)
    exact ⟨entries', fun scored => scored' (scored.offer kept.bounded here)⟩

theorem collectNew_loads (graph : EntryGraph D) (entries : List (D × Nat))
    (candidates : List Nat) : ∀ nodeId ∈ collectNew graph entries candidates,
      nodeId < graph.tqNodeCount ∧ graph.loadCodePage nodeId = true := by
  refine List.foldlRecOn _ _ (motive := fun collected : List Nat => ∀ nodeId ∈ collected,
    nodeId < graph.tqNodeCount ∧ graph.loadCodePage nodeId = true)
    (fun _ member => absurd member List.not_mem_nil) ?_
  intro collected before nodeId _
  split_ifs with skipped
  · exact before
  · simp only [not_or, Nat.not_le, Bool.not_eq_false] at skipped
    intro other member
    rcases List.mem_append.mp member with old | last
    · exact before other old
    · exact List.mem_singleton.mp last ▸ ⟨skipped.2.2.1, skipped.2.2.2⟩

end Distances

/-! ### All phases -/

section EntryPoints

variable {graph : EntryGraph D} {settings : EntrySettings} {descent : D × Nat}
  {entries : List (D × Nat)}

theorem offerSamples_kept (kept : Entries graph entries) :
    Entries graph (offerSamples graph settings entries) ∧
      (Scored graph descent entries →
        Scored graph descent (offerSamples graph settings entries)) := by
  unfold offerSamples
  split_ifs
  · exact ⟨kept, id⟩
  · refine offers_kept _ (fun item member => ?_) kept
    obtain ⟨nodeId, collected, rfl⟩ :=
      List.mem_map.mp ((sortNearest_perm _).mem_iff.mp member)
    obtain ⟨inside, loads⟩ := collectNew_loads graph entries _ nodeId collected
    refine ⟨inside, loads, ?_⟩
    dsimp only
    cases graph.exactHighdimDistance nodeId with
    | none => exact Or.inr (Or.inl rfl)
    | some distance => exact Or.inr (Or.inr rfl)

theorem offerScored_kept (kept : Entries graph entries) (candidates : List Nat) :
    Entries graph (offerScored graph candidates entries) ∧
      (Scored graph descent entries →
        Scored graph descent (offerScored graph candidates entries)) := by
  refine offers_kept _ (fun item member => ?_) kept
  obtain ⟨nodeId, collected, rfl⟩ := List.mem_map.mp member
  obtain ⟨inside, loads⟩ := collectNew_loads graph entries _ nodeId collected
  exact ⟨inside, loads, Or.inr (Or.inl rfl)⟩

theorem scoreEntries_spec (measured : Measured graph descent) :
    Entries graph (scoreEntries graph (levelEntries graph descent)) ∧
      ((better graph descent.2).card < maxEntryPoints →
        Scored graph descent (scoreEntries graph (levelEntries graph descent))) := by
  have kept := levelEntries_spec graph descent
  have loads : ∀ entry ∈ levelEntries graph descent,
      entry.item.2 < graph.tqNodeCount ∧ graph.loadCodePage entry.item.2 = true := by
    intro entry member
    rcases kept.offered entry member with same | other
    · exact same ▸ ⟨measured.inside, measured.loads⟩
    · exact alternatives_loads other
  generalize levelEntries graph descent = entries at kept loads
  have names : (scoreEntries graph entries).map Prod.snd = nodesOf entries := by
    cases entries with
    | nil => rfl
    | cons first rest =>
      rw [scoreEntries, List.map_cons, List.map_map, nodesOf, List.map_cons]
      refine congrArg _ (List.map_congr_left fun entry _ => ?_)
      rw [Function.comp_apply]
      split_ifs <;> rfl
  refine ⟨⟨?_, names ▸ kept.nodup, fun nodeId member => ?_⟩, fun few => ?_⟩
  · rw [← List.length_map Prod.snd, names, nodesOf, List.length_map]
    exact kept.bounded
  · rw [names] at member
    obtain ⟨entry, here, rfl⟩ := List.mem_map.mp member
    exact loads entry here
  · have head := kept.first few
    have distinct := kept.nodup
    cases entries with
    | nil => exact absurd kept.some_ (Nat.lt_irrefl 0)
    | cons first rest =>
      obtain rfl := Option.some.inj head
      refine ⟨fun entry member => ?_, Or.inl ⟨List.mem_cons_self, fun entry member same => ?_⟩⟩
      · rcases List.mem_cons.mp member with rfl | later
        · exact measured
        · obtain ⟨other, listed, rfl⟩ := List.mem_map.mp later
          obtain ⟨inside, loads⟩ := loads other (List.mem_cons_of_mem _ listed)
          rw [if_pos loads]
          exact ⟨inside, loads, Or.inr (Or.inl rfl)⟩
      · rcases List.mem_cons.mp member with rfl | later
        · exact le_rfl
        · refine absurd ?_ (List.nodup_cons.mp distinct).1
          obtain ⟨other, listed, rfl⟩ := List.mem_map.mp later
          refine List.mem_map.mpr ⟨other, listed, ?_⟩
          split_ifs at same <;> exact same

/-- **The entry points.** There are at most sixteen, all different nodes whose pages can be loaded.
While fewer than sixteen alternatives come before the node of the descent by their levels, each
entry has a distance computed for it, and the node of the descent is among them unless all places
are taken by nodes that are not farther, a nearer one among them. -/
theorem entryPoints_spec (graph : EntryGraph D) (settings : EntrySettings)
    (payloadNodes : List Nat) {entries : List (D × Nat)}
    (found : entryPoints graph settings payloadNodes = some entries) :
    entries.length ≤ maxEntryPoints ∧ (entries.map Prod.snd).Nodup ∧
    (∀ nodeId ∈ entries.map Prod.snd,
      nodeId < graph.tqNodeCount ∧ graph.loadCodePage nodeId = true) ∧
    ((better graph (greedyDescent graph settings).2).card < maxEntryPoints →
      (∀ entry ∈ entries, Measured graph entry) ∧
        Reaches (greedyDescent graph settings) entries) := by
  unfold entryPoints at found
  split_ifs at found with missing
  obtain rfl := Option.some.inj found
  rw [not_or, Bool.not_eq_false] at missing
  have measured : Measured graph (greedyDescent graph settings) :=
    greedyDescent_measured (Nat.pos_of_ne_zero missing.1) missing.2
  obtain ⟨levels, first⟩ := scoreEntries_spec measured
  obtain ⟨sampled, second⟩ := @offerSamples_kept _ _ graph settings (greedyDescent graph settings)
    _ levels
  obtain ⟨seeded, third⟩ := @offerScored_kept _ _ graph (greedyDescent graph settings) _ sampled
    (payloadSeeds settings payloadNodes)
  obtain ⟨kept, last⟩ := @offerScored_kept _ _ graph (greedyDescent graph settings) _ seeded
    graph.entrySidecarNodeIds
  refine ⟨kept.bounded, kept.nodup, kept.loads, fun few => ?_⟩
  have scored := last (third (second (first few)))
  exact ⟨scored.measured, scored.reaches⟩

end EntryPoints

/-! ### Entries that are dead, and entries that leave the descent's node out -/

/-- Nodes of one level without lists, each at the distance of its number from a far one. -/
def lineGraph (nodeCount : Nat) (dead : Nat → Bool) : EntryGraph Nat :=
  { tqNodeCount := nodeCount
    tqEntryNodeId := 0
    graphMaxLevel := 0
    segmentEntryNodeIds := [0]
    routingEntryNodeIds := []
    entrySidecarNodeIds := []
    level := fun _ => 0
    dead := dead
    loadCodePage := fun _ => true
    loadAdjPage := fun _ _ => true
    neighbors := fun _ _ => []
    entryDistance := fun nodeId => 100 - nodeId
    scoreNode := fun nodeId => 100 - nodeId
    exactHighdimDistance := fun _ => none
    dblMax := 1000 }

/-- Sixteen segments that start with the nodes of the second level, from where the descent leads to
a node of the first level. -/
def segmentedGraph : EntryGraph Nat :=
  { lineGraph 31 fun _ => false with
    graphMaxLevel := 2
    segmentEntryNodeIds := (List.range 16).map (2 * ·)
    level := fun nodeId => if nodeId % 2 = 0 then 2 else 1
    neighbors := fun nodeId level => if nodeId = 0 ∧ level = 1 then [1] else [] }

def scanSettings (searchEf : Nat) : EntrySettings := ⟨true, searchEf, false, 0, false, 8⟩

/-- **Dead nodes can be entries, and the node of the descent none**: it leaves its place to sixteen
nearer nodes, or to the entries of sixteen segments, of which the last is not scored. -/
theorem entryPoints_dead :
    (∃ entries, entryPoints (lineGraph 2 (· == 1)) (scanSettings 40) [] = some entries ∧
      (99, 1) ∈ entries ∧ (lineGraph 2 (· == 1)).dead 1 = true) ∧
    (∃ entries, entryPoints (lineGraph 17 fun _ => false) (scanSettings 40) [] = some entries ∧
      (greedyDescent (lineGraph 17 fun _ => false) (scanSettings 40)).2 ∉
        entries.map Prod.snd) ∧
    ∃ entries, entryPoints segmentedGraph (scanSettings 16) [] = some entries ∧
      (1000, 30) ∈ entries ∧ greedyDescent segmentedGraph (scanSettings 16) = (99, 1) ∧
      1 ∉ entries.map Prod.snd :=
  ⟨⟨_, rfl, by decide, rfl⟩, ⟨_, rfl, by decide⟩, ⟨_, rfl, by decide, by decide, by decide⟩⟩

theorem entryPoints_spec_line :
    entryPoints (lineGraph 2 (· == 1)) (scanSettings 40) [] = some [(100, 0), (99, 1)] ∧
      Measured (lineGraph 2 (· == 1)) (99, 1) ∧ Reaches (100, 0) [((100 : Nat), 0), (99, 1)] :=
  have spec := (entryPoints_spec (lineGraph 2 (· == 1)) (scanSettings 40) []
    (show entryPoints _ _ _ = some [(100, 0), (99, 1)] by rfl)).2.2.2 (by decide)
  ⟨rfl, spec.1 (99, 1) (by decide), spec.2⟩

end TurboHybrid.Graph.Dense
