/-
**What the repair of a vacuum does to the lists of neighbours.**

A reference of a live node to a dead one is overwritten by a live node, and that node gets a
reference back: in the place of a reference that is of no use, or behind the last where there is
room. So a list stays within its capacity, without the node itself and without duplicates.

* `Repairs`: what holds between the adjacency before and after any part of the repair;
* `vacuumInstallReciprocal_repairs`, `repairAdjacencyForDeadNodes_repairs`: one replacement, and all;
* `repairGraph_sound`: the stored lists after the write-back.
-/
import Mathlib.Tactic.IntervalCases
import Mathlib.Tactic.Push
import TurboHybrid.Graph.Entry

namespace TurboHybrid.Graph

/-! ### Lists of neighbours -/

section Lists

variable {capacity : Nat} {fits : Nat → Prop} {nodeId slot value : Nat} {neighbors : List Nat}

/-- A list within a capacity, without its own node and without duplicates, of nodes that fit. -/
structure WellFormedList (capacity : Nat) (fits : Nat → Prop) (nodeId : Nat)
    (neighbors : List Nat) : Prop where
  bounded : neighbors.length ≤ capacity
  loopless : nodeId ∉ neighbors
  nodup : neighbors.Nodup
  allFit : ∀ neighbor ∈ neighbors, fits neighbor

theorem WellFormedList.set (wellFormed : WellFormedList capacity fits nodeId neighbors)
    (slot : Nat) (other : value ≠ nodeId) (fresh : value ∉ neighbors) (fit : fits value) :
    WellFormedList capacity fits nodeId (neighbors.set slot value) where
  bounded := by
    rw [List.length_set]
    exact wellFormed.bounded
  loopless := by
    intro member
    rcases List.mem_or_eq_of_mem_set member with old | new
    · exact wellFormed.loopless old
    · exact other new.symm
  nodup := wellFormed.nodup.set fresh
  allFit := by
    intro neighbor member
    rcases List.mem_or_eq_of_mem_set member with old | rfl
    · exact wellFormed.allFit neighbor old
    · exact fit

theorem WellFormedList.append (wellFormed : WellFormedList capacity fits nodeId neighbors)
    (room : neighbors.length < capacity) (other : value ≠ nodeId) (fresh : value ∉ neighbors)
    (fit : fits value) : WellFormedList capacity fits nodeId (neighbors ++ [value]) where
  bounded := by
    rw [List.length_append]
    exact room
  loopless := by
    intro member
    rcases List.mem_append.mp member with old | new
    · exact wellFormed.loopless old
    · exact other (List.mem_singleton.mp new).symm
  nodup := by
    refine wellFormed.nodup.append (List.nodup_singleton value) ?_
    exact fun neighbor old new => fresh (List.mem_singleton.mp new ▸ old)
  allFit := by
    intro neighbor member
    rcases List.mem_append.mp member with old | new
    · exact wellFormed.allFit neighbor old
    · exact List.mem_singleton.mp new ▸ fit

theorem mem_set_of_ne {neighbor : Nat} (member : neighbor ∈ neighbors)
    (elsewhere : neighbors[slot]? ≠ some neighbor) (value : Nat) :
    neighbor ∈ neighbors.set slot value := by
  obtain ⟨pos, found⟩ := List.mem_iff_getElem?.mp member
  have different : slot ≠ pos := by
    rintro rfl
    exact elsewhere found
  refine List.mem_of_getElem? (i := pos) ?_
  rw [List.getElem?_set_ne different]
  exact found

theorem mem_putSlot {neighbor : Nat} (member : neighbor ∈ putSlot neighbors slot value) :
    neighbor ∈ neighbors ∨ neighbor = value := by
  unfold putSlot at member
  split_ifs at member
  · rcases List.mem_append.mp member with old | new
    · exact .inl old
    · exact .inr (List.mem_singleton.mp new)
  · exact List.mem_or_eq_of_mem_set member

theorem mem_putSlot_value (known : slot ≤ neighbors.length) :
    value ∈ putSlot neighbors slot value := by
  unfold putSlot
  split_ifs with last
  · exact List.mem_append_right _ (List.mem_singleton_self value)
  · exact List.mem_set (by omega) value

end Lists

/-! ### Parts of the repair -/

section Repair

variable {ctx : RepairContext} {adjacency before middle after : Adjacency}
  {level source deadNode replacement : Nat}

def IsLive (ctx : RepairContext) (nodeId : Nat) : Prop :=
  nodeId < ctx.nodeCount ∧ ctx.dead nodeId = false

theorem isReplaceable_live (live : IsLive ctx source) : isReplaceable ctx source = false := by
  unfold isReplaceable
  rw [live.2, Bool.or_false, decide_eq_false_iff_not]
  exact not_le.mpr live.1

/-- Each list of a copy of the adjacency is well formed: its nodes reach the level of the list. -/
def CopyWellFormed (ctx : RepairContext) (adjacency : Adjacency) : Prop :=
  ∀ nodeId level, WellFormedList (levelM ctx.m level)
    (fun neighbor => neighbor < ctx.nodeCount → level ≤ ctx.level neighbor) nodeId
    (adjacency nodeId level)

/-- **What the repair does**: lists stay well formed, references between live nodes stay, and a new
reference is one of a live node to another that has a reference back. -/
structure Repairs (ctx : RepairContext) (before after : Adjacency) : Prop where
  wellFormed : CopyWellFormed ctx before → CopyWellFormed ctx after
  keeps : ∀ source neighbor level, IsLive ctx source → IsLive ctx neighbor →
    neighbor ∈ before source level → neighbor ∈ after source level
  installs : ∀ source neighbor level, neighbor ∈ after source level →
    neighbor ∉ before source level → IsLive ctx source ∧ IsLive ctx neighbor ∧
      level ≤ ctx.level neighbor ∧ source ∈ after neighbor level

theorem Repairs.refl (adjacency : Adjacency) : Repairs ctx adjacency adjacency :=
  ⟨id, fun _ _ _ _ _ member => member, fun _ _ _ member fresh => absurd member fresh⟩

theorem Repairs.trans (first : Repairs ctx before middle) (second : Repairs ctx middle after) :
    Repairs ctx before after where
  wellFormed := second.wellFormed ∘ first.wellFormed
  keeps := fun source neighbor level one other member =>
    second.keeps source neighbor level one other (first.keeps source neighbor level one other member)
  installs := by
    intro source neighbor level member fresh
    by_cases early : neighbor ∈ middle source level
    · obtain ⟨one, other, high, back⟩ := first.installs source neighbor level early fresh
      exact ⟨one, other, high, second.keeps neighbor source level other one back⟩
    · exact second.installs source neighbor level member early

theorem foldl_repairs {Index : Type} {part : Adjacency → Index → Adjacency}
    (one : ∀ adjacency index, Repairs ctx adjacency (part adjacency index)) (indices : List Index)
    (adjacency : Adjacency) : Repairs ctx adjacency (indices.foldl part adjacency) := by
  induction indices generalizing adjacency with
  | nil => exact .refl adjacency
  | cons index rest ih => exact (one adjacency index).trans (ih _)

@[simp]
theorem Adjacency.set_same (adjacency : Adjacency) (nodeId level : Nat) (neighbors : List Nat) :
    adjacency.set nodeId level neighbors nodeId level = neighbors := if_pos ⟨rfl, rfl⟩

theorem Adjacency.set_other (adjacency : Adjacency) {nodeId level other otherLevel : Nat}
    (neighbors : List Nat) (different : ¬(other = nodeId ∧ otherLevel = level)) :
    adjacency.set nodeId level neighbors other otherLevel = adjacency other otherLevel :=
  if_neg different

/-- The list of the node that is put in the place of a dead one, with its reference back. -/
structure TakesBack (ctx : RepairContext) (level source replacement : Nat) (old back : List Nat) :
    Prop where
  wellFormed :
    let WellFormed := WellFormedList (levelM ctx.m level)
      (fun neighbor => neighbor < ctx.nodeCount → level ≤ ctx.level neighbor) replacement
    WellFormed old → WellFormed back
  keeps : ∀ neighbor, IsLive ctx neighbor → neighbor ∈ old → neighbor ∈ back
  only : ∀ neighbor ∈ back, neighbor ∈ old ∨ neighbor = source
  has : source ∈ back

theorem vacuumReplaceableSlot_spec {neighbors : List Nat} {capacity slot : Nat}
    (found : vacuumReplaceableSlot ctx neighbors capacity = some slot) :
    (∃ useless, neighbors[slot]? = some useless ∧ isReplaceable ctx useless = true) ∨
      slot = neighbors.length ∧ neighbors.length < capacity := by
  unfold vacuumReplaceableSlot at found
  cases first : neighbors.findIdx? (isReplaceable ctx) with
  | some place =>
    rw [first] at found
    obtain rfl := Option.some.inj found
    obtain ⟨below, useless, -⟩ := List.findIdx?_eq_some_iff_getElem.mp first
    exact .inl ⟨_, List.getElem?_eq_getElem below, useless⟩
  | none =>
    rw [first] at found
    dsimp only at found
    split_ifs at found with room
    exact .inr ⟨(Option.some.inj found).symm, room⟩

theorem takesBack_putSlot {old : List Nat} {slot : Nat}
    (high : level ≤ ctx.level source) (other : source ≠ replacement) (fresh : source ∉ old)
    (found : vacuumReplaceableSlot ctx old (levelM ctx.m level) = some slot) :
    TakesBack ctx level source replacement old (putSlot old slot source) := by
  rcases vacuumReplaceableSlot_spec found with ⟨useless, atSlot, replaceable⟩ | ⟨rfl, room⟩
  · have below : slot < old.length := (List.getElem?_eq_some_iff.mp atSlot).1
    have written : putSlot old slot source = old.set slot source := if_neg below.ne
    refine ⟨fun wellFormed => ?_, fun neighbor alive member => ?_, fun _ => mem_putSlot,
      mem_putSlot_value below.le⟩
    · rw [written]
      exact wellFormed.set slot other fresh fun _ => high
    · rw [written]
      refine mem_set_of_ne member (fun same => ?_) source
      obtain rfl := Option.some.inj (atSlot.symm.trans same)
      rw [isReplaceable_live alive] at replaceable
      cases replaceable
  · have written : putSlot old old.length source = old ++ [source] := if_pos rfl
    refine ⟨fun wellFormed => ?_, fun neighbor _ member => ?_, fun _ => mem_putSlot,
      mem_putSlot_value le_rfl⟩
    · rw [written]
      exact wellFormed.append room other fresh fun _ => high
    · rw [written]
      exact List.mem_append_left _ member

theorem install_repairs {slot : Nat} {back : List Nat}
    (atSlot : (adjacency source level)[slot]? = some deadNode) (dead : ctx.dead deadNode = true)
    (live : IsLive ctx source) (reaches : level ≤ ctx.level source)
    (alive : IsLive ctx replacement) (high : level ≤ ctx.level replacement)
    (other : replacement ≠ source)
    (fresh : replacement ∉ adjacency source level)
    (takes : TakesBack ctx level source replacement (adjacency replacement level) back) :
    Repairs ctx adjacency ((adjacency.set source level
      ((adjacency source level).set slot replacement)).set replacement level back) := by
  -- the three kinds of lists: the source's, the replacement's and the others
  have lists (nodeId other : Nat) :
      (nodeId = replacement ∧ other = level) ∨ (nodeId = source ∧ other = level) ∨
        ¬(nodeId = replacement ∧ other = level) ∧ ¬(nodeId = source ∧ other = level) := by
    tauto
  have atSource (lists : Adjacency) (neighbors : List Nat) :
      lists.set replacement level neighbors source level = lists source level :=
    Adjacency.set_other lists neighbors fun same => other same.1.symm
  refine ⟨fun wellFormed nodeId otherLevel => ?_, fun one neighbor otherLevel first second member =>
    ?_, fun one neighbor otherLevel member missing => ?_⟩
  · rcases lists nodeId otherLevel with ⟨rfl, rfl⟩ | ⟨rfl, rfl⟩ | ⟨away, apart⟩
    · rw [Adjacency.set_same]
      exact takes.wellFormed (wellFormed nodeId otherLevel)
    · rw [atSource, Adjacency.set_same]
      exact (wellFormed nodeId otherLevel).set slot other fresh fun _ => high
    · rw [Adjacency.set_other _ _ away, Adjacency.set_other _ _ apart]
      exact wellFormed nodeId otherLevel
  · rcases lists one otherLevel with ⟨rfl, rfl⟩ | ⟨rfl, rfl⟩ | ⟨away, apart⟩
    · rw [Adjacency.set_same]
      exact takes.keeps neighbor second member
    · rw [atSource, Adjacency.set_same]
      refine mem_set_of_ne member (fun same => ?_) replacement
      obtain rfl := Option.some.inj (atSlot.symm.trans same)
      rw [second.2] at dead
      cases dead
    · rw [Adjacency.set_other _ _ away, Adjacency.set_other _ _ apart]
      exact member
  · rcases lists one otherLevel with ⟨rfl, rfl⟩ | ⟨rfl, rfl⟩ | ⟨away, apart⟩
    · rw [Adjacency.set_same] at member
      obtain rfl := (takes.only neighbor member).resolve_left missing
      rw [atSource, Adjacency.set_same]
      exact ⟨alive, live, reaches, List.mem_set (List.getElem?_eq_some_iff.mp atSlot).1 one⟩
    · rw [atSource, Adjacency.set_same] at member
      obtain rfl := (List.mem_or_eq_of_mem_set member).resolve_left missing
      rw [Adjacency.set_same]
      exact ⟨live, alive, high, takes.has⟩
    · rw [Adjacency.set_other _ _ away, Adjacency.set_other _ _ apart] at member
      exact absurd member missing

theorem isCandidate_iff : isCandidate ctx level source replacement = true ↔
    IsLive ctx replacement ∧ replacement ≠ source ∧ level ≤ ctx.level replacement := by
  simp only [isCandidate, IsLive, Bool.and_eq_true, decide_eq_true_eq, bne_iff_ne,
    Bool.not_eq_true']
  tauto

/-- **One replacement**, where it can be made. -/
theorem vacuumInstallReciprocal_repairs (dead : ctx.dead deadNode = true)
    (live : IsLive ctx source) (reaches : level ≤ ctx.level source)
    (candidate : isCandidate ctx level source replacement = true)
    (installed : vacuumInstallReciprocal ctx adjacency level source deadNode replacement =
      some after) : Repairs ctx adjacency after := by
  obtain ⟨alive, other, high⟩ := isCandidate_iff.mp candidate
  dsimp only [vacuumInstallReciprocal] at installed
  cases place : (adjacency source level).idxOf? deadNode with
  | none =>
    rw [place] at installed
    cases installed
  | some slot =>
    rw [place] at installed
    dsimp only at installed
    have atSlot : (adjacency source level)[slot]? = some deadNode := by
      obtain ⟨below, same, -⟩ := List.findIdx?_eq_some_iff_getElem.mp place
      rw [List.getElem?_eq_getElem below, eq_of_beq same]
    split_ifs at installed with known present
    · -- the reference back is there already
      obtain rfl := Option.some.inj installed
      have takes : TakesBack ctx level source replacement (adjacency replacement level)
          (adjacency replacement level) :=
        ⟨id, fun _ _ member => member, fun _ => .inl, present⟩
      have repairs := install_repairs atSlot dead live reaches alive high other known takes
      have same : ((adjacency.set source level ((adjacency source level).set slot replacement)).set
          replacement level (adjacency replacement level)) =
          adjacency.set source level ((adjacency source level).set slot replacement) := by
        funext nodeId otherLevel
        by_cases there : nodeId = replacement ∧ otherLevel = level
        · obtain ⟨rfl, rfl⟩ := there
          rw [Adjacency.set_same, Adjacency.set_other _ _ fun both => other both.1]
        · rw [Adjacency.set_other _ _ there]
      rwa [same] at repairs
    · obtain ⟨backSlot, found, rfl⟩ := Option.map_eq_some_iff.mp installed
      exact install_repairs atSlot dead live reaches alive high other known
        (takesBack_putSlot reaches other.symm present found)

theorem vacuumCandidates_isCandidate {candidate : Nat × Nat}
    (member : candidate ∈ vacuumCandidates ctx adjacency level deadNode source) :
    isCandidate ctx level source candidate.2 = true := by
  unfold vacuumCandidates at member
  obtain ⟨nodeId, collected, rfl⟩ := List.mem_map.mp ((List.mem_insertionSort _).mp member)
  revert collected
  refine List.foldlRecOn _ _ (motive := fun found => nodeId ∈ found →
    isCandidate ctx level source nodeId = true) (fun absent => absurd absent List.not_mem_nil) ?_
  intro found before other _ inside
  split_ifs at inside with takes
  · rcases List.mem_append.mp inside with old | new
    · exact before old
    · exact List.mem_singleton.mp new ▸ takes.2.1
  · exact before inside

theorem vacuumRepairReference_repairs (dead : ctx.dead deadNode = true)
    (below : source < ctx.nodeCount) (adjacency : Adjacency) :
    Repairs ctx adjacency (vacuumRepairReference ctx level deadNode source adjacency) := by
  unfold vacuumRepairReference
  split_ifs with skipped
  · exact .refl adjacency
  · push Not at skipped
    obtain ⟨alive, reaches, -⟩ := skipped
    cases chosen : (vacuumCandidates ctx adjacency level deadNode source).findSome? _ with
    | none => exact .refl adjacency
    | some after =>
      obtain ⟨candidate, member, installed⟩ := List.exists_of_findSome?_eq_some chosen
      split_ifs at installed
      exact vacuumInstallReciprocal_repairs dead ⟨below, Bool.eq_false_iff.mpr alive⟩ reaches
        (vacuumCandidates_isCandidate member) installed

theorem repairLevel_repairs (dead : ctx.dead deadNode = true) (level : Nat)
    (adjacency : Adjacency) : Repairs ctx adjacency (repairLevel ctx deadNode level adjacency) := by
  unfold repairLevel
  refine List.foldlRecOn _ _ (motive := Repairs ctx adjacency) (.refl adjacency) ?_
  intro middle before source member
  exact before.trans (vacuumRepairReference_repairs dead (List.mem_range.mp member) middle)

/-- **The whole repair** of a copy of the adjacency. -/
theorem repairAdjacencyForDeadNodes_repairs (ctx : RepairContext) (adjacency : Adjacency) :
    Repairs ctx adjacency (repairAdjacencyForDeadNodes ctx adjacency) := by
  refine foldl_repairs (fun adjacency deadNode => ?_) _ adjacency
  unfold repairDeadNode
  split_ifs with dead
  · exact foldl_repairs (fun middle level => repairLevel_repairs dead level middle) _ adjacency
  · exact .refl adjacency

end Repair

/-! ### The stored lists -/

section Stored

def Stores (index : GraphIndex) (nodeId level : Nat) : Prop :=
  nodeId < index.page.nodeCount ∧ level ≤ nodeLevel index.nodes nodeId ∧
    level < levelCapacity index.page.m

/-- Every stored list is well formed: the nodes in it reach its level. -/
def GraphWellFormed (index : GraphIndex) : Prop :=
  ∀ nodeId level, Stores index nodeId level →
    WellFormedList (levelM index.page.m level)
      (fun neighbor => neighbor < index.page.nodeCount → level ≤ nodeLevel index.nodes neighbor)
      nodeId (index.adjacency nodeId level)

def HasEdge (index : GraphIndex) (level source neighbor : Nat) : Prop :=
  Stores index source level ∧ neighbor ∈ index.adjacency source level

/-- **A sound repair**: the lists are well formed, no edge between live nodes is lost, and each edge
that is new has its counterpart. -/
structure RepairSound (before after : GraphIndex) : Prop where
  wellFormed : GraphWellFormed after
  keeps : ∀ level source neighbor, LiveNode before source → LiveNode before neighbor →
    HasEdge before level source neighbor → HasEdge after level source neighbor
  installs : ∀ level source neighbor, HasEdge after level source neighbor →
    ¬ HasEdge before level source neighbor → HasEdge after level neighbor source

variable {index : GraphIndex}

theorem repairsLevel_iff {nodeId level : Nat} :
    repairsLevel (repairContext index) nodeId level = true ↔ Stores index nodeId level := by
  unfold repairsLevel
  rw [Bool.and_eq_true, Bool.and_eq_true, decide_eq_true_iff, decide_eq_true_iff,
    decide_eq_true_iff, and_assoc]
  exact Iff.rfl

theorem GraphWellFormed.loadAllAdj_eq (wellFormed : GraphWellFormed index) {nodeId level : Nat}
    (stored : Stores index nodeId level) :
    loadAllAdj (repairContext index) index nodeId level = index.adjacency nodeId level := by
  unfold loadAllAdj loadAdjTuple
  rw [if_pos (repairsLevel_iff.mpr stored), if_pos ⟨stored.1, stored.2.2⟩]
  exact List.take_of_length_le (wellFormed nodeId level stored).bounded

theorem GraphWellFormed.copy (wellFormed : GraphWellFormed index) :
    CopyWellFormed (repairContext index) (loadAllAdj (repairContext index) index) := by
  intro nodeId level
  by_cases stored : Stores index nodeId level
  · rw [wellFormed.loadAllAdj_eq stored]
    exact wellFormed nodeId level stored
  · have empty : loadAllAdj (repairContext index) index nodeId level = [] :=
      if_neg fun repairs => stored (repairsLevel_iff.mp repairs)
    rw [empty]
    exact ⟨Nat.zero_le _, List.not_mem_nil, List.nodup_nil,
      fun _ member => absurd member List.not_mem_nil⟩

theorem GraphWellFormed.repairGraph_adjacency (wellFormed : GraphWellFormed index)
    {nodeId level : Nat} (stored : Stores index nodeId level) :
    (repairGraph index).1.adjacency nodeId level =
      repairAdjacencyForDeadNodes (repairContext index) (loadAllAdj (repairContext index) index)
        nodeId level := by
  show (if _ then _ else _) = _
  split_ifs with changed
  · rfl
  · rw [← wellFormed.loadAllAdj_eq stored]
    by_contra different
    exact changed ⟨repairsLevel_iff.mpr stored, Ne.symm different⟩

theorem stores_repairGraph {nodeId level : Nat} :
    Stores (repairGraph index).1 nodeId level ↔ Stores index nodeId level := by
  obtain ⟨sameCount, -, sameM, -⟩ :=
    vacuumRepairEntries_counters (repairContext index).toVacuumNodes (repairContext index).nodeCount
      index.page
  unfold Stores repairGraph
  dsimp only [writeRepaired]
  rw [sameM, sameCount]

/-- **The repair of a vacuum is sound** on every graph whose lists are well formed. -/
theorem repairGraph_sound (wellFormed : GraphWellFormed index) :
    RepairSound index (repairGraph index).1 := by
  obtain ⟨sameCount, -, sameM, -⟩ :=
    vacuumRepairEntries_counters (repairContext index).toVacuumNodes (repairContext index).nodeCount
      index.page
  have repairs := repairAdjacencyForDeadNodes_repairs (repairContext index)
    (loadAllAdj (repairContext index) index)
  refine ⟨fun nodeId level stored => ?_, fun level source neighbor one other edge => ?_,
    fun level source neighbor edge fresh => ?_⟩
  · have before := stores_repairGraph.mp stored
    rw [wellFormed.repairGraph_adjacency before]
    dsimp only [repairGraph, writeRepaired]
    rw [sameM, sameCount]
    exact repairs.wellFormed wellFormed.copy nodeId level
  · refine ⟨stores_repairGraph.mpr edge.1, ?_⟩
    rw [wellFormed.repairGraph_adjacency edge.1]
    refine repairs.keeps source neighbor level one other ?_
    rw [wellFormed.loadAllAdj_eq edge.1]
    exact edge.2
  · have stored := stores_repairGraph.mp edge.1
    have member := edge.2
    rw [wellFormed.repairGraph_adjacency stored] at member
    have missing : neighbor ∉ loadAllAdj (repairContext index) index source level := by
      rw [wellFormed.loadAllAdj_eq stored]
      exact fun old => fresh ⟨stored, old⟩
    obtain ⟨-, alive, high, back⟩ := repairs.installs source neighbor level member missing
    have counterpart : Stores index neighbor level := ⟨alive.1, high, stored.2.2⟩
    refine ⟨stores_repairGraph.mpr counterpart, ?_⟩
    rw [wellFormed.repairGraph_adjacency counterpart]
    exact back

/-- Nodes 0 and 2 with the dead node 1 between them. -/
def deadBetween : GraphIndex where
  page := ⟨2, 3, some 0, 0, 0, 1, [], [], []⟩
  nodes := [⟨0, false, [1]⟩, ⟨0, true, [2]⟩, ⟨0, false, [3]⟩]
  adjacency := fun nodeId _ => if nodeId = 1 then [0, 2] else [1]

theorem repairGraph_sound_deadBetween : GraphWellFormed deadBetween ∧
    RepairSound deadBetween (repairGraph deadBetween).1 ∧
      (repairGraph deadBetween).1.adjacency 0 0 = [2] := by
  have wellFormed : GraphWellFormed deadBetween := by
    intro nodeId level stored
    obtain ⟨below, low, -⟩ := stored
    have ground : level = 0 := by
      have flat (nodeId : Nat) (below : nodeId < 3) : nodeLevel deadBetween.nodes nodeId = 0 := by
        interval_cases nodeId <;> rfl
      rw [flat nodeId below] at low
      exact Nat.le_zero.mp low
    subst ground
    have below : nodeId < 3 := below
    interval_cases nodeId <;>
      exact ⟨by decide, by decide, by decide, fun neighbor _ _ => Nat.zero_le _⟩
  exact ⟨wellFormed, repairGraph_sound wellFormed, by decide⟩

end Stored

end TurboHybrid.Graph
