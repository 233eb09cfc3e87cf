/-
**The lists of neighbours of a build.**

A build keeps the neighbours of each node and level with their distances. A node chooses its
neighbours among candidates, the nearest that are spread out and then the nearest of the others;
each of them takes the node back, and a full list is pruned or loses its farthest neighbour.

* `selectNeighbors_chosen`, `selectNeighbors_ne_nil`: what is selected, and that something is;
* `ListsSound`: what holds of every list;
* `addNeighbor_sound`, `addNeighborIfRoom_sound`, `forceNeighbor_sound`: every way to change a list
  keeps it.
-/
import TurboHybrid.Graph.InsertShape

set_option linter.unusedSectionVars false

namespace TurboHybrid.Graph.Build

open Library

variable {D : Type} [LinearOrder D]

/-! ### The nodes of a build -/

/-- What the lists depend on: the nodes with their levels, the distance of two nodes, which may be
measured against the query a build prepared for one of them, and the selection. -/
structure BuildNodes (D : Type) where
  m : Nat
  nodeCount : Nat
  level : Nat → Nat
  distance : Option Nat → Nat → Nat → D
  dblMax : D
  efConstruction : Nat
  buildFastEdges : Bool
  minM : 2 ≤ m

/-- `PgturbohybridGraphBuildNodeHasLevel`. -/
def BuildNodes.hasLevel (nodes : BuildNodes D) (nodeId level : Nat) : Bool :=
  decide (nodeId < nodes.nodeCount ∧ level ≤ nodes.level nodeId)

/-- The neighbours of a node at a level, with their distances. -/
abbrev BuildLists (D : Type) := Nat → Nat → List (D × Nat)

def BuildLists.set (lists : BuildLists D) (nodeId level : Nat) (items : List (D × Nat)) :
    BuildLists D := fun other otherLevel =>
  if other = nodeId ∧ otherLevel = level then items else lists other otherLevel

def names (items : List (D × Nat)) : List Nat := items.map Prod.snd

/-! ### The selection -/

/-- Candidates that are not selected yet, while there is room:
`PgturbohybridGraphSelectNeighborsSimple`, and the second loop of the other selection. -/
def fillSelected (maxNeighbors src : Nat) (candidates : List (D × Nat)) (selected : List Nat) :
    List Nat :=
  candidates.foldl (fun selected item =>
    if selected.length < maxNeighbors ∧ item.2 ∉ selected ∧ item.2 ≠ src then
      selected ++ [item.2]
    else selected) selected

/-- Candidates that are nearer to the node than to every selected one. -/
def spreadSelected (distance : Nat → Nat → D) (maxNeighbors src : Nat)
    (candidates : List (D × Nat)) : List Nat :=
  candidates.foldl (fun selected item =>
    if selected.length < maxNeighbors ∧ item.2 ≠ src ∧
        (selected.all fun other => decide (¬distance item.2 other < item.1)) = true then
      selected ++ [item.2]
    else selected) []

/-- **`PgturbohybridGraphSelectNeighbors`.** -/
def selectNeighbors (nodes : BuildNodes D) (prepared : Option Nat) (src : Nat)
    (candidates : List (D × Nat)) (level : Nat) : List Nat :=
  let maxNeighbors := levelM nodes.m level
  let candidates := sortNearest candidates
  if nodes.buildFastEdges then fillSelected maxNeighbors src candidates []
  else fillSelected maxNeighbors src candidates
    (spreadSelected (nodes.distance prepared) maxNeighbors src candidates)

/-- `PgturbohybridGraphCandidateDistance`. -/
def candidateDistance (dblMax : D) (candidates : List (D × Nat)) (nodeId : Nat) : D :=
  ((candidates.find? fun item => item.2 == nodeId).map Prod.fst).getD dblMax

/-- The selected nodes with the distances of the candidates, which the selection has sorted. -/
def withDistances (nodes : BuildNodes D) (candidates : List (D × Nat)) (selected : List Nat) :
    List (D × Nat) :=
  selected.map fun nodeId =>
    (candidateDistance nodes.dblMax (sortNearest candidates) nodeId, nodeId)

/-! ### Changes of one list -/

/-- `PgturbohybridGraphPruneNeighbors`. -/
def pruneNeighbors (nodes : BuildNodes D) (prepared : Option Nat) (lists : BuildLists D)
    (src level : Nat) : BuildLists D :=
  let items := lists src level
  if nodes.hasLevel src level = false ∨ items.length ≤ levelM nodes.m level then lists
  else lists.set src level
    (withDistances nodes items (selectNeighbors nodes prepared src items level))

/-- The slot of the farthest neighbour, the first of several. -/
def worstSlot (items : List (D × Nat)) : Nat :=
  (List.range items.length).foldl (fun worst slot =>
    if (items[worst]?.any fun item =>
        items[slot]?.any fun other => decide (item.1 < other.1)) = true then slot
    else worst) 0

def mayLink (nodes : BuildNodes D) (lists : BuildLists D) (src dst level : Nat) : Prop :=
  src ≠ dst ∧ nodes.hasLevel src level = true ∧ nodes.hasLevel dst level = true ∧
    dst ∉ names (lists src level)

instance (nodes : BuildNodes D) (lists : BuildLists D) (src dst level : Nat) :
    Decidable (mayLink nodes lists src dst level) :=
  inferInstanceAs (Decidable (_ ∧ _))

/-- **`PgturbohybridGraphAddNeighbor`.** -/
def addNeighbor (nodes : BuildNodes D) (prepared : Option Nat) (lists : BuildLists D)
    (src dst level : Nat) (distance : D) : BuildLists D :=
  let items := lists src level
  if ¬mayLink nodes lists src dst level then lists
  else if items.length < levelM nodes.m level then
    lists.set src level (items ++ [(distance, dst)])
  else if nodes.buildFastEdges then
    let worst := worstSlot items
    if (items[worst]?.any fun item => decide (distance < item.1)) = true then
      lists.set src level (items.set worst (distance, dst))
    else lists
  else pruneNeighbors nodes prepared (lists.set src level (items ++ [(distance, dst)])) src level

/-- `PgturbohybridGraphAddNeighborIfRoom`. -/
def addNeighborIfRoom (nodes : BuildNodes D) (lists : BuildLists D) (src dst level : Nat)
    (distance : D) : BuildLists D :=
  if mayLink nodes lists src dst level ∧ (lists src level).length < levelM nodes.m level then
    lists.set src level (lists src level ++ [(distance, dst)])
  else lists

/-- `PgturbohybridGraphIsBackboneNeighbor`. -/
def isBackboneNeighbor (nodes : BuildNodes D) (src neighbor : Nat) : Bool :=
  decide (0 < src ∧ neighbor = src - 1 ∨ src + 1 < nodes.nodeCount ∧ neighbor = src + 1)

/-- The slot of the farthest neighbour outside the backbone. -/
def worstOutsideBackbone (nodes : BuildNodes D) (src : Nat) (items : List (D × Nat)) :
    Option Nat :=
  (List.range items.length).foldl (fun worst slot =>
    if (items[slot]?.any fun item => !isBackboneNeighbor nodes src item.2 &&
        worst.all fun chosen => items[chosen]?.any fun other => decide (other.1 < item.1)) = true
    then some slot else worst) none

/-- **`PgturbohybridGraphForceNeighbor`.** -/
def forceNeighbor (nodes : BuildNodes D) (lists : BuildLists D) (src dst level : Nat) :
    BuildLists D :=
  let items := lists src level
  if ¬mayLink nodes lists src dst level then lists
  else if items.length < levelM nodes.m level then
    lists.set src level (items ++ [(nodes.dblMax, dst)])
  else lists.set src level
    (items.set ((worstOutsideBackbone nodes src items).getD 0) (nodes.dblMax, dst))

/-- `PgturbohybridGraphLinkAdjacentBuildNode`. -/
def linkAdjacentBuildNode (nodes : BuildNodes D) (prepared : Option Nat) (lists : BuildLists D)
    (nodeId prevId : Nat) : BuildLists D :=
  if nodes.hasLevel nodeId 0 = false ∨ nodes.hasLevel prevId 0 = false then lists
  else addNeighborIfRoom nodes
    (lists.set nodeId 0 [(nodes.distance prepared nodeId prevId, prevId)]) prevId nodeId 0
    (nodes.distance prepared prevId nodeId)

/-! ### What is selected -/

/-- **A selection**: candidates other than the node itself, each once, within the capacity. -/
structure Chosen (maxNeighbors src : Nat) (candidates : List (D × Nat)) (selected : List Nat) :
    Prop where
  nodup : selected.Nodup
  capacity : selected.length ≤ maxNeighbors
  others : src ∉ selected
  inside : ∀ nodeId ∈ selected, nodeId ∈ names candidates

section Selection

variable {maxNeighbors src : Nat} {candidates : List (D × Nat)} {selected : List Nat}

theorem Chosen.nil : Chosen maxNeighbors src candidates [] :=
  ⟨List.nodup_nil, Nat.zero_le _, List.not_mem_nil, fun _ member => absurd member List.not_mem_nil⟩

theorem Chosen.push (chosen : Chosen maxNeighbors src candidates selected) {item : D × Nat}
    (candidate : item ∈ candidates) (room : selected.length < maxNeighbors)
    (fresh : item.2 ∉ selected) (other : item.2 ≠ src) :
    Chosen maxNeighbors src candidates (selected ++ [item.2]) := by
  refine ⟨?_, ?_, fun member => ?_, fun nodeId member => ?_⟩
  · refine chosen.nodup.append (List.nodup_singleton _) fun nodeId old last => ?_
    exact fresh (List.mem_singleton.mp last ▸ old)
  · rw [List.length_append, List.length_singleton]
    exact room
  · rcases List.mem_append.mp member with old | last
    · exact chosen.others old
    · exact other (List.mem_singleton.mp last).symm
  · rcases List.mem_append.mp member with old | last
    · exact chosen.inside nodeId old
    · exact List.mem_singleton.mp last ▸ List.mem_map_of_mem candidate

theorem Chosen.fill (chosen : Chosen maxNeighbors src candidates selected) :
    Chosen maxNeighbors src candidates (fillSelected maxNeighbors src candidates selected) := by
  refine List.foldlRecOn _ _ chosen fun selected before item candidate => ?_
  split_ifs with takes
  · exact before.push candidate takes.1 takes.2.1 takes.2.2
  · exact before

theorem spreadSelected_chosen (distance : Nat → Nat → D) (distinct : Distinct candidates) :
    Chosen maxNeighbors src candidates
      (spreadSelected distance maxNeighbors src candidates) := by
  have run (done rest : List (D × Nat)) (selected : List Nat) (whole : done ++ rest = candidates)
      (chosen : Chosen maxNeighbors src candidates selected)
      (before : ∀ nodeId ∈ selected, nodeId ∈ names done) :
      Chosen maxNeighbors src candidates (rest.foldl (fun selected item =>
        if selected.length < maxNeighbors ∧ item.2 ≠ src ∧
            (selected.all fun other => decide (¬distance item.2 other < item.1)) = true then
          selected ++ [item.2]
        else selected) selected) := by
    induction rest generalizing done selected with
    | nil => exact chosen
    | cons item rest ih =>
      have unseen : item.2 ∉ names done := by
        have apart := distinct
        rw [← whole, Distinct, List.map_append, List.map_cons] at apart
        intro seen
        exact (List.disjoint_of_nodup_append apart) seen (List.mem_cons_self ..)
      have candidate : item ∈ candidates := by
        rw [← whole]
        exact List.mem_append_right _ (List.mem_cons_self ..)
      have next : (done ++ [item]) ++ rest = candidates := by
        rw [List.append_assoc, List.singleton_append]
        exact whole
      have names_next : names (done ++ [item]) = names done ++ [item.2] := List.map_append
      refine ih (done ++ [item]) _ next ?_ ?_
      · dsimp only
        split_ifs with takes
        · exact chosen.push candidate takes.1 (fun seen => unseen (before _ seen)) takes.2.1
        · exact chosen
      · intro nodeId member
        rw [names_next]
        dsimp only at member
        split_ifs at member with takes
        · rcases List.mem_append.mp member with old | last
          · exact List.mem_append_left _ (before nodeId old)
          · exact List.mem_append_right _ last
        · exact List.mem_append_left _ (before nodeId member)
  exact run [] candidates [] rfl Chosen.nil fun _ member => absurd member List.not_mem_nil

/-- **What is selected** of distinct candidates. -/
theorem selectNeighbors_chosen (nodes : BuildNodes D) (prepared : Option Nat) (level : Nat)
    (distinct : Distinct candidates) :
    Chosen (levelM nodes.m level) src candidates
      (selectNeighbors nodes prepared src candidates level) := by
  have sorted : Distinct (sortNearest candidates) :=
    distinct.subperm (sortNearest_perm candidates).subperm
  have same (selected : List Nat)
      (chosen : Chosen (levelM nodes.m level) src (sortNearest candidates) selected) :
      Chosen (levelM nodes.m level) src candidates selected := by
    refine ⟨chosen.nodup, chosen.capacity, chosen.others, fun nodeId member => ?_⟩
    exact ((sortNearest_perm candidates).map Prod.snd).subset (chosen.inside nodeId member)
  rw [selectNeighbors]
  split_ifs
  · exact same _ Chosen.nil.fill
  · exact same _ (spreadSelected_chosen _ sorted).fill

theorem fillSelected_ne_nil (positive : 0 < maxNeighbors)
    (candidate : ∃ item ∈ candidates, item.2 ≠ src) :
    fillSelected maxNeighbors src candidates selected ≠ [] := by
  have grows (candidates : List (D × Nat)) (selected : List Nat) (some_ : selected ≠ []) :
      fillSelected maxNeighbors src candidates selected ≠ [] := by
    refine List.foldlRecOn _ _ (motive := fun selected => selected ≠ []) some_ ?_
    intro selected before item _
    split_ifs
    · exact List.append_ne_nil_of_left_ne_nil before _
    · exact before
  obtain ⟨item, member, other⟩ := candidate
  induction candidates generalizing selected with
  | nil => exact absurd member List.not_mem_nil
  | cons first rest ih =>
    by_cases empty : selected = []
    · rw [fillSelected, List.foldl_cons]
      rcases List.mem_cons.mp member with same | later
      · rw [← same, empty, if_pos ⟨positive, List.not_mem_nil, other⟩]
        exact grows rest _ (List.cons_ne_nil _ _)
      · exact ih later
    · exact grows (first :: rest) selected empty

/-- **Something is selected** wherever there is a candidate. -/
theorem selectNeighbors_ne_nil (nodes : BuildNodes D) (prepared : Option Nat) (level : Nat)
    (candidate : ∃ item ∈ candidates, item.2 ≠ src) :
    selectNeighbors nodes prepared src candidates level ≠ [] := by
  have positive : 0 < levelM nodes.m level := by
    have least := nodes.minM
    unfold levelM
    split_ifs <;> omega
  obtain ⟨item, member, other⟩ := candidate
  have sorted : ∃ item ∈ sortNearest candidates, item.2 ≠ src :=
    ⟨item, (sortNearest_perm candidates).symm.subset member, other⟩
  rw [selectNeighbors]
  split_ifs
  · exact fillSelected_ne_nil positive sorted
  · exact fillSelected_ne_nil positive sorted

end Selection

/-! ### Every list stays well formed -/

/-- A list within the capacity of its level, of other nodes of the level, each once. -/
def ListSound (nodes : BuildNodes D) (src level : Nat) (items : List (D × Nat)) : Prop :=
  WellFormedList (levelM nodes.m level) (fun target => nodes.hasLevel target level = true) src
    (names items)

/-- **Every list is well formed.** -/
def ListsSound (nodes : BuildNodes D) (lists : BuildLists D) : Prop :=
  ∀ nodeId level, ListSound nodes nodeId level (lists nodeId level)

section Sound

variable {nodes : BuildNodes D} {lists : BuildLists D} {src dst level : Nat}
  {items : List (D × Nat)}

theorem names_append (items : List (D × Nat)) (item : D × Nat) :
    names (items ++ [item]) = names items ++ [item.2] := List.map_append

theorem names_set (items : List (D × Nat)) (slot : Nat) (item : D × Nat) :
    names (items.set slot item) = (names items).set slot item.2 := List.map_set

theorem names_withDistances (candidates : List (D × Nat)) (selected : List Nat) :
    names (withDistances nodes candidates selected) = selected := by
  rw [names, withDistances, List.map_map]
  exact List.map_id selected

theorem BuildLists.set_same (lists : BuildLists D) (nodeId level : Nat)
    (items : List (D × Nat)) : lists.set nodeId level items nodeId level = items :=
  if_pos ⟨rfl, rfl⟩

theorem BuildLists.set_other (lists : BuildLists D) {nodeId level other otherLevel : Nat}
    (apart : ¬(other = nodeId ∧ otherLevel = level)) (items : List (D × Nat)) :
    lists.set nodeId level items other otherLevel = lists other otherLevel :=
  if_neg apart

theorem ListsSound.set (sound : ListsSound nodes lists) (list : ListSound nodes src level items) :
    ListsSound nodes (lists.set src level items) := by
  intro other otherLevel
  by_cases here : other = src ∧ otherLevel = level
  · obtain ⟨rfl, rfl⟩ := here
    rw [BuildLists.set_same]
    exact list
  · rw [BuildLists.set_other _ here]
    exact sound other otherLevel

theorem listSound_nil : ListSound nodes src level [] :=
  ⟨Nat.zero_le _, List.not_mem_nil, List.nodup_nil, fun _ member => absurd member List.not_mem_nil⟩

theorem ListSound.append (list : ListSound nodes src level items)
    (may : src ≠ dst ∧ nodes.hasLevel dst level = true ∧ dst ∉ names items)
    (room : items.length < levelM nodes.m level) (distance : D) :
    ListSound nodes src level (items ++ [(distance, dst)]) := by
  rw [ListSound, names_append]
  refine WellFormedList.append list ?_ may.1.symm may.2.2 may.2.1
  rw [names, List.length_map]
  exact room

theorem ListSound.replace (list : ListSound nodes src level items)
    (may : src ≠ dst ∧ nodes.hasLevel dst level = true ∧ dst ∉ names items) (slot : Nat)
    (distance : D) : ListSound nodes src level (items.set slot (distance, dst)) := by
  rw [ListSound, names_set]
  exact WellFormedList.set list slot may.1.symm may.2.2 may.2.1

theorem Chosen.sound {candidates : List (D × Nat)} {selected : List Nat}
    (chosen : Chosen (levelM nodes.m level) src candidates selected)
    (levels : ∀ target ∈ names candidates, nodes.hasLevel target level = true)
    (measured : List (D × Nat)) :
    ListSound nodes src level (withDistances nodes measured selected) := by
  rw [ListSound, names_withDistances]
  exact ⟨chosen.capacity, chosen.others, chosen.nodup,
    fun target member => levels target (chosen.inside target member)⟩

theorem pruneNeighbors_sound (prepared : Option Nat) (capacity : Nat)
    (others : ∀ nodeId other, ¬(nodeId = src ∧ other = level) →
      ListSound nodes nodeId other (lists nodeId other))
    (list : WellFormedList capacity (fun target => nodes.hasLevel target level = true) src
      (names (lists src level))) (stored : nodes.hasLevel src level = true) :
    ListsSound nodes (pruneNeighbors nodes prepared lists src level) := by
  rw [pruneNeighbors]
  split_ifs with keeps
  · intro nodeId other
    by_cases here : nodeId = src ∧ other = level
    · obtain ⟨rfl, rfl⟩ := here
      rcases keeps with missing | short
      · rw [stored] at missing
        cases missing
      · refine ⟨?_, list.loopless, list.nodup, list.allFit⟩
        rw [names, List.length_map]
        exact short
    · exact others nodeId other here
  · intro nodeId other
    by_cases here : nodeId = src ∧ other = level
    · obtain ⟨rfl, rfl⟩ := here
      rw [BuildLists.set_same]
      exact (selectNeighbors_chosen nodes prepared other list.nodup).sound list.allFit _
    · rw [BuildLists.set_other _ here]
      exact others nodeId other here

/-- **Taking a node back** keeps every list well formed. -/
theorem addNeighbor_sound (sound : ListsSound nodes lists) (prepared : Option Nat)
    (src dst level : Nat) (distance : D) :
    ListsSound nodes (addNeighbor nodes prepared lists src dst level distance) := by
  rw [addNeighbor]
  by_cases may : mayLink nodes lists src dst level
  · rw [if_neg (not_not.mpr may)]
    have list := sound src level
    have link := (⟨may.1, may.2.2.1, may.2.2.2⟩ :
      src ≠ dst ∧ nodes.hasLevel dst level = true ∧ dst ∉ names (lists src level))
    dsimp only
    split_ifs with room fast nearer
    · exact sound.set (list.append link room distance)
    · exact sound.set (list.replace link _ distance)
    · exact sound
    · refine pruneNeighbors_sound prepared (levelM nodes.m level + 1) (fun nodeId other apart => ?_)
        ?_ may.2.1
      · rw [BuildLists.set_other _ apart]
        exact sound nodeId other
      · have wider : WellFormedList (levelM nodes.m level + 1)
            (fun target => nodes.hasLevel target level = true) src (names (lists src level)) :=
          ⟨list.bounded.trans (Nat.le_succ _), list.loopless, list.nodup, list.allFit⟩
        rw [BuildLists.set_same, names_append]
        exact wider.append (Nat.lt_succ_of_le list.bounded) link.1.symm link.2.2 link.2.1
  · rw [if_pos may]
    exact sound

theorem addNeighborIfRoom_sound (sound : ListsSound nodes lists) (src dst level : Nat)
    (distance : D) : ListsSound nodes (addNeighborIfRoom nodes lists src dst level distance) := by
  rw [addNeighborIfRoom]
  split_ifs with takes
  · obtain ⟨may, room⟩ := takes
    exact sound.set ((sound src level).append ⟨may.1, may.2.2.1, may.2.2.2⟩ room distance)
  · exact sound

/-- **An edge of the backbone** keeps every list well formed. -/
theorem forceNeighbor_sound (sound : ListsSound nodes lists) (src dst level : Nat) :
    ListsSound nodes (forceNeighbor nodes lists src dst level) := by
  rw [forceNeighbor]
  by_cases may : mayLink nodes lists src dst level
  · rw [if_neg (not_not.mpr may)]
    have link := (⟨may.1, may.2.2.1, may.2.2.2⟩ :
      src ≠ dst ∧ nodes.hasLevel dst level = true ∧ dst ∉ names (lists src level))
    split_ifs with room
    · exact sound.set ((sound src level).append link room _)
    · exact sound.set ((sound src level).replace link _ _)
  · rw [if_pos may]
    exact sound

theorem linkAdjacentBuildNode_sound (sound : ListsSound nodes lists) (prepared : Option Nat)
    {nodeId prevId : Nat} (apart : nodeId ≠ prevId) :
    ListsSound nodes (linkAdjacentBuildNode nodes prepared lists nodeId prevId) := by
  rw [linkAdjacentBuildNode]
  split_ifs with missing
  · exact sound
  · have stored : nodes.hasLevel prevId 0 = true :=
      Bool.not_eq_false _ ▸ fun none_ => missing (.inr none_)
    have room : ([] : List (D × Nat)).length < levelM nodes.m 0 := by
      have least := nodes.minM
      rw [levelM, if_pos rfl, List.length_nil]
      omega
    have list : ListSound nodes nodeId 0 [(nodes.distance prepared nodeId prevId, prevId)] :=
      listSound_nil.append ⟨apart, stored, List.not_mem_nil⟩ room _
    exact addNeighborIfRoom_sound (sound.set list) _ _ _ _

end Sound

end TurboHybrid.Graph.Build
