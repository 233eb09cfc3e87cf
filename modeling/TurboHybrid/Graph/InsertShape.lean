/-
**What an insert does to the lists of neighbours.**

The new node takes as neighbours the nearest candidates that are spread out, then the nearest of the
others, up to the capacity of each level. Each of them takes the new node into its own list; a list
that is full is cut to the nearest nodes that can be measured.

* `selectInsertNeighbors`, `selectInsertDocumentNeighbors`: the neighbours of a vector and of a
  multi-vector document;
* `pruneNeighbors_closest`: a full list keeps the nearest ones;
* `insert_sound`: every list stays well formed, for both kinds of inserts.
-/
import TurboHybrid.Graph.InsertSearch
import TurboHybrid.Graph.VacuumShape

set_option linter.unusedSectionVars false

namespace TurboHybrid.Graph

open Library

/-! ### The two kinds of inserts -/

section Insertions

variable {F V Doc : Type} [LinearOrder F]

/-- The insert of a vector: its level draw, code, exact vectors and distances. All distances lie below
`DBL_MAX`, which stands above for nodes that cannot be measured. -/
structure NodeInsert (F V : Type) where
  pickLevel : Nat → Nat
  code : List Nat
  vector : V
  exactFree : Bool
  vectors : Nat → V
  exactDistance : V → V → F
  codeCodeDistance : Nat → Nat → Option F
  scoreNode : Nat → F
  resultDistance : Nat → WithTop F → WithTop F
  entries : List (WithTop F × Nat)
  resultTarget : Nat

/-- The insert of a document: the documents of the stored nodes and their distances. -/
structure DocumentInsert (F Doc : Type) where
  pickLevel : Nat → Nat
  code : List Nat
  document : Doc
  documents : Nat → Doc
  documentDistance : Doc → Doc → F
  firstNodeIds : List Nat
  candidateLimit : Nat

/-- A node whose code page cannot be loaded or that is dead. -/
def isUnusable (index : GraphIndex) (nodeId : Nat) : Bool :=
  decide (index.page.nodeCount ≤ nodeId) || nodeDead index.nodes nodeId

namespace NodeInsert

variable (new : NodeInsert F V) (index : GraphIndex)

def readExactVector (nodeId : Nat) : Option V :=
  if new.exactFree then none else some (new.vectors nodeId)

def exactDistanceToNode (query : V) (nodeId : Nat) : WithTop F :=
  if isUnusable index nodeId then ⊤
  else
    match new.readExactVector nodeId with
    | none => ⊤
    | some vector => (new.exactDistance query vector : F)

def insertQueryDistanceToNode (nodeId : Nat) : WithTop F :=
  if isUnusable index nodeId then ⊤ else (new.scoreNode nodeId : F)

def insertCodeDistanceToNode (source nodeId : Nat) : WithTop F :=
  let newNodeId := index.page.nodeCount
  if nodeDead index.nodes source then ⊤
  else if nodeId ≠ newNodeId ∧ isUnusable index nodeId = true then ⊤
  else
    match new.codeCodeDistance source nodeId with
    | some distance => (distance : F)
    | none =>
      if nodeId = newNodeId then new.insertQueryDistanceToNode index source
      else new.insertQueryDistanceToNode index nodeId

/-- The distance by which a source ranks its neighbours and the new node. -/
def reciprocalDistance (source nodeId : Nat) : WithTop F :=
  match new.readExactVector source with
  | some sourceVector =>
    if nodeId = index.page.nodeCount then (new.exactDistance sourceVector new.vector : F)
    else new.exactDistanceToNode index sourceVector nodeId
  | none => new.insertCodeDistanceToNode index source nodeId

def support : InsertSupport (WithTop F) where
  pickLevel := new.pickLevel
  distance := new.reciprocalDistance index
  dblMax := ⊤

def searchContext : SearchContext (WithTop F) where
  nodeCount := index.page.nodeCount
  neighbors nodeId := loadAdjTuple index nodeId 0
  dead := nodeDead index.nodes
  score nodeId := (new.scoreNode nodeId : F)
  resultDistance := new.resultDistance
  exactRescore nodeId distance :=
    match new.readExactVector nodeId with
    | none => distance
    | some vector => (new.exactDistance new.vector vector : F)

def insertCandidateDiverse (candidate : WithTop F × Nat) (selected : List Nat) : Bool :=
  match new.readExactVector candidate.2 with
  | none => true
  | some vector =>
    selected.all fun nodeId => !decide (new.exactDistanceToNode index vector nodeId < candidate.1)

end NodeInsert

namespace DocumentInsert

variable (new : DocumentInsert F Doc) (index : GraphIndex)

def documentInsertVectorForNode (nodeId : Nat) : Option Doc :=
  if nodeId = index.page.nodeCount then some new.document
  else if isUnusable index nodeId then none
  else some (new.documents nodeId)

def documentInsertNodeDistance (one other : Nat) : WithTop F :=
  match new.documentInsertVectorForNode index one, new.documentInsertVectorForNode index other with
  | some first, some second => (new.documentDistance first second : F)
  | _, _ => ⊤

def support : InsertSupport (WithTop F) where
  pickLevel := new.pickLevel
  distance := new.documentInsertNodeDistance index
  dblMax := ⊤

def documentContext : DocumentContext (WithTop F) where
  nodeCount := index.page.nodeCount
  firstNodeIds := new.firstNodeIds
  dead := nodeDead index.nodes
  distance := new.documentInsertNodeDistance index index.page.nodeCount
  dblMax := ⊤

def documentInsertCandidateDiverse (candidate : WithTop F × Nat) (selected : List Nat) : Bool :=
  selected.all fun nodeId =>
    !decide (new.documentInsertNodeDistance index candidate.2 nodeId < candidate.1)

end DocumentInsert

/-! ### The selection -/

section Selection

variable {D : Type} [LinearOrder D]

/-- The nearest first, of two at one distance the smaller id. -/
def sortNearest (items : List (D × Nat)) : List (D × Nat) :=
  items.insertionSort fun one other => one.1 < other.1 ∨ one.1 = other.1 ∧ one.2 ≤ other.2

theorem sortNearest_perm (items : List (D × Nat)) : (sortNearest items).Perm items :=
  List.perm_insertionSort _ items

theorem sortNearest_ordered (items : List (D × Nat)) :
    (sortNearest items).Pairwise fun one other => one.1 ≤ other.1 := by
  have total : Std.Total fun one other : D × Nat =>
      one.1 < other.1 ∨ one.1 = other.1 ∧ one.2 ≤ other.2 := ⟨fun one other => by
    rcases lt_trichotomy one.1 other.1 with less | same | less
    · exact .inl (.inl less)
    · rcases Nat.le_total one.2 other.2 with low | low
      · exact .inl (.inr ⟨same, low⟩)
      · exact .inr (.inr ⟨same.symm, low⟩)
    · exact .inr (.inl less)⟩
  have trans : IsTrans (D × Nat) fun one other =>
      one.1 < other.1 ∨ one.1 = other.1 ∧ one.2 ≤ other.2 := ⟨by
    rintro one middle other (less | ⟨same, low⟩) (less' | ⟨same', low'⟩)
    · exact .inl (less.trans less')
    · exact .inl (same' ▸ less)
    · exact .inl (same ▸ less')
    · exact .inr ⟨same.trans same', low.trans low'⟩⟩
  refine (List.pairwise_insertionSort _ items).imp fun {one other} before => ?_
  rcases before with less | ⟨same, -⟩
  · exact less.le
  · exact same.le

/-- Take the nearest diverse candidates of a level, then the nearest of the others. -/
def selectLevel (index : GraphIndex) (diverse : D × Nat → List Nat → Bool)
    (candidates : List (D × Nat)) (level : Nat) : List Nat :=
  let sorted := sortNearest candidates
  let maxNeighbors := levelM index.page.m level
  let spread := sorted.foldl (fun selected candidate =>
    if selected.length < maxNeighbors ∧ takesReciprocal index candidate.2 level = true ∧
        diverse candidate selected = true then selected ++ [candidate.2]
    else selected) []
  sorted.foldl (fun selected candidate =>
    if selected.length < maxNeighbors ∧ takesReciprocal index candidate.2 level = true ∧
        candidate.2 ∉ selected then selected ++ [candidate.2]
    else selected) spread

end Selection

def selectInsertNeighbors (new : NodeInsert F V) (index : GraphIndex) : Nat → List Nat :=
  selectLevel index (new.insertCandidateDiverse index)
    (traverse (new.searchContext index) new.entries new.resultTarget new.resultTarget)

def selectInsertDocumentNeighbors (new : DocumentInsert F Doc) (index : GraphIndex) :
    Nat → List Nat :=
  selectLevel index (new.documentInsertCandidateDiverse index)
    (collectDocumentInsertCandidates (new.documentContext index) new.candidateLimit)

inductive Insertion (F V Doc : Type) where
  | node (new : NodeInsert F V)
  | document (new : DocumentInsert F Doc)

namespace Insertion

def support (index : GraphIndex) : Insertion F V Doc → InsertSupport (WithTop F)
  | .node new => new.support index
  | .document new => new.support index

def selected (index : GraphIndex) : Insertion F V Doc → Nat → List Nat
  | .node new => selectInsertNeighbors new index
  | .document new => selectInsertDocumentNeighbors new index

def code : Insertion F V Doc → List Nat
  | .node new => new.code
  | .document new => new.code

/-- The insert: selection, reciprocal updates and the tuples of the new node. -/
def run (index : GraphIndex) (insertion : Insertion F V Doc) :
    GraphIndex × Except GraphError Nat :=
  graphInsert (insertion.support index) ⟨insertion.code, insertion.selected index⟩ index

end Insertion

end Insertions

/-! ### What is selected -/

section Selected

variable {D : Type} [LinearOrder D] {index : GraphIndex} {level maxNeighbors : Nat}

/-- Nodes selected for a level: each once, not too many, and all take part. -/
structure SelectedNodes (index : GraphIndex) (level maxNeighbors : Nat) (selected : List Nat) :
    Prop where
  nodup : selected.Nodup
  bounded : selected.length ≤ maxNeighbors
  take : ∀ nodeId ∈ selected, takesReciprocal index nodeId level = true

theorem SelectedNodes.push {selected : List Nat} {nodeId : Nat}
    (before : SelectedNodes index level maxNeighbors selected)
    (room : selected.length < maxNeighbors) (takes : takesReciprocal index nodeId level = true)
    (fresh : nodeId ∉ selected) :
    SelectedNodes index level maxNeighbors (selected ++ [nodeId]) where
  nodup := by
    refine before.nodup.append (List.nodup_singleton nodeId) ?_
    exact fun other old new => fresh (List.mem_singleton.mp new ▸ old)
  bounded := by
    rw [List.length_append]
    exact room
  take := by
    intro other member
    rcases List.mem_append.mp member with old | new
    · exact before.take other old
    · exact List.mem_singleton.mp new ▸ takes

theorem SelectedNodes.spread (diverse : D × Nat → List Nat → Bool) {candidates : List (D × Nat)}
    (distinct : Distinct candidates) {selected : List Nat}
    (before : SelectedNodes index level maxNeighbors selected)
    (fresh : ∀ candidate ∈ candidates, candidate.2 ∉ selected) :
    SelectedNodes index level maxNeighbors (candidates.foldl (fun selected candidate =>
      if selected.length < maxNeighbors ∧ takesReciprocal index candidate.2 level = true ∧
          diverse candidate selected = true then selected ++ [candidate.2]
      else selected) selected) := by
  induction candidates generalizing selected with
  | nil => exact before
  | cons candidate rest ih =>
    obtain ⟨apart, later⟩ := List.nodup_cons.mp (show (candidate.2 :: rest.map Prod.snd).Nodup from
      distinct)
    have here : candidate.2 ∉ selected := fresh candidate List.mem_cons_self
    have behind (other : D × Nat) (member : other ∈ rest) : other.2 ∉ selected :=
      fresh other (List.mem_cons_of_mem candidate member)
    rw [List.foldl_cons]
    split_ifs with takes
    · refine ih later (before.push takes.1 takes.2.1 here) fun other member inside => ?_
      rcases List.mem_append.mp inside with old | new
      · exact behind other member old
      · exact apart (List.mem_singleton.mp new ▸ List.mem_map_of_mem member)
    · exact ih later before behind

/-- **What is selected for a level** from distinct candidates. -/
theorem selectLevel_selected (index : GraphIndex) (diverse : D × Nat → List Nat → Bool)
    {candidates : List (D × Nat)} (distinct : Distinct candidates) (level : Nat) :
    SelectedNodes index level (levelM index.page.m level)
      (selectLevel index diverse candidates level) := by
  unfold selectLevel
  dsimp only
  have apart : Distinct (sortNearest candidates) :=
    distinct.subperm (sortNearest_perm candidates).subperm
  refine List.foldlRecOn _ _ ?_ ?_
  · refine SelectedNodes.spread diverse apart ⟨List.nodup_nil, Nat.zero_le _, ?_⟩ ?_
    · exact fun _ member => absurd member List.not_mem_nil
    · exact fun _ _ => List.not_mem_nil
  · intro selected before candidate _
    split_ifs with takes
    · exact before.push takes.1 takes.2.1 takes.2.2
    · exact before

end Selected

/-! ### Lists cut to the nearest nodes -/

section Prune

variable {D : Type} [LinearOrder D] {support : InsertSupport D}
  {source maxNeighbors newNodeId : Nat} {neighbors : List Nat}

/-- **The nearest of what is offered**: as many as there is room for, and none that is left out is
nearer than one that is kept. -/
structure KeepsClosest (distance : Nat → D) (capacity : Nat) (offered kept : List Nat) : Prop where
  full : kept.length = capacity
  nodup : kept.Nodup
  inside : ∀ nodeId ∈ kept, nodeId ∈ offered
  closest : ∀ one ∈ kept, ∀ other ∈ offered, other ∉ kept → distance one ≤ distance other

/-- The neighbours ranked by their distance from a source. -/
def rankNeighbors (support : InsertSupport D) (source : Nat) (neighbors : List Nat) :
    List (D × Nat) :=
  sortNearest (neighbors.map fun neighbor => (support.distance source neighbor, neighbor))

theorem pruneNeighbors_eq (support : InsertSupport D) (source maxNeighbors : Nat)
    (neighbors : List Nat) :
    pruneNeighbors support source maxNeighbors neighbors =
      (((rankNeighbors support source neighbors).filter fun item =>
        decide (item.1 < support.dblMax)).take maxNeighbors).map Prod.snd := rfl

theorem rankNeighbors_perm (support : InsertSupport D) (source : Nat) (neighbors : List Nat) :
    (rankNeighbors support source neighbors).Perm
      (neighbors.map fun neighbor => (support.distance source neighbor, neighbor)) :=
  sortNearest_perm _

theorem mem_rankNeighbors {item : D × Nat}
    (member : item ∈ rankNeighbors support source neighbors) :
    item.2 ∈ neighbors ∧ item.1 = support.distance source item.2 := by
  obtain ⟨nodeId, inside, rfl⟩ :=
    List.mem_map.mp ((rankNeighbors_perm support source neighbors).subset member)
  exact ⟨inside, rfl⟩

theorem pruneNeighbors_subperm (support : InsertSupport D) (source maxNeighbors : Nat)
    (neighbors : List Nat) :
    (pruneNeighbors support source maxNeighbors neighbors).Subperm neighbors := by
  have names : ((rankNeighbors support source neighbors).map Prod.snd).Perm neighbors := by
    refine ((rankNeighbors_perm support source neighbors).map Prod.snd).trans ?_
    rw [List.map_map]
    exact List.Perm.of_eq (List.map_id neighbors)
  rw [pruneNeighbors_eq]
  refine List.Subperm.trans ?_ names.subperm
  exact (((List.take_sublist _ _).trans List.filter_sublist).map Prod.snd).subperm

theorem pruneNeighbors_nodup (support : InsertSupport D) (source maxNeighbors : Nat)
    (nodup : neighbors.Nodup) : (pruneNeighbors support source maxNeighbors neighbors).Nodup := by
  obtain ⟨part, same, sublist⟩ := pruneNeighbors_subperm support source maxNeighbors neighbors
  exact same.nodup_iff.mp (nodup.sublist sublist)

theorem length_pruneNeighbors_le :
    (pruneNeighbors support source maxNeighbors neighbors).length ≤ maxNeighbors := by
  unfold pruneNeighbors
  rw [List.length_map]
  exact List.length_take_le _ _

/-- **A full list keeps the nearest ones**, where all can be measured. -/
theorem pruneNeighbors_closest (nodup : neighbors.Nodup)
    (measured : ∀ nodeId ∈ neighbors, support.distance source nodeId < support.dblMax)
    (enough : maxNeighbors ≤ neighbors.length) :
    KeepsClosest (support.distance source) maxNeighbors neighbors
      (pruneNeighbors support source maxNeighbors neighbors) := by
  have perm := rankNeighbors_perm support source neighbors
  have ordered := sortNearest_ordered
    (neighbors.map fun neighbor => (support.distance source neighbor, neighbor))
  rw [← rankNeighbors, ← List.take_append_drop maxNeighbors (rankNeighbors ..)] at ordered
  have all : (rankNeighbors support source neighbors).filter
      (fun item => decide (item.1 < support.dblMax)) = rankNeighbors support source neighbors := by
    refine List.filter_eq_self.mpr fun item member => ?_
    obtain ⟨inside, same⟩ := mem_rankNeighbors member
    rw [same]
    exact decide_eq_true (measured item.2 inside)
  refine ⟨?_, pruneNeighbors_nodup support source maxNeighbors nodup, fun nodeId member =>
    (pruneNeighbors_subperm support source maxNeighbors neighbors).subset member, ?_⟩
  · rw [pruneNeighbors_eq, all, List.length_map, List.length_take, perm.length_eq,
      List.length_map]
    exact min_eq_left enough
  · rw [pruneNeighbors_eq, all]
    intro one kept other present dropped
    obtain ⟨item, taken, rfl⟩ := List.mem_map.mp kept
    have ranked : (support.distance source other, other) ∈ rankNeighbors support source neighbors :=
      perm.symm.subset (List.mem_map_of_mem present)
    rw [← List.take_append_drop maxNeighbors (rankNeighbors ..)] at ranked
    have behind := (List.mem_append.mp ranked).resolve_left fun early =>
      dropped (List.mem_map_of_mem early)
    have before := (List.pairwise_append.mp ordered).2.2 item taken _ behind
    rwa [(mem_rankNeighbors (List.mem_of_mem_take taken)).2] at before

end Prune

/-! ### The updates of the selected neighbours -/

section Update

variable {D : Type} [LinearOrder D] (support : InsertSupport D) (newNodeId : Nat)
  {index other : GraphIndex} {nodeId level : Nat}

/-- The list of a selected neighbour after its update. -/
def updatedList (index : GraphIndex) (nodeId level : Nat) : List Nat :=
  if takesReciprocal index nodeId level then
    reciprocalNeighbors support (levelM index.page.m level) newNodeId nodeId
      (loadAdjTuple index nodeId level)
  else index.adjacency nodeId level

theorem updatedList_congr (page : other.page = index.page) (nodes : other.nodes = index.nodes)
    (list : other.adjacency nodeId level = index.adjacency nodeId level) :
    updatedList support newNodeId other nodeId level =
      updatedList support newNodeId index nodeId level := by
  unfold updatedList takesReciprocal loadAdjTuple
  rw [page, nodes, list]

theorem updateReciprocalNeighbor_adjacency (index : GraphIndex) (source here nodeId level : Nat) :
    (updateReciprocalNeighbor support newNodeId here index source).adjacency nodeId level =
      if nodeId = source ∧ level = here then updatedList support newNodeId index nodeId level
      else index.adjacency nodeId level := by
  unfold updateReciprocalNeighbor
  split_ifs with takes there there
  · obtain ⟨rfl, rfl⟩ := there
    rw [updatedList, if_pos takes]
    exact Adjacency.set_same ..
  · exact Adjacency.set_other _ _ there
  · obtain ⟨rfl, rfl⟩ := there
    rw [updatedList, if_neg takes]
  · rfl

theorem updateLevel_adjacency {sources : List Nat} (nodup : sources.Nodup) (index : GraphIndex)
    (here nodeId level : Nat) :
    (sources.foldl (updateReciprocalNeighbor support newNodeId here) index).adjacency nodeId level =
      if nodeId ∈ sources ∧ level = here then updatedList support newNodeId index nodeId level
      else index.adjacency nodeId level := by
  induction sources generalizing index with
  | nil => rw [if_neg fun both => List.not_mem_nil both.1]; rfl
  | cons source rest ih =>
    obtain ⟨apart, later⟩ := List.nodup_cons.mp nodup
    obtain ⟨page, nodes⟩ := updateReciprocalNeighbor_page support newNodeId here index source
    rw [List.foldl_cons, ih later, updateReciprocalNeighbor_adjacency]
    by_cases first : nodeId = source
    · subst first
      have absent : ¬(nodeId ∈ rest ∧ level = here) := fun both => apart both.1
      rw [if_neg absent]
      by_cases there : level = here
      · rw [if_pos ⟨rfl, there⟩, if_pos ⟨List.mem_cons_self, there⟩]
      · rw [if_neg fun both => there both.2, if_neg fun both => there both.2]
    · have same : (nodeId ∈ source :: rest ∧ level = here) ↔ (nodeId ∈ rest ∧ level = here) := by
        rw [List.mem_cons, or_iff_right first]
      rw [if_neg fun both : nodeId = source ∧ level = here => first both.1, if_congr same rfl rfl]
      refine if_congr Iff.rfl (updatedList_congr support newNodeId page nodes ?_) rfl
      rw [updateReciprocalNeighbor_adjacency, if_neg fun both => first both.1]

/-- **All updates**: the lists of the selected neighbours change, each once, and no other. -/
theorem updateReciprocalNeighbors_adjacency {selected : Nat → List Nat}
    (nodup : ∀ level, (selected level).Nodup) (index : GraphIndex) (nodeLevel nodeId level : Nat) :
    (updateReciprocalNeighbors support newNodeId nodeLevel selected index).adjacency nodeId level =
      if level ≤ nodeLevel ∧ nodeId ∈ selected level then
        updatedList support newNodeId index nodeId level
      else index.adjacency nodeId level := by
  have levels (levels : List Nat) (apart : levels.Nodup) (index : GraphIndex) :
      (levels.foldl (fun index level =>
        (selected level).foldl (updateReciprocalNeighbor support newNodeId level) index)
          index).adjacency nodeId level =
        if level ∈ levels ∧ nodeId ∈ selected level then
          updatedList support newNodeId index nodeId level
        else index.adjacency nodeId level := by
    induction levels generalizing index with
    | nil => rw [if_neg fun both => List.not_mem_nil both.1]; rfl
    | cons here rest ih =>
      obtain ⟨fresh, later⟩ := List.nodup_cons.mp apart
      have one := updateLevel_adjacency support newNodeId (nodup here) index here nodeId level
      obtain ⟨page, nodes⟩ := updateLevel_page support newNodeId (selected here) here index
      rw [List.foldl_cons, ih later, one]
      by_cases first : level = here
      · subst first
        rw [if_neg fun both => fresh both.1]
        refine if_congr ?_ rfl rfl
        rw [and_comm]
        exact and_congr_left fun _ => iff_of_true rfl List.mem_cons_self
      · have same : (level ∈ here :: rest ∧ nodeId ∈ selected level) ↔
            (level ∈ rest ∧ nodeId ∈ selected level) := by
          rw [List.mem_cons, or_iff_right first]
        rw [if_neg fun both : nodeId ∈ selected here ∧ level = here => first both.2,
          if_congr same rfl rfl]
        refine if_congr Iff.rfl (updatedList_congr support newNodeId page nodes ?_) rfl
        rw [one, if_neg fun both => first both.2]
  rw [updateReciprocalNeighbors, levels _ List.nodup_range index]
  refine if_congr ?_ rfl rfl
  rw [List.mem_range, Nat.lt_succ_iff]

end Update

/-! ### The whole insert -/

section Sound

variable {F V Doc : Type} [LinearOrder F] {insertion : Insertion F V Doc} {index : GraphIndex}
  {level source nodeId newNodeId : Nat} {neighbors : List Nat}

def Insertion.pickLevel : Insertion F V Doc → Nat → Nat
  | .node new => new.pickLevel
  | .document new => new.pickLevel

/-- What may stand in a list of a level: a node of the level, or the id that the next insert takes,
which a failed insert may have left. -/
def FitsInsert (pickLevel : Nat → Nat) (index : GraphIndex) (level neighbor : Nat) : Prop :=
  neighbor < index.page.nodeCount ∧ level ≤ nodeLevel index.nodes neighbor ∨
    neighbor = index.page.nodeCount ∧ level ≤ pickLevel index.page.nodeCount

structure InsertWellFormed (pickLevel : Nat → Nat) (index : GraphIndex) : Prop where
  counted : index.page.nodeCount = index.nodes.length
  lists : ∀ nodeId level, Stores index nodeId level →
    WellFormedList (levelM index.page.m level) (FitsInsert pickLevel index level) nodeId
      (index.adjacency nodeId level)

/-- **A sound insert**: the lists stay well formed, none gets a dead target, and a full list of live
nodes that takes the new one keeps the nearest of them all. -/
structure InsertSound (insertion : Insertion F V Doc) (before after : GraphIndex) : Prop where
  wellFormed : InsertWellFormed insertion.pickLevel after
  live : ∀ nodeId level, Stores after nodeId level → ∀ neighbor ∈ after.adjacency nodeId level,
    nodeDead after.nodes neighbor = true →
      Stores before nodeId level ∧ neighbor ∈ before.adjacency nodeId level
  closest : ∀ level source, level ≤ insertion.pickLevel before.page.nodeCount →
    Stores before source level → source ∈ insertion.selected before level →
      (before.adjacency source level).length = levelM before.page.m level →
        (∀ neighbor ∈ before.adjacency source level, nodeDead before.nodes neighbor = false) →
          before.page.nodeCount ∉ before.adjacency source level →
            KeepsClosest ((insertion.support before).distance source) (levelM before.page.m level)
              (before.adjacency source level ++ [before.page.nodeCount])
              (after.adjacency source level)

theorem takesReciprocal_iff : takesReciprocal index source level = true ↔
    source < index.page.nodeCount ∧ nodeDead index.nodes source = false ∧
      level ≤ nodeLevel index.nodes source := by
  simp only [takesReciprocal, Bool.and_eq_true, decide_eq_true_eq, Bool.not_eq_true', and_assoc]

theorem fitsInsert_of_takes {pickLevel : Nat → Nat}
    (takes : takesReciprocal index source level = true) : FitsInsert pickLevel index level source :=
  .inl ⟨(takesReciprocal_iff.mp takes).1, (takesReciprocal_iff.mp takes).2.2⟩

theorem isUnusable_of_takes (takes : takesReciprocal index source level = true) :
    isUnusable index source = false := by
  obtain ⟨known, live, -⟩ := takesReciprocal_iff.mp takes
  rw [isUnusable, live, Bool.or_false, decide_eq_false_iff_not]
  exact not_le.mpr known

theorem Insertion.selected_spec (insertion : Insertion F V Doc) (index : GraphIndex) (level : Nat) :
    SelectedNodes index level (levelM index.page.m level) (insertion.selected index level) := by
  cases insertion with
  | node new => exact selectLevel_selected index _ (traverse_distinct ..) level
  | document new =>
    exact selectLevel_selected index _ (collectDocumentInsertCandidates_distinct ..) level

theorem Insertion.distance_measured (insertion : Insertion F V Doc)
    (takes : takesReciprocal index source level = true)
    (target : nodeId = index.page.nodeCount ∨ takesReciprocal index nodeId level = true) :
    (insertion.support index).distance source nodeId < (insertion.support index).dblMax := by
  have usable := isUnusable_of_takes takes
  obtain ⟨known, live, -⟩ := takesReciprocal_iff.mp takes
  have reachable : nodeId ≠ index.page.nodeCount → isUnusable index nodeId = false :=
    fun other => isUnusable_of_takes (target.resolve_left other)
  cases insertion with
  | node new =>
    show new.reciprocalDistance index source nodeId < ⊤
    unfold NodeInsert.reciprocalDistance NodeInsert.exactDistanceToNode
      NodeInsert.insertCodeDistanceToNode NodeInsert.insertQueryDistanceToNode
      NodeInsert.readExactVector
    by_cases same : nodeId = index.page.nodeCount
    · subst same
      cases new.exactFree with
      | false => simp
      | true =>
        cases new.codeCodeDistance source index.page.nodeCount <;> simp [live, usable]
    · have there := reachable same
      cases new.exactFree with
      | false => simp [same, there]
      | true =>
        cases new.codeCodeDistance source nodeId <;> simp [same, live, there]
  | document new =>
    show new.documentInsertNodeDistance index source nodeId < ⊤
    unfold DocumentInsert.documentInsertNodeDistance DocumentInsert.documentInsertVectorForNode
    by_cases same : nodeId = index.page.nodeCount
    · simp [same, usable, known.ne]
    · simp [same, usable, known.ne, reachable same]

theorem reciprocalNeighbors_wellFormed {D : Type} [LinearOrder D] {support : InsertSupport D}
    {capacity : Nat} {fits : Nat → Prop}
    (wellFormed : WellFormedList capacity fits source neighbors) (other : newNodeId ≠ source)
    (fit : fits newNodeId) :
    WellFormedList capacity fits source
      (reciprocalNeighbors support capacity newNodeId source neighbors) := by
  unfold reciprocalNeighbors
  by_cases known : newNodeId ∈ neighbors
  · rw [if_pos known, if_neg (not_lt.mpr wellFormed.bounded)]
    exact wellFormed
  · rw [if_neg known]
    dsimp only
    split_ifs with full
    · -- what is cut is part of the list with the new node, which has room for one more
      have roomy : WellFormedList (capacity + 1) fits source neighbors :=
        { wellFormed with bounded := wellFormed.bounded.trans (Nat.le_succ capacity) }
      have extended := roomy.append (Nat.lt_succ_of_le wellFormed.bounded) other known fit
      have inside := (pruneNeighbors_subperm support source capacity
        (neighbors ++ [newNodeId])).subset
      exact ⟨length_pruneNeighbors_le, fun member => extended.loopless (inside member),
        pruneNeighbors_nodup support source capacity extended.nodup,
        fun neighbor member => extended.allFit neighbor (inside member)⟩
    · rw [List.length_append, not_lt] at full
      exact wellFormed.append full other known fit

theorem mem_reciprocalNeighbors {D : Type} [LinearOrder D] {support : InsertSupport D}
    {capacity neighbor : Nat}
    (member : neighbor ∈ reciprocalNeighbors support capacity newNodeId source neighbors) :
    neighbor ∈ neighbors ∨ neighbor = newNodeId := by
  have extended : ∀ list : List Nat,
      (list = if newNodeId ∈ neighbors then neighbors else neighbors ++ [newNodeId]) →
        neighbor ∈ list → neighbor ∈ neighbors ∨ neighbor = newNodeId := by
    rintro _ rfl inside
    split_ifs at inside
    · exact .inl inside
    · exact (List.mem_append.mp inside).imp_right List.mem_singleton.mp
  unfold reciprocalNeighbors at member
  generalize grown : (if newNodeId ∈ neighbors then neighbors else _) = list at member
  dsimp only at member
  split_ifs at member
  · exact extended list grown.symm ((pruneNeighbors_subperm ..).subset member)
  · exact extended list grown.symm member

theorem InsertWellFormed.loadAdjTuple_eq {pickLevel : Nat → Nat}
    (wellFormed : InsertWellFormed pickLevel index) (stored : Stores index nodeId level) :
    loadAdjTuple index nodeId level = index.adjacency nodeId level := by
  unfold loadAdjTuple
  rw [if_pos ⟨stored.1, stored.2.2⟩]
  exact List.take_of_length_le (wellFormed.lists nodeId level stored).bounded

/-- The graph between the reciprocal updates and the new node's tuples. -/
def Insertion.linked (index : GraphIndex) (insertion : Insertion F V Doc) : GraphIndex :=
  updateReciprocalNeighbors (insertion.support index) index.page.nodeCount
    (insertion.pickLevel index.page.nodeCount) (insertion.selected index) index

theorem Insertion.support_pickLevel (insertion : Insertion F V Doc) :
    (insertion.support index).pickLevel = insertion.pickLevel := by
  cases insertion <;> rfl

theorem Insertion.linked_adjacency (insertion : Insertion F V Doc) (nodeId level : Nat) :
    (insertion.linked index).adjacency nodeId level =
      if level ≤ insertion.pickLevel index.page.nodeCount ∧ nodeId ∈ insertion.selected index level
      then reciprocalNeighbors (insertion.support index) (levelM index.page.m level)
        index.page.nodeCount nodeId (loadAdjTuple index nodeId level)
      else index.adjacency nodeId level := by
  rw [Insertion.linked, updateReciprocalNeighbors_adjacency _ _
    fun level => (insertion.selected_spec index level).nodup]
  by_cases taken : level ≤ insertion.pickLevel index.page.nodeCount ∧
      nodeId ∈ insertion.selected index level
  · rw [if_pos taken, if_pos taken, updatedList,
      if_pos ((insertion.selected_spec index level).take nodeId taken.2)]
  · rw [if_neg taken, if_neg taken]

theorem Insertion.linked_wellFormed (wellFormed : InsertWellFormed insertion.pickLevel index)
    (stored : Stores index nodeId level) :
    WellFormedList (levelM index.page.m level) (FitsInsert insertion.pickLevel index level) nodeId
      ((insertion.linked index).adjacency nodeId level) := by
  rw [Insertion.linked_adjacency]
  split_ifs with taken
  · rw [wellFormed.loadAdjTuple_eq stored]
    exact reciprocalNeighbors_wellFormed (wellFormed.lists nodeId level stored) stored.1.ne'
      (.inr ⟨rfl, taken.1⟩)
  · exact wellFormed.lists nodeId level stored

theorem Insertion.linked_closest (wellFormed : InsertWellFormed insertion.pickLevel index)
    (low : level ≤ insertion.pickLevel index.page.nodeCount) (stored : Stores index source level)
    (taken : source ∈ insertion.selected index level)
    (full : (index.adjacency source level).length = levelM index.page.m level)
    (live : ∀ neighbor ∈ index.adjacency source level, nodeDead index.nodes neighbor = false)
    (fresh : index.page.nodeCount ∉ index.adjacency source level) :
    KeepsClosest ((insertion.support index).distance source) (levelM index.page.m level)
      (index.adjacency source level ++ [index.page.nodeCount])
      ((insertion.linked index).adjacency source level) := by
  have before := wellFormed.lists source level stored
  have takes := (insertion.selected_spec index level).take source taken
  have longer : levelM index.page.m level <
      (index.adjacency source level ++ [index.page.nodeCount]).length := by
    rw [List.length_append, full]
    exact Nat.lt_succ_self _
  rw [Insertion.linked_adjacency, if_pos ⟨low, taken⟩, wellFormed.loadAdjTuple_eq stored,
    reciprocalNeighbors, if_neg fresh, if_pos longer]
  refine pruneNeighbors_closest ?_ (fun nodeId member => ?_) longer.le
  · refine before.nodup.append (List.nodup_singleton _) ?_
    exact fun nodeId old new => fresh (List.mem_singleton.mp new ▸ old)
  · refine insertion.distance_measured takes ?_
    rcases List.mem_append.mp member with old | new
    · rcases before.allFit nodeId old with ⟨known, low⟩ | ⟨rfl, -⟩
      · exact .inr (takesReciprocal_iff.mpr ⟨known, live nodeId old, low⟩)
      · exact .inl rfl
    · exact .inl (List.mem_singleton.mp new)

/-- What a successful insert has done to the graph. -/
structure Appended (insertion : Insertion F V Doc) (before after : GraphIndex) : Prop where
  m : after.page.m = before.page.m
  nodeCount : after.page.nodeCount = before.page.nodeCount + 1
  nodes : after.nodes = before.nodes ++ [⟨insertion.pickLevel before.page.nodeCount, false,
    insertion.code⟩]
  adjacency : ∀ nodeId level, after.adjacency nodeId level =
    if nodeId = before.page.nodeCount ∧
        level ≤ min (insertion.pickLevel before.page.nodeCount) (levelCapacity before.page.m - 1)
    then insertion.selected before level
    else (insertion.linked before).adjacency nodeId level

theorem updateMetaPageFromUpdate_sizes {page update written : Metapage}
    (wrote : updateMetaPageFromUpdate page update = .ok written) :
    written.m = update.m ∧ written.nodeCount = update.nodeCount := by
  unfold updateMetaPageFromUpdate at wrote
  cases advanced : nextGeneration page with
  | error error =>
    rw [advanced] at wrote
    cases wrote
  | ok generation =>
    rw [advanced] at wrote
    obtain rfl := Except.ok.inj wrote
    exact ⟨rfl, rfl⟩

/-- An insert either ends behind the updates, where the generation is exhausted, or appends. -/
theorem Insertion.run_spec (insertion : Insertion F V Doc) (index : GraphIndex) :
    (insertion.run index).1 = insertion.linked index ∨
      Appended insertion index (insertion.run index).1 := by
  have linked : (if 0 < index.page.nodeCount then
      updateReciprocalNeighbors (insertion.support index) index.page.nodeCount
        (insertion.pickLevel index.page.nodeCount) (insertion.selected index) index
      else index) = insertion.linked index := by
    split_ifs with some'
    · rfl
    · -- without nodes nothing is selected
      have empty : insertion.selected index = fun _ => [] := by
        funext level
        refine List.eq_nil_iff_forall_not_mem.mpr fun nodeId member => some' ?_
        have takes := (insertion.selected_spec index level).take nodeId member
        exact Nat.zero_lt_of_lt (takesReciprocal_iff.mp takes).1
      rw [Insertion.linked, updateReciprocalNeighbors, empty]
      exact (List.foldl_fixed _).symm
  obtain ⟨page, nodes⟩ : (insertion.linked index).page = index.page ∧
      (insertion.linked index).nodes = index.nodes := updateReciprocalNeighbors_page ..
  unfold Insertion.run graphInsert
  dsimp only
  rw [insertion.support_pickLevel, linked]
  cases wrote : updateMetaPageFromUpdate _ _ with
  | error error => exact .inl rfl
  | ok written =>
    obtain ⟨sameM, counted⟩ := updateMetaPageFromUpdate_sizes wrote
    refine .inr ⟨sameM, counted, ?_, fun nodeId level => ?_⟩
    · dsimp only [appendInserted]
      rw [nodes]
    · dsimp only [appendInserted]
      rw [page]

theorem Appended.fits {after : GraphIndex} (appended : Appended insertion index after)
    (counted : index.page.nodeCount = index.nodes.length)
    (fits : FitsInsert insertion.pickLevel index level nodeId) :
    FitsInsert insertion.pickLevel after level nodeId := by
  refine .inl ?_
  rw [appended.nodeCount, appended.nodes]
  rcases fits with ⟨known, low⟩ | ⟨rfl, low⟩
  · rw [nodeLevel_append _ (counted ▸ known)]
    exact ⟨Nat.lt_succ_of_lt known, low⟩
  · refine ⟨Nat.lt_succ_self _, ?_⟩
    rw [counted, nodeLevel_new]
    exact counted ▸ low

theorem nodeDead_of_length_le {nodes : List GraphNode} (outside : nodes.length ≤ nodeId) :
    nodeDead nodes nodeId = false := by
  unfold nodeDead
  rw [List.getElem?_eq_none outside]
  rfl

theorem Appended.dead {after : GraphIndex} (appended : Appended insertion index after)
    (dead : nodeDead after.nodes nodeId = true) : nodeDead index.nodes nodeId = true := by
  rw [appended.nodes] at dead
  rcases Nat.lt_trichotomy nodeId index.nodes.length with below | rfl | above
  · rwa [nodeDead_append _ below] at dead
  · rw [nodeDead_new] at dead
    cases dead
  · rw [nodeDead_of_length_le] at dead
    · cases dead
    · rw [List.length_append]
      exact above

theorem Insertion.linked_live (wellFormed : InsertWellFormed insertion.pickLevel index)
    (stored : Stores index nodeId level) {neighbor : Nat}
    (member : neighbor ∈ (insertion.linked index).adjacency nodeId level)
    (dead : nodeDead index.nodes neighbor = true) : neighbor ∈ index.adjacency nodeId level := by
  rw [Insertion.linked_adjacency] at member
  split_ifs at member
  · rw [wellFormed.loadAdjTuple_eq stored] at member
    refine (mem_reciprocalNeighbors member).resolve_right ?_
    rintro rfl
    rw [nodeDead_of_length_le wellFormed.counted.ge] at dead
    cases dead
  · exact member

/-- **An insert is sound** on every graph whose lists are well formed, for a vector and for a
document, and whether or not its page can be written. -/
theorem insert_sound (insertion : Insertion F V Doc)
    (wellFormed : InsertWellFormed insertion.pickLevel index) :
    InsertSound insertion index (insertion.run index).1 := by
  obtain ⟨page, nodes⟩ : (insertion.linked index).page = index.page ∧
      (insertion.linked index).nodes = index.nodes := updateReciprocalNeighbors_page ..
  have counted := wellFormed.counted
  rcases insertion.run_spec index with ended | appended
  · rw [ended]
    have stores (nodeId level : Nat) : Stores (insertion.linked index) nodeId level =
        Stores index nodeId level := by
      unfold Stores
      rw [page, nodes]
    have fits (level : Nat) : FitsInsert insertion.pickLevel (insertion.linked index) level =
        FitsInsert insertion.pickLevel index level := by
      funext neighbor
      unfold FitsInsert
      rw [page, nodes]
    refine ⟨⟨?_, fun nodeId level stored => ?_⟩, fun nodeId level stored neighbor member dead => ?_,
      fun level source low stored taken full live fresh =>
        Insertion.linked_closest wellFormed low stored taken full live fresh⟩
    · rw [page, nodes]
      exact counted
    · rw [fits, page]
      exact Insertion.linked_wellFormed wellFormed (stores nodeId level ▸ stored)
    · rw [stores] at stored
      rw [nodes] at dead
      exact ⟨stored, Insertion.linked_live wellFormed stored member dead⟩
  · generalize (insertion.run index).1 = after at appended
    -- a list after the insert is one from before with its updates, or that of the new node
    have split (nodeId level : Nat) (stored : Stores after nodeId level) :
        Stores index nodeId level ∧
            after.adjacency nodeId level = (insertion.linked index).adjacency nodeId level ∨
          nodeId = index.page.nodeCount ∧
            after.adjacency nodeId level = insertion.selected index level := by
      obtain ⟨below, low, inside⟩ := stored
      rw [appended.nodeCount] at below
      rw [appended.nodes] at low
      rw [appended.m] at inside
      rw [appended.adjacency]
      rcases Nat.lt_succ_iff_lt_or_eq.mp below with old | rfl
      · rw [nodeLevel_append _ (counted ▸ old)] at low
        exact .inl ⟨⟨old, low, inside⟩, if_neg fun both => old.ne both.1⟩
      · rw [counted, nodeLevel_new, ← counted] at low
        exact .inr ⟨rfl, if_pos ⟨rfl, le_min low (Nat.le_sub_one_of_lt inside)⟩⟩
    refine ⟨⟨?_, fun nodeId level stored => ?_⟩, fun nodeId level stored neighbor member dead => ?_,
      fun level source low stored taken full live fresh => ?_⟩
    · rw [appended.nodeCount, appended.nodes, List.length_append, counted]
      rfl
    · rw [appended.m]
      rcases split nodeId level stored with ⟨before, list⟩ | ⟨rfl, list⟩
      · have old := Insertion.linked_wellFormed wellFormed before
        rw [list]
        exact ⟨old.bounded, old.loopless, old.nodup, fun neighbor member =>
          appended.fits counted (old.allFit neighbor member)⟩
      · have selected := insertion.selected_spec index level
        rw [list]
        refine ⟨selected.bounded, fun member => ?_, selected.nodup, fun neighbor member =>
          appended.fits counted (fitsInsert_of_takes (selected.take neighbor member))⟩
        exact Nat.lt_irrefl _ (takesReciprocal_iff.mp (selected.take _ member)).1
    · have before := appended.dead dead
      rcases split nodeId level stored with ⟨there, list⟩ | ⟨rfl, list⟩
      · rw [list] at member
        exact ⟨there, Insertion.linked_live wellFormed there member before⟩
      · rw [list] at member
        have takes := (insertion.selected_spec index level).take neighbor member
        rw [(takesReciprocal_iff.mp takes).2.1] at before
        cases before
    · rw [appended.adjacency, if_neg fun both => stored.1.ne both.1]
      exact Insertion.linked_closest wellFormed low stored taken full live fresh

/-- Three nodes on a line, the first with a full list. -/
def lineGraph : GraphIndex where
  page := ⟨1, 3, some 0, 0, 0, 1, [], [], []⟩
  nodes := [⟨0, false, []⟩, ⟨0, false, []⟩, ⟨0, false, []⟩]
  adjacency := fun nodeId _ => if nodeId = 0 then [1, 2] else [0]

def lineInsert : NodeInsert Nat Nat where
  pickLevel := fun _ => 0
  code := []
  vector := 4
  exactFree := false
  vectors := fun nodeId => 10 * nodeId
  exactDistance := fun one other => one - other + (other - one)
  codeCodeDistance := fun _ _ => none
  scoreNode := fun nodeId => 10 * nodeId - 4 + (4 - 10 * nodeId)
  resultDistance := fun _ distance => distance
  entries := [(((4 : Nat) : WithTop Nat), 0)]
  resultTarget := 3

def lineInsertion : Insertion Nat Nat Unit := .node lineInsert

theorem insert_sound_line : InsertWellFormed lineInsertion.pickLevel lineGraph ∧
    InsertSound lineInsertion lineGraph (lineInsertion.run lineGraph).1 ∧
      (lineInsertion.run lineGraph).1.adjacency 0 0 = [3, 1] := by
  have wellFormed : InsertWellFormed lineInsertion.pickLevel lineGraph := by
    refine ⟨rfl, fun nodeId level stored => ?_⟩
    obtain ⟨below, low, -⟩ := stored
    have below : nodeId < 3 := below
    have ground : level = 0 := by
      interval_cases nodeId <;> exact Nat.le_zero.mp low
    subst ground
    have known : ∀ neighbor ∈ lineGraph.adjacency nodeId 0,
        takesReciprocal lineGraph neighbor 0 = true := by
      interval_cases nodeId <;> decide
    interval_cases nodeId <;>
      exact ⟨by decide, by decide, by decide, fun neighbor member =>
        fitsInsert_of_takes (known neighbor member)⟩
  exact ⟨wellFormed, insert_sound lineInsertion wellFormed, by decide⟩

end Sound

end TurboHybrid.Graph
