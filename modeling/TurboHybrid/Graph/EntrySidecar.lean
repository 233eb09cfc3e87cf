/-
**The entry representatives and the routing entries of a build.**

A build keeps some nodes as further entries: representatives chosen by hash buckets, by covering the
levels, or so that each next one is farthest from all before it, with a table of the smallest
distances that grows with the chosen nodes; and the nodes of the highest levels in a list whose
worst entry is replaced.

* `farthestLoop_follows`: the table picks the nodes that the plain rule picks;
* `buildEntrySidecar_right`: distinct usable nodes, within the limit, and all that the limit allows;
* `buildRoutingEntries_best`: the routing list holds the best nodes above the lowest level;
* `entrySelection_right`: the three together.
-/
import TurboHybrid.Library.FarthestFirst
import TurboHybrid.Library.WorstSlot
import Mathlib.Data.Prod.Lex
import Mathlib.Order.Lex

set_option linter.unusedSectionVars false

namespace TurboHybrid.Graph.EntrySidecar

open TurboHybrid.Library TurboHybrid.Library.FarthestFirst

/-! ### Nodes of a build -/

/-- A node of a build; `hashed` are the bytes of its code, scale, norm and corrections. -/
structure BuildNode where
  level : Nat
  dead : Bool
  hasCode : Bool
  hashed : List UInt8

/-- The nodes of a build with their code distances, which are at most the largest double. -/
structure BuildState (K : Type) [LinearOrder K] [Zero K] [One K] where
  nodeCount : Nat
  nodes : Nat → BuildNode
  entryNodeId : Nat
  codeDistance : Nat → Nat → Option K
  dblMax : K
  entryInside : 0 < nodeCount → entryNodeId < nodeCount
  distance_le : ∀ one other, ∀ distance ∈ codeDistance one other, distance ≤ dblMax
  zero_le : 0 ≤ dblMax
  one_le : 1 ≤ dblMax

/-- `PgturbohybridGraphMix64`. -/
def mix64 (x : UInt64) : UInt64 :=
  let x := x + 0x9e3779b97f4a7c15
  let x := (x ^^^ (x >>> 30)) * 0xbf58476d1ce4e5b9
  let x := (x ^^^ (x >>> 27)) * 0x94d049bb133111eb
  x ^^^ (x >>> 31)

def codeHash (node : BuildNode) : UInt64 :=
  node.hashed.foldl (fun hash byte => (hash ^^^ byte.toUInt64) * 1099511628211)
    1469598103934665603

def candidateKey (node : BuildNode) (nodeId : Nat) : UInt64 :=
  mix64 (codeHash node ^^^ (nodeId.toUInt64 <<< 32) ^^^ nodeId.toUInt64)

section State

variable {K : Type} [LinearOrder K] [Zero K] [One K] (state : BuildState K)

namespace BuildState

def usable (nodeId : Nat) : Bool :=
  decide (nodeId < state.nodeCount) && !(state.nodes nodeId).dead && (state.nodes nodeId).hasCode

/-- `PgturbohybridGraphEntrySidecarAdd`. -/
def sidecarAdd (target : Nat) (selected : List Nat) (nodeId : Nat) : List Nat :=
  if target ≤ selected.length ∨ state.usable nodeId = false ∨ nodeId ∈ selected then selected
  else selected ++ [nodeId]

def sidecarCodeDistance (one other : Nat) : K :=
  match state.codeDistance one other with
  | some distance => distance
  | none => if codeHash (state.nodes one) = codeHash (state.nodes other) then 0 else 1

/-! ### Buckets -/

end BuildState

/-- `PgturbohybridGraphEntrySidecarCandidate`. -/
structure SidecarCandidate where
  nodeId : Nat
  bucket : Nat
  level : Nat
  key : UInt64

/-- Which of two candidates a bucket of the hash strategy keeps. -/
def hashBetter (new old : SidecarCandidate) : Bool :=
  new.key < old.key || (new.key == old.key && new.nodeId < old.nodeId)

/-- Which of two candidates a bucket of the level-covering strategy keeps. -/
def levelBetter (new old : SidecarCandidate) : Bool :=
  old.level < new.level || (new.level == old.level && hashBetter new old)

/-- `PgturbohybridGraphEntrySidecarCandidateCompare`, as an order. -/
def candidateBefore (one other : SidecarCandidate) : Prop :=
  if one.level ≠ other.level then other.level < one.level
  else if one.bucket ≠ other.bucket then one.bucket < other.bucket
  else if one.key ≠ other.key then one.key < other.key
  else one.nodeId ≤ other.nodeId

instance : DecidableRel candidateBefore := fun one other => by
  unfold candidateBefore
  infer_instance

namespace BuildState

def candidateOf (target nodeId : Nat) : SidecarCandidate where
  nodeId := nodeId
  bucket := (codeHash (state.nodes nodeId)).toNat % target
  level := (state.nodes nodeId).level
  key := candidateKey (state.nodes nodeId) nodeId

/-- A usable node goes into its bucket, where it is better than the node there. -/
def offerBucket (better : SidecarCandidate → SidecarCandidate → Bool) (target : Nat)
    (buckets : Nat → Option SidecarCandidate) (nodeId : Nat) : Nat → Option SidecarCandidate :=
  if state.usable nodeId then
    let new := state.candidateOf target nodeId
    match buckets new.bucket with
    | none => Function.update buckets new.bucket (some new)
    | some old =>
      if better new old then Function.update buckets new.bucket (some new) else buckets
  else buckets

/-- The candidates of the buckets, from the first bucket on. -/
def bucketed (better : SidecarCandidate → SidecarCandidate → Bool) (target : Nat) :
    List SidecarCandidate :=
  (List.range target).filterMap
    ((List.range state.nodeCount).foldl (state.offerBucket better target) fun _ => none)

def addAll (target : Nat) (selected nodeIds : List Nat) : List Nat :=
  nodeIds.foldl (state.sidecarAdd target) selected

/-- `PgturbohybridGraphBuildEntrySidecarHash`. -/
def sidecarHash (target : Nat) : List Nat :=
  state.addAll target [] ((state.bucketed hashBetter target).map SidecarCandidate.nodeId)

def maxLevel : Nat :=
  (List.range state.nodeCount).foldl (fun most nodeId =>
    if state.usable nodeId then max most (state.nodes nodeId).level else most) 0

def levelNodes (level : Nat) : List Nat :=
  (List.range state.nodeCount).filter fun nodeId =>
    state.usable nodeId && (state.nodes nodeId).level == level

/-- `PgturbohybridGraphBuildEntrySidecarLevelCovering`: the buckets by level, then all nodes from
the highest level down. -/
def levelCovering (target : Nat) : List Nat :=
  let candidates := (state.bucketed levelBetter target).insertionSort candidateBefore
  state.addAll target (state.addAll target [] (candidates.map SidecarCandidate.nodeId))
    ((List.range (state.maxLevel + 1)).reverse.flatMap state.levelNodes)

/-! ### The farthest nodes -/

/-- The first representative: the entry node, or the first node that is usable. -/
def farthestStart (target : Nat) (selected : List Nat) : List Nat :=
  if selected = [] then
    let first := state.sidecarAdd target [] state.entryNodeId
    if first = [] then
      (List.range state.nodeCount).foldl
        (fun first nodeId => if first = [] then state.sidecarAdd target first nodeId else first) []
    else first
  else selected

/-- One more chosen node in the table of smallest distances. -/
def scoreSelected (selected : List Nat) (minDistances : Nat → K) (chosen : Nat) : Nat → K :=
  fun nodeId =>
    if state.usable nodeId = false ∨ nodeId ∈ selected then minDistances nodeId
    else if state.sidecarCodeDistance nodeId chosen < minDistances nodeId then
      state.sidecarCodeDistance nodeId chosen
    else minDistances nodeId

def farthestNode (selected : List Nat) (minDistances : Nat → K) : Option Nat :=
  scanBest
    (fun new old => minDistances old < minDistances new ∨
      (minDistances new = minDistances old ∧ new < old))
    (fun nodeId => state.usable nodeId = true ∧ nodeId ∉ selected) state.nodeCount

/-- The loop over the representatives; `scored` of them are in the table. -/
def farthestLoop (target : Nat) : Nat → List Nat → (Nat → K) → Nat → List Nat
  | 0, selected, _, _ => selected
  | fuel + 1, selected, minDistances, scored =>
    if target ≤ selected.length then selected
    else
      let minDistances :=
        (selected.drop scored).foldl (state.scoreSelected selected) minDistances
      match state.farthestNode selected minDistances with
      | none => selected
      | some best =>
        farthestLoop target fuel (state.sidecarAdd target selected best) minDistances
          selected.length

/-- `PgturbohybridGraphBuildEntrySidecarFarthest`. -/
def farthest (target : Nat) (selected : List Nat) : List Nat :=
  state.farthestLoop target target (state.farthestStart target selected)
    (fun _ => state.dblMax) 0

end BuildState

/-! ### The strategies -/

inductive SidecarStrategy
  | hash
  | farthestCode
  | levelCovering
  | hybridLevelCovering
  deriving DecidableEq, Repr

def maxEntrySidecarRepresentatives : Nat := 256

namespace BuildState

/-- `PgturbohybridGraphBuildEntrySidecar`. -/
def buildEntrySidecar (entrySidecar : Bool) (representatives : Int) (strategy : SidecarStrategy) :
    List Nat :=
  if entrySidecar = false ∨ state.nodeCount = 0 ∨ representatives ≤ 0 then []
  else
    let target := min representatives.toNat (min state.nodeCount maxEntrySidecarRepresentatives)
    if target = 0 then []
    else
      match strategy with
      | .farthestCode => state.farthest target []
      | .levelCovering => state.levelCovering target
      | .hybridLevelCovering => state.farthest target (state.levelCovering (max 1 (target / 4)))
      | .hash => state.sidecarHash target

end BuildState

/-! ### Lists of representatives -/

namespace BuildState

def usableNodes : List Nat :=
  (List.range state.nodeCount).filter state.usable

/-- **Representatives**: distinct usable nodes, at most as many as asked for. -/
structure Keeps (target : Nat) (selected : List Nat) : Prop where
  distinct : selected.Nodup
  usable : ∀ nodeId ∈ selected, state.usable nodeId = true
  bounded : selected.length ≤ target

def Complete (target : Nat) (selected : List Nat) : Prop :=
  target ≤ selected.length ∨ ∀ nodeId, state.usable nodeId = true → nodeId ∈ selected

variable {state} {target : Nat} {selected : List Nat}

theorem usable_lt {nodeId : Nat} (usable : state.usable nodeId = true) :
    nodeId < state.nodeCount := by
  rw [BuildState.usable, Bool.and_eq_true, Bool.and_eq_true] at usable
  exact of_decide_eq_true usable.1.1

theorem mem_usableNodes {nodeId : Nat} :
    nodeId ∈ state.usableNodes ↔ state.usable nodeId = true := by
  rw [usableNodes, List.mem_filter, List.mem_range]
  exact ⟨And.right, fun usable => ⟨usable_lt usable, usable⟩⟩

theorem keeps_nil : state.Keeps target [] :=
  ⟨List.nodup_nil, fun _ member => absurd member List.not_mem_nil, Nat.zero_le _⟩

theorem Keeps.sidecarAdd (keeps : state.Keeps target selected) (nodeId : Nat) :
    state.Keeps target (state.sidecarAdd target selected nodeId) := by
  rw [BuildState.sidecarAdd]
  split_ifs with out
  · exact keeps
  · rw [not_or, not_or, Bool.not_eq_false] at out
    obtain ⟨room, usable, new⟩ := out
    refine ⟨?_, ?_, ?_⟩
    · rw [List.nodup_append]
      refine ⟨keeps.distinct, List.nodup_singleton _, ?_⟩
      rintro one member other single rfl
      exact new (List.mem_singleton.mp single ▸ member)
    · intro other member
      rcases List.mem_append.mp member with old | single
      · exact keeps.usable other old
      · rw [List.mem_singleton.mp single]
        exact usable
    · rw [List.length_append, List.length_singleton]
      omega

theorem sidecarAdd_starts (nodeId : Nat) :
    ∃ more, state.sidecarAdd target selected nodeId = selected ++ more := by
  rw [BuildState.sidecarAdd]
  split_ifs
  · exact ⟨[], (List.append_nil _).symm⟩
  · exact ⟨_, rfl⟩

theorem sidecarAdd_takes {nodeId : Nat} (usable : state.usable nodeId = true) :
    target ≤ (state.sidecarAdd target selected nodeId).length ∨
      nodeId ∈ state.sidecarAdd target selected nodeId := by
  rw [BuildState.sidecarAdd]
  split_ifs with out
  · rcases out with full | unusable | known
    · exact .inl full
    · rw [usable] at unusable
      cases unusable
    · exact .inr known
  · exact .inr (List.mem_append_right _ List.mem_cons_self)

theorem Keeps.addAll (keeps : state.Keeps target selected) (nodeIds : List Nat) :
    state.Keeps target (state.addAll target selected nodeIds) := by
  induction nodeIds generalizing selected with
  | nil => exact keeps
  | cons nodeId rest ih => exact ih (keeps.sidecarAdd nodeId)

theorem addAll_starts (nodeIds : List Nat) :
    ∃ more, state.addAll target selected nodeIds = selected ++ more := by
  induction nodeIds generalizing selected with
  | nil => exact ⟨[], (List.append_nil _).symm⟩
  | cons nodeId rest ih =>
    obtain ⟨here, added⟩ := @sidecarAdd_starts _ _ _ _ state target selected nodeId
    obtain ⟨more, all⟩ := @ih (state.sidecarAdd target selected nodeId)
    refine ⟨here ++ more, ?_⟩
    rw [BuildState.addAll, List.foldl_cons, ← BuildState.addAll, all, added, List.append_assoc]

theorem addAll_takes {nodeIds : List Nat} {nodeId : Nat} (member : nodeId ∈ nodeIds)
    (usable : state.usable nodeId = true) :
    target ≤ (state.addAll target selected nodeIds).length ∨
      nodeId ∈ state.addAll target selected nodeIds := by
  induction nodeIds generalizing selected with
  | nil => cases member
  | cons other rest ih =>
    rcases List.mem_cons.mp member with rfl | later
    · obtain ⟨more, all⟩ := @addAll_starts _ _ _ _ state target
        (state.sidecarAdd target selected nodeId) rest
      rw [BuildState.addAll, List.foldl_cons, ← BuildState.addAll, all]
      rcases @sidecarAdd_takes _ _ _ _ state target selected nodeId usable with full | known
      · rw [List.length_append]
        exact .inl (by omega)
      · exact .inr (List.mem_append_left _ known)
    · exact ih later

theorem Keeps.length_eq (keeps : state.Keeps target selected)
    (complete : state.Complete target selected) :
    selected.length = min target state.usableNodes.length := by
  have inside : selected ⊆ state.usableNodes := fun nodeId member =>
    mem_usableNodes.mpr (keeps.usable nodeId member)
  have few := (List.subperm_of_subset keeps.distinct inside).length_le
  have bounded := keeps.bounded
  rcases complete with full | all
  · omega
  · have distinct : state.usableNodes.Nodup := List.nodup_range.filter _
    have many := (List.subperm_of_subset distinct fun nodeId member =>
      all nodeId (mem_usableNodes.mp member)).length_le
    omega

/-! ### Covering the levels -/

theorem level_le_maxLevel {nodeId : Nat} (usable : state.usable nodeId = true) :
    (state.nodes nodeId).level ≤ state.maxLevel := by
  have grows (nodeIds : List Nat) (most : Nat) (known : nodeId ∈ nodeIds ∨
      (state.nodes nodeId).level ≤ most) : (state.nodes nodeId).level ≤
        nodeIds.foldl (fun most other =>
          if state.usable other then max most (state.nodes other).level else most) most := by
    induction nodeIds generalizing most with
    | nil => exact known.resolve_left (List.not_mem_nil)
    | cons other rest ih =>
      refine ih _ ?_
      dsimp only
      rcases known with member | below
      · rcases List.mem_cons.mp member with rfl | later
        · rw [if_pos usable]
          exact .inr (le_max_right _ _)
        · exact .inl later
      · right
        split_ifs
        · exact below.trans (le_max_left _ _)
        · exact below
  exact grows _ 0 (.inl (List.mem_range.mpr (usable_lt usable)))

theorem levelCovering_keeps : state.Keeps target (state.levelCovering target) :=
  (keeps_nil.addAll _).addAll _

theorem levelCovering_complete : state.Complete target (state.levelCovering target) := by
  by_cases full : target ≤ (state.levelCovering target).length
  · exact .inl full
  · refine .inr fun nodeId usable => (addAll_takes ?_ usable).resolve_left full
    refine List.mem_flatMap.mpr ⟨(state.nodes nodeId).level, ?_, ?_⟩
    · exact List.mem_reverse.mpr
        (List.mem_range.mpr (Nat.lt_succ_of_le (level_le_maxLevel usable)))
    · rw [levelNodes, List.mem_filter, List.mem_range, usable, beq_self_eq_true]
      exact ⟨usable_lt usable, rfl⟩

end BuildState

/-! ### The plain rule -/

namespace BuildState

/-- The table holds the smallest distances to the chosen nodes. -/
def Scored (selected : List Nat) (minDistances : Nat → K) (chosen : List Nat) : Prop :=
  ∀ nodeId, state.usable nodeId = true → nodeId ∉ selected →
    minDistances nodeId =
      (chosen.map (state.sidecarCodeDistance nodeId)).foldl min state.dblMax

variable {state} {target : Nat} {selected : List Nat} {minDistances : Nat → K}

theorem sidecarCodeDistance_le (one other : Nat) :
    state.sidecarCodeDistance one other ≤ state.dblMax := by
  rw [sidecarCodeDistance]
  rcases found : state.codeDistance one other with _ | distance
  · dsimp only
    split_ifs
    · exact state.zero_le
    · exact state.one_le
  · exact state.distance_le one other distance found

theorem isSmallest_foldl {chosen : List Nat} {nodeId : Nat} {distance : K}
    (smallest : IsSmallest state.sidecarCodeDistance chosen nodeId distance) :
    (chosen.map (state.sidecarCodeDistance nodeId)).foldl min state.dblMax = distance := by
  obtain ⟨⟨one, member, rfl⟩, below⟩ := smallest
  have lower (distances : List K) (start : K) :
      (∀ distance ∈ distances, distances.foldl min start ≤ distance) ∧
        distances.foldl min start ≤ start ∧
        ∀ bound, bound ≤ start → (∀ distance ∈ distances, bound ≤ distance) →
          bound ≤ distances.foldl min start := by
    induction distances generalizing start with
    | nil => exact ⟨fun _ member => absurd member List.not_mem_nil, le_rfl, fun _ below _ => below⟩
    | cons distance rest ih =>
      obtain ⟨each, first, least⟩ := ih (min start distance)
      refine ⟨fun other inside => ?_, first.trans (min_le_left _ _), fun bound start' all => ?_⟩
      · rcases List.mem_cons.mp inside with rfl | later
        · exact first.trans (min_le_right _ _)
        · exact each other later
      · exact least bound (le_min start' (all distance List.mem_cons_self)) fun other inside =>
          all other (List.mem_cons_of_mem _ inside)
  obtain ⟨each, -, least⟩ := lower (chosen.map (state.sidecarCodeDistance nodeId)) state.dblMax
  refine le_antisymm (each _ (List.mem_map_of_mem member)) ?_
  refine least _ (sidecarCodeDistance_le _ _) fun distance inside => ?_
  obtain ⟨other, known, rfl⟩ := List.mem_map.mp inside
  exact below other known

/-! ### The table -/

theorem scoreSelected_scored {chosen : List Nat}
    (scored : state.Scored selected minDistances chosen) (one : Nat) :
    state.Scored selected (state.scoreSelected selected minDistances one) (chosen ++ [one]) := by
  intro nodeId usable new
  have unselected : ¬(state.usable nodeId = false ∨ nodeId ∈ selected) := by
    rw [not_or]
    exact ⟨fun unusable => absurd (usable.symm.trans unusable) Bool.noConfusion, new⟩
  rw [scoreSelected, if_neg unselected, List.map_append, List.foldl_append,
    ← scored nodeId usable new]
  show _ = min (minDistances nodeId) (state.sidecarCodeDistance nodeId one)
  split_ifs with less
  · exact (min_eq_right less.le).symm
  · exact (min_eq_left (not_lt.mp less)).symm

theorem scoreAll_scored {chosen : List Nat} (more : List Nat)
    (scored : state.Scored selected minDistances chosen) :
    state.Scored selected (more.foldl (state.scoreSelected selected) minDistances)
      (chosen ++ more) := by
  induction more generalizing minDistances chosen with
  | nil => rwa [List.append_nil]
  | cons one rest ih =>
    rw [List.foldl_cons, show chosen ++ one :: rest = chosen ++ [one] ++ rest from
      (List.append_cons ..)]
    exact ih (scoreSelected_scored scored one)

theorem Scored.mono {chosen later : List Nat} (scored : state.Scored selected minDistances chosen)
    (inside : selected ⊆ later) : state.Scored later minDistances chosen :=
  fun nodeId usable new => scored nodeId usable fun member => new (inside member)

theorem farther_follows (old new : Nat) (later : old < new) :
    (minDistances old < minDistances new ∨ (minDistances new = minDistances old ∧ new < old)) ↔
      minDistances old < minDistances new :=
  or_iff_left fun tie => absurd tie.2 (not_lt.mpr later.le)

/-- **One step of the loop** is a step of the rule. -/
theorem isNext_of_farthestNode {best : Nat} (scored : state.Scored selected minDistances selected)
    (found : state.farthestNode selected minDistances = some best) :
    IsNext (fun nodeId => state.usable nodeId = true) state.sidecarCodeDistance selected best :=
  isNext_of_scanBest farther_follows (fun _ => Iff.rfl) (fun _ => usable_lt)
    (fun nodeId _ opened smallest =>
      (scored nodeId opened.1 opened.2).trans (isSmallest_foldl smallest)) found

variable (state) in
/-- The nodes are picked by the plain rule from the usable nodes. -/
abbrev FollowsRule : List Nat → List Nat → Prop :=
  FarthestFirst.FollowsRule (fun nodeId => state.usable nodeId = true) state.sidecarCodeDistance

/-- **The incremental table picks what the plain rule picks**, until no more can be had. -/
theorem farthestLoop_follows {fuel scored : Nat}
    (known : state.Scored selected minDistances (selected.take scored))
    (enough : target ≤ selected.length + fuel) :
    ∃ picked, state.farthestLoop target fuel selected minDistances scored = selected ++ picked ∧
      state.FollowsRule selected picked ∧
        state.Complete target (state.farthestLoop target fuel selected minDistances scored) := by
  induction fuel generalizing selected minDistances scored with
  | zero => exact ⟨[], (List.append_nil _).symm, trivial, .inl (by rw [farthestLoop]; omega)⟩
  | succ fuel ih =>
    rw [farthestLoop]
    by_cases full : target ≤ selected.length
    · rw [if_pos full]
      exact ⟨[], (List.append_nil _).symm, trivial, .inl full⟩
    · rw [if_neg full]
      dsimp only
      have table := scoreAll_scored (selected.drop scored) known
      rw [List.take_append_drop] at table
      rcases found : state.farthestNode selected
          ((selected.drop scored).foldl (state.scoreSelected selected) minDistances) with _ | best
      · refine ⟨[], (List.append_nil _).symm, trivial, .inr fun nodeId usable => ?_⟩
        by_contra new
        exact (scanBest_spec farther_follows).2 found nodeId (usable_lt usable) ⟨usable, new⟩
      · have next := isNext_of_farthestNode table found
        have grown : state.sidecarAdd target selected best = selected ++ [best] := by
          rw [BuildState.sidecarAdd, if_neg]
          rw [not_or, not_or, Bool.not_eq_false]
          exact ⟨full, next.ready, next.new⟩
        dsimp only
        rw [grown]
        obtain ⟨picked, run, follows, complete⟩ := @ih (selected ++ [best]) _ selected.length
          (by
            rw [List.take_left' rfl]
            exact table.mono (List.subset_append_left _ _))
          (by rw [List.length_append, List.length_singleton]; omega)
        refine ⟨best :: picked, ?_, ⟨next, follows⟩, complete⟩
        rw [run, ← List.append_cons]

theorem farthest_follows (target : Nat) (start : List Nat) :
    ∃ picked, state.farthest target start = state.farthestStart target start ++ picked ∧
      state.FollowsRule (state.farthestStart target start) picked ∧
        state.Complete target (state.farthest target start) :=
  farthestLoop_follows (fun _ _ _ => rfl) (Nat.le_add_left _ _)

end BuildState

/-! ### The sidecar -/

def sidecarLimit (entrySidecar : Bool) (representatives : Int) : Nat :=
  if entrySidecar then min representatives.toNat maxEntrySidecarRepresentatives else 0

namespace BuildState

variable {state} {target : Nat} {selected : List Nat}

theorem Keeps.mono {larger : Nat} (keeps : state.Keeps target selected) (le : target ≤ larger) :
    state.Keeps larger selected :=
  ⟨keeps.distinct, keeps.usable, keeps.bounded.trans le⟩

theorem Keeps.farthestStart (keeps : state.Keeps target selected) :
    state.Keeps target (state.farthestStart target selected) := by
  have search (nodeIds first : List Nat) (known : state.Keeps target first) :
      state.Keeps target (nodeIds.foldl (fun first nodeId =>
        if first = [] then state.sidecarAdd target first nodeId else first) first) := by
    induction nodeIds generalizing first with
    | nil => exact known
    | cons nodeId rest ih =>
      refine ih _ ?_
      dsimp only
      split_ifs
      · exact known.sidecarAdd nodeId
      · exact known
  rw [BuildState.farthestStart]
  dsimp only
  split_ifs
  · exact search _ [] keeps_nil
  · exact keeps_nil.sidecarAdd _
  · exact keeps

theorem Keeps.farthestLoop {fuel scored : Nat} {minDistances : Nat → K}
    (keeps : state.Keeps target selected) :
    state.Keeps target (state.farthestLoop target fuel selected minDistances scored) := by
  induction fuel generalizing selected minDistances scored with
  | zero => exact keeps
  | succ fuel ih =>
    rw [BuildState.farthestLoop]
    split_ifs
    · exact keeps
    · dsimp only
      split
      · exact keeps
      · exact ih (keeps.sidecarAdd _)

theorem Keeps.farthest (keeps : state.Keeps target selected) :
    state.Keeps target (state.farthest target selected) :=
  keeps.farthestStart.farthestLoop

/-- **The sidecar of every strategy** holds distinct usable nodes within the limit; other than by
hash buckets, as many as the limit and the usable nodes allow. -/
theorem buildEntrySidecar_right (entrySidecar : Bool) (representatives : Int)
    (strategy : SidecarStrategy) :
    state.Keeps (sidecarLimit entrySidecar representatives)
        (state.buildEntrySidecar entrySidecar representatives strategy) ∧
      (strategy ≠ .hash →
        (state.buildEntrySidecar entrySidecar representatives strategy).length =
          min (sidecarLimit entrySidecar representatives) state.usableNodes.length) := by
  have few : state.usableNodes.length ≤ state.nodeCount :=
    (List.length_filter_le _ _).trans_eq List.length_range
  rw [buildEntrySidecar]
  by_cases off : entrySidecar = false ∨ state.nodeCount = 0 ∨ representatives ≤ 0
  · rw [if_pos off]
    refine ⟨keeps_nil, fun _ => ?_⟩
    rw [List.length_nil, sidecarLimit]
    rcases off with rfl | none | negative
    · rfl
    · omega
    · split_ifs <;> omega
  · rw [if_neg off, not_or, not_or, Bool.not_eq_false] at *
    obtain ⟨rfl, some_, positive⟩ := off
    set target := min representatives.toNat (min state.nodeCount maxEntrySidecarRepresentatives)
      with targetOf
    rw [sidecarLimit, if_pos rfl]
    set limit := min representatives.toNat maxEntrySidecarRepresentatives with limitOf
    have known : 0 < maxEntrySidecarRepresentatives := by decide
    have inside : target ≤ limit := by omega
    have whole {sidecar : List Nat} (keeps : state.Keeps target sidecar)
        (complete : state.Complete target sidecar) :
        state.Keeps limit sidecar ∧ (strategy ≠ .hash →
          sidecar.length = min limit state.usableNodes.length) :=
      ⟨keeps.mono inside, fun _ => (keeps.length_eq complete).trans (by omega)⟩
    dsimp only
    rw [if_neg (by omega)]
    cases strategy with
    | farthestCode =>
      obtain ⟨-, -, -, complete⟩ := state.farthest_follows target []
      exact whole keeps_nil.farthest complete
    | levelCovering => exact whole levelCovering_keeps levelCovering_complete
    | hybridLevelCovering =>
      obtain ⟨-, -, -, complete⟩ :=
        state.farthest_follows target (state.levelCovering (max 1 (target / 4)))
      exact whole (levelCovering_keeps.mono (by omega)).farthest complete
    | hash =>
      exact ⟨(keeps_nil.addAll _).mono inside, fun different => absurd rfl different⟩

end BuildState

/-! ### Routing entries -/

def maxRoutingEntries : Nat := 15

abbrev RoutingEntry := Nat × Nat

/-- The order of routing entries: higher levels first, then by node. -/
def routingKey (entry : RoutingEntry) : Natᵒᵈ ×ₗ Nat :=
  toLex (OrderDual.toDual entry.1, entry.2)

def routingBetter (one other : RoutingEntry) : Bool :=
  other.1 < one.1 || (one.1 == other.1 && one.2 < other.2)

/-- `PgturbohybridGraphOfferRoutingEntry`: the worst entry of a full list is replaced. -/
def offerRoutingEntry : List RoutingEntry → RoutingEntry → List RoutingEntry :=
  WorstSlot.offer routingBetter maxRoutingEntries

namespace BuildState

/-- The live nodes above the lowest level, other than the entry node. -/
def routable : List RoutingEntry :=
  ((List.range state.nodeCount).filter fun nodeId =>
    !(nodeId == state.entryNodeId || (state.nodes nodeId).dead ||
      (state.nodes nodeId).level == 0)).map fun nodeId => ((state.nodes nodeId).level, nodeId)

/-- `PgturbohybridGraphBuildRoutingEntries`. -/
def buildRoutingEntries : List RoutingEntry :=
  if state.nodeCount = 0 ∨ state.nodeCount ≤ state.entryNodeId then []
  else state.routable.foldl offerRoutingEntry []

end BuildState

theorem routingBetter_iff (one other : RoutingEntry) :
    routingBetter one other = true ↔ routingKey one < routingKey other := by
  rw [routingKey, routingKey, Prod.Lex.toLex_lt_toLex, OrderDual.toDual_lt_toDual, routingBetter,
    Bool.or_eq_true, Bool.and_eq_true, decide_eq_true_eq, decide_eq_true_eq, beq_iff_eq]
  exact Iff.rfl

namespace BuildState

/-- **The routing list** holds the best entries of all that are allowed. -/
theorem buildRoutingEntries_best :
    (state.buildRoutingEntries.map routingKey).Perm
      (TopK.best maxRoutingEntries (state.routable.map routingKey)) := by
  rw [buildRoutingEntries]
  by_cases none : state.nodeCount = 0 ∨ state.nodeCount ≤ state.entryNodeId
  · have empty : state.nodeCount = 0 := by
      by_contra some_
      have inside := state.entryInside (Nat.pos_of_ne_zero some_)
      omega
    rw [if_pos none, routable, empty]
    exact List.Perm.refl _
  · rw [if_neg none]
    exact WorstSlot.offerAll_best routingBetter_iff maxRoutingEntries state.routable

/-- **The entries that a build selects**: the sidecar holds distinct usable nodes within its limit,
and all that this allows where they are not chosen by hash buckets; the incremental phase picks the
nodes of the plain rule, from the first node or any prefix; and the routing list holds the best
entries. -/
theorem entrySelection_right (entrySidecar : Bool) (representatives : Int)
    (strategy : SidecarStrategy) :
    (state.Keeps (sidecarLimit entrySidecar representatives)
        (state.buildEntrySidecar entrySidecar representatives strategy) ∧
      (strategy ≠ .hash →
        (state.buildEntrySidecar entrySidecar representatives strategy).length =
          min (sidecarLimit entrySidecar representatives) state.usableNodes.length)) ∧
      (∀ target start, ∃ picked,
        state.farthest target start = state.farthestStart target start ++ picked ∧
          state.FollowsRule (state.farthestStart target start) picked ∧
            state.Complete target (state.farthest target start)) ∧
        (state.buildRoutingEntries.map routingKey).Perm
          (TopK.best maxRoutingEntries (state.routable.map routingKey)) :=
  ⟨buildEntrySidecar_right entrySidecar representatives strategy, state.farthest_follows,
    state.buildRoutingEntries_best⟩

end BuildState

end State

end TurboHybrid.Graph.EntrySidecar
