/-
**Local expansion.**

After a scan's search its sorted results may be expanded: the neighbours of the first ones are
scored and offered. A neighbour is appended while there is room; after that it takes the place of
the last result when it comes before that one, and the results are sorted only at the end.

* `collectCandidates_eq`: the neighbours that are scored, each once;
* `runLocalExpansion_best_iff`: exactly when the results are the nearest of all;
* `runLocalExpansion_loses`: two neighbours that both come before a result lose the nearer of the
  nodes they meet.
-/
import TurboHybrid.Graph.Results
import TurboHybrid.Library.LastSlot
import Mathlib.Algebra.Field.Rat
import Mathlib.Algebra.Order.Group.Abs

set_option linter.unusedSectionVars false

namespace TurboHybrid.Graph.Dense

open Library

/-! ### The expansion -/

inductive LocalExpansionMode where
  | off
  | auto
  | on
  deriving DecidableEq, Repr

structure ExpansionSettings (D : Type) where
  denseLocalExpansion : LocalExpansionMode
  topn : Int
  maxNeighbors : Int
  denseAdaptiveMinGap : D

section Expansion

variable {Tid D : Type} [Field D] [LinearOrder D]

/-- `PgturbohybridGraphNormalizedGap`. -/
def normalizedGap (best boundary : D) : D :=
  let gap := boundary - best
  let scale := max (max |best| |boundary|) 1
  (if gap < 0 then 0 else gap) / scale

def distanceAt (results : List (GraphResult Tid D)) (index : Nat) : D :=
  (results[index]?.map GraphResult.distance).getD 0

/-- `PgturbohybridGraphLocalExpansionShouldTrigger`. -/
def localExpansionShouldTrigger (settings : ExpansionSettings D)
    (results : List (GraphResult Tid D)) (resultTarget : Nat) : Bool :=
  if settings.denseLocalExpansion = .off ∨ resultTarget = 0 ∨ results.length = 0 then false
  else if settings.denseLocalExpansion = .on then true
  else
    let top10Index := min results.length 10 - 1
    let gapTop10 := normalizedGap (distanceAt results 0) (distanceAt results top10Index)
    let gapBoundary :=
      normalizedGap (distanceAt results 0) (distanceAt results (results.length - 1))
    let threshold :=
      if settings.denseAdaptiveMinGap > 0 then settings.denseAdaptiveMinGap else 5 / 100
    if results.length < resultTarget then true
    else if 1 ≤ top10Index ∧ gapTop10 ≤ threshold then true
    else if resultTarget ≤ results.length ∧ gapBoundary ≤ threshold * 4 then true
    else false

/-- `PgturbohybridGraphOfferCandidateSorted`. -/
def offerCandidateSorted (target : Nat) (results : List (GraphResult Tid D))
    (item : GraphResult Tid D) : List (GraphResult Tid D) :=
  if target = 0 then results
  else if results.length < target then results ++ [item]
  else
    match results.getLast? with
    | none => results
    | some last => if resultLess item last then results.dropLast ++ [item] else results

variable (graph : ScanGraph Tid D) (filter : PayloadFilter) (settings : ExpansionSettings D)

def ExpansionSettings.neighborLimit : Nat := (max 1 settings.maxNeighbors).toNat

def ExpansionSettings.seedCount (count : Nat) : Nat := min count (max 1 settings.topn).toNat

/-- A neighbour that may be a result and is none yet. -/
def newNeighbor (results : List (GraphResult Tid D)) (neighbor : Nat) : Bool :=
  decide (neighbor < graph.tqNodeCount) && decide (neighbor ∉ nodeIds results) &&
    graph.eligible filter neighbor

def collectNeighbor (results : List (GraphResult Tid D)) (maxNeighbors : Nat)
    (candidateNodeIds : List Nat) (neighbor : Nat) : List Nat :=
  if maxNeighbors ≤ candidateNodeIds.length then candidateNodeIds
  else if neighbor ∈ candidateNodeIds ∨ newNeighbor graph filter results neighbor = false then
    candidateNodeIds
  else candidateNodeIds ++ [neighbor]

def seedNeighbors (seed : GraphResult Tid D) : List Nat :=
  if graph.tqNodeCount ≤ seed.nodeId ∨ graph.loadAdjPage seed.nodeId = false then []
  else graph.neighbors seed.nodeId

/-- The neighbours of the seeds that are to be scored. -/
def collectCandidates (results : List (GraphResult Tid D)) : List Nat :=
  (results.take (settings.seedCount results.length)).foldl (fun candidateNodeIds seed =>
    if settings.neighborLimit ≤ candidateNodeIds.length then candidateNodeIds
    else (seedNeighbors graph seed).foldl
      (collectNeighbor graph filter results settings.neighborLimit) candidateNodeIds) []

/-- **`PgturbohybridGraphApplyLocalExpansion`**, and whether it was triggered. The candidates are
scored in batches and offered in their order. -/
def applyLocalExpansion (results : List (GraphResult Tid D)) (resultTarget : Nat) :
    List (GraphResult Tid D) × Bool :=
  if localExpansionShouldTrigger settings results resultTarget = false then (results, false)
  else
    (((collectCandidates graph filter settings results).map graph.scored).foldl
      (offerCandidateSorted resultTarget) results, true)

/-- **The expansion in `PgturbohybridGraphRunTraversalPass`**, with the sorts around it. -/
def runLocalExpansion (results : List (GraphResult Tid D)) (resultTarget : Nat) :
    List (GraphResult Tid D) :=
  let sorted := sortResults results
  let expanded := applyLocalExpansion graph filter settings sorted resultTarget
  if expanded.2 then sortResults expanded.1 else expanded.1

/-! ### The neighbours that are scored -/

/-- The neighbours of the first results that may be results and are none yet, each once, as many as
the settings allow. -/
def newNeighbors (results : List (GraphResult Tid D)) : List Nat :=
  (((results.take (settings.seedCount results.length)).flatMap (seedNeighbors graph)).filter
    (newNeighbor graph filter results)).eraseDups.take settings.neighborLimit

theorem eraseDups_append_singleton (before : List Nat) (item : Nat) :
    (before ++ [item]).eraseDups =
      if item ∈ before then before.eraseDups else before.eraseDups ++ [item] := by
  rw [List.eraseDups_append]
  split_ifs with old
  · simp [List.removeAll, old]
  · simp [List.removeAll, old, List.eraseDups_cons]

theorem eraseDups_nodup (items : List Nat) : items.eraseDups.Nodup := by
  induction items using List.reverseRecOn with
  | nil => exact List.nodup_nil
  | append_singleton before item ih =>
    rw [eraseDups_append_singleton]
    split_ifs with old
    · exact ih
    · refine ih.append (List.nodup_singleton _) fun other earlier last => ?_
      exact old (List.mem_singleton.mp last ▸ List.mem_eraseDups.mp earlier)

variable {graph filter settings}

theorem collectNeighbor_run (results : List (GraphResult Tid D)) (maxNeighbors : Nat)
    (neighbors : List Nat) :
    neighbors.foldl (collectNeighbor graph filter results maxNeighbors) [] =
      (neighbors.filter (newNeighbor graph filter results)).eraseDups.take maxNeighbors := by
  induction neighbors using List.reverseRecOn with
  | nil => exact List.take_nil.symm
  | append_singleton before neighbor ih =>
    rw [List.foldl_append, ih, List.foldl_cons, List.foldl_nil, List.filter_append,
      List.filter_singleton, collectNeighbor, List.length_take]
    generalize before.filter (newNeighbor graph filter results) = known
    rcases Nat.lt_or_ge known.eraseDups.length maxNeighbors with room | full
    · rw [if_neg (by omega), List.take_of_length_le room.le]
      cases new : newNeighbor graph filter results neighbor with
      | false =>
        rw [if_pos (Or.inr rfl), cond_false, List.append_nil, List.take_of_length_le room.le]
      | true =>
        rw [cond_true, eraseDups_append_singleton]
        by_cases old : neighbor ∈ known
        · rw [if_pos (Or.inl (List.mem_eraseDups.mpr old)), if_pos old,
            List.take_of_length_le room.le]
        · have fresh : ¬(neighbor ∈ known.eraseDups ∨ true = false) := by
            rintro (here | wrong)
            · exact old (List.mem_eraseDups.mp here)
            · exact Bool.noConfusion wrong
          rw [if_neg fresh, if_neg old, List.take_of_length_le]
          rw [List.length_append, List.length_singleton]
          exact room
    · rw [if_pos (by omega)]
      cases newNeighbor graph filter results neighbor with
      | false => rw [cond_false, List.append_nil]
      | true =>
        rw [cond_true, eraseDups_append_singleton]
        split_ifs
        · rfl
        · rw [List.take_append_of_le_length full]

/-- **The neighbours that are scored.** -/
theorem collectCandidates_eq (results : List (GraphResult Tid D)) :
    collectCandidates graph filter settings results =
      newNeighbors graph filter settings results := by
  have full (neighbors candidateNodeIds : List Nat)
      (many : settings.neighborLimit ≤ candidateNodeIds.length) :
      neighbors.foldl (collectNeighbor graph filter results settings.neighborLimit)
        candidateNodeIds = candidateNodeIds := by
    induction neighbors with
    | nil => rfl
    | cons neighbor rest ih =>
      rw [List.foldl_cons, collectNeighbor, if_pos many]
      exact ih
  have step : (fun candidateNodeIds seed =>
      if settings.neighborLimit ≤ candidateNodeIds.length then candidateNodeIds
      else (seedNeighbors graph seed).foldl
        (collectNeighbor graph filter results settings.neighborLimit) candidateNodeIds) =
      fun candidateNodeIds (seed : GraphResult Tid D) => (seedNeighbors graph seed).foldl
        (collectNeighbor graph filter results settings.neighborLimit) candidateNodeIds := by
    funext candidateNodeIds seed
    split_ifs with many
    · exact (full _ _ many).symm
    · rfl
  rw [collectCandidates, step, ← List.foldl_flatMap, collectNeighbor_run]
  rfl

theorem newNeighbors_nodup (results : List (GraphResult Tid D)) :
    (newNeighbors graph filter settings results).Nodup :=
  (eraseDups_nodup _).sublist (List.take_sublist _ _)

theorem newNeighbors_new {results : List (GraphResult Tid D)} {neighbor : Nat}
    (member : neighbor ∈ newNeighbors graph filter settings results) :
    neighbor < graph.tqNodeCount ∧ neighbor ∉ nodeIds results ∧
      graph.eligible filter neighbor = true := by
  have kept := (List.mem_filter.mp (List.mem_eraseDups.mp (List.mem_of_mem_take member))).2
  simp only [newNeighbor, Bool.and_eq_true, decide_eq_true_eq] at kept
  exact ⟨kept.1.1, kept.1.2, kept.2⟩

/-! ### Offers to the last place -/

theorem keys_offerCandidateSorted {target : Nat} (positive : 0 < target)
    (results : List (GraphResult Tid D)) (item : GraphResult Tid D) :
    keys (offerCandidateSorted target results item) =
      LastSlot.offerLast target (keys results) item.key := by
  rw [offerCandidateSorted, if_neg positive.ne', LastSlot.offerLast, keys, keys, List.length_map,
    List.getLast?_map]
  split_ifs with room
  · exact List.map_append
  · cases results.getLast? with
    | none => rfl
    | some last =>
      dsimp only [Option.map_some]
      by_cases less : item.key < last.key
      · rw [if_pos ((resultLess_iff item last).mpr less), if_pos less, List.map_append,
          List.map_dropLast]
        rfl
      · rw [if_neg ((resultLess_iff item last).not.mpr less), if_neg less]

theorem keys_offerAll {target : Nat} (positive : 0 < target)
    (items results : List (GraphResult Tid D)) :
    keys (items.foldl (offerCandidateSorted target) results) =
      (keys items).foldl (LastSlot.offerLast target) (keys results) := by
  induction items generalizing results with
  | nil => rfl
  | cons item rest ih =>
    rw [List.foldl_cons, ih, keys_offerCandidateSorted positive]
    rfl

theorem offerCandidateSorted_subperm (target : Nat) (results : List (GraphResult Tid D))
    (item : GraphResult Tid D) :
    (offerCandidateSorted target results item).Subperm (results ++ [item]) := by
  have kept : results.Subperm (results ++ [item]) := (List.sublist_append_left _ _).subperm
  unfold offerCandidateSorted
  split_ifs
  · exact kept
  · exact List.Subperm.refl _
  · cases results.getLast? with
    | none => exact kept
    | some last =>
      dsimp only
      split_ifs
      · exact ((List.dropLast_sublist results).append_right [item]).subperm
      · exact kept

theorem offerAll_subperm (target : Nat) (items results : List (GraphResult Tid D)) :
    (items.foldl (offerCandidateSorted target) results).Subperm (results ++ items) := by
  induction items generalizing results with
  | nil => exact (List.append_nil results).symm ▸ List.Subperm.refl _
  | cons item rest ih =>
    refine (ih _).trans ?_
    have step := (List.subperm_append_right rest).mpr
      (offerCandidateSorted_subperm target results item)
    rwa [List.append_assoc] at step

/-! ### The results of an expansion -/

/-- The neighbours that an expansion of sorted results scores: none where it is not triggered. -/
def expansionNeighbors (graph : ScanGraph Tid D) (filter : PayloadFilter)
    (settings : ExpansionSettings D) (sorted : List (GraphResult Tid D)) (resultTarget : Nat) :
    List Nat :=
  if localExpansionShouldTrigger settings sorted resultTarget = false then []
  else newNeighbors graph filter settings sorted

/-- The sorted results and the scored neighbours in the order in which they are offered. -/
def expansionOrder (graph : ScanGraph Tid D) (filter : PayloadFilter)
    (settings : ExpansionSettings D) (results : List (GraphResult Tid D)) (resultTarget : Nat) :
    List (GraphResult Tid D) :=
  sortResults results ++
    (expansionNeighbors graph filter settings (sortResults results) resultTarget).map graph.scored

section Runs

variable {results : List (GraphResult Tid D)} {resultTarget : Nat}

theorem nodeIds_keys (items : List (GraphResult Tid D)) :
    (keys items).map (fun key => (ofLex key).2) = nodeIds items := by
  rw [keys, List.map_map]
  rfl

theorem expansionOrder_nodup (distinct : (nodeIds results).Nodup) :
    (nodeIds (expansionOrder graph filter settings results resultTarget)).Nodup := by
  have sorted : (nodeIds (sortResults results)).Nodup :=
    ((sortResults_perm results).map _).nodup_iff.mpr distinct
  rw [expansionOrder, nodeIds, List.map_append]
  refine sorted.append ?_ fun nodeId old new => ?_
  · rw [← nodeIds, nodeIds_scored, expansionNeighbors]
    split_ifs
    · exact List.nodup_nil
    · exact newNeighbors_nodup _
  · rw [← nodeIds, nodeIds_scored, expansionNeighbors] at new
    split_ifs at new
    · exact List.not_mem_nil new
    · exact (newNeighbors_new new).2.1 old

theorem expansionOrder_eligible
    (live : ∀ result ∈ results, graph.eligible filter result.nodeId = true) :
    ∀ result ∈ expansionOrder graph filter settings results resultTarget,
      graph.eligible filter result.nodeId = true := by
  intro result member
  rcases List.mem_append.mp member with old | new
  · exact live result ((sortResults_perm results).mem_iff.mp old)
  · obtain ⟨neighbor, listed, rfl⟩ := List.mem_map.mp new
    rw [expansionNeighbors] at listed
    split_ifs at listed
    · exact absurd listed List.not_mem_nil
    · exact (newNeighbors_new listed).2.2

theorem applyLocalExpansion_subperm :
    (applyLocalExpansion graph filter settings (sortResults results) resultTarget).1.Subperm
      (expansionOrder graph filter settings results resultTarget) := by
  rw [applyLocalExpansion, expansionOrder, expansionNeighbors, ← collectCandidates_eq]
  split_ifs
  · exact (List.append_nil (sortResults results)).symm ▸ List.Subperm.refl _
  · exact offerAll_subperm resultTarget _ _

theorem runLocalExpansion_subperm :
    (runLocalExpansion graph filter settings results resultTarget).Subperm
      (expansionOrder graph filter settings results resultTarget) := by
  have expanded : (applyLocalExpansion graph filter settings (sortResults results)
      resultTarget).1.Subperm (expansionOrder graph filter settings results resultTarget) :=
    applyLocalExpansion_subperm
  rw [runLocalExpansion]
  split_ifs
  · exact (sortResults_perm _).subperm.trans expanded
  · exact expanded

/-- **The distances after an expansion**: those of the first results, and the least of the rest. -/
theorem runLocalExpansion_keys (positive : 0 < resultTarget)
    (fits : results.length ≤ resultTarget) :
    keys (runLocalExpansion graph filter settings results resultTarget) =
      (LastSlot.lastSlot (resultTarget - 1)
        (keys (expansionOrder graph filter settings results resultTarget))).insertionSort
          (· ≤ ·) := by
  have room : (keys (sortResults results)).length ≤ resultTarget - 1 + 1 := by
    rw [keys, List.length_map, (sortResults_perm results).length_eq]
    omega
  have order : (keys (sortResults results)).Pairwise (· ≤ ·) := by
    rw [sortResults_keys]
    exact List.pairwise_insertionSort _ _
  rw [runLocalExpansion, applyLocalExpansion, expansionOrder, expansionNeighbors,
    ← collectCandidates_eq]
  by_cases idle : localExpansionShouldTrigger settings (sortResults results) resultTarget = false
  · rw [if_pos idle, if_pos idle, if_neg Bool.false_ne_true, List.map_nil, List.append_nil,
      LastSlot.lastSlot_of_le room, order.insertionSort_eq]
  · rw [if_neg idle, if_neg idle, if_pos rfl, sortResults_keys, keys_offerAll positive]
    have run := LastSlot.offerLast_run room
      (keys ((collectCandidates graph filter settings (sortResults results)).map graph.scored))
    rw [Nat.sub_add_cancel positive] at run
    rw [run, keys, keys, keys, List.map_append]

/-- **When an expansion keeps the nearest.** The results are the nearest of the given ones and of
all neighbours scored, each node once and every one live with the payload, exactly when at most one
node without a place of its own, that is after the first `resultTarget - 1` of the sorted results
and the neighbours in the order of their lists, comes before one of these first nodes. -/
theorem runLocalExpansion_best_iff (distinct : (nodeIds results).Nodup)
    (fits : results.length ≤ resultTarget)
    (live : ∀ result ∈ results, graph.eligible filter result.nodeId = true) :
    (keys (runLocalExpansion graph filter settings results resultTarget) =
        TopK.best resultTarget
          (keys (expansionOrder graph filter settings results resultTarget)) ∧
      (nodeIds (runLocalExpansion graph filter settings results resultTarget)).Nodup ∧
      ∀ result ∈ runLocalExpansion graph filter settings results resultTarget,
        result ∈ expansionOrder graph filter settings results resultTarget ∧
          graph.eligible filter result.nodeId = true) ↔
      (LastSlot.contenders (resultTarget - 1)
        (keys (expansionOrder graph filter settings results resultTarget))).length ≤ 1 := by
  have order := @expansionOrder_nodup _ _ _ _ graph filter settings results resultTarget distinct
  have part := @runLocalExpansion_subperm _ _ _ _ graph filter settings results resultTarget
  have once : (nodeIds (runLocalExpansion graph filter settings results resultTarget)).Nodup := by
    obtain ⟨kept, same, sublist⟩ := part
    exact (same.map GraphResult.nodeId).nodup_iff.mp (order.sublist (sublist.map _))
  have inside : ∀ result ∈ runLocalExpansion graph filter settings results resultTarget,
      result ∈ expansionOrder graph filter settings results resultTarget ∧
        graph.eligible filter result.nodeId = true := fun result member =>
    ⟨part.subset member, expansionOrder_eligible live result (part.subset member)⟩
  have keysDistinct :
      (keys (expansionOrder graph filter settings results resultTarget)).Nodup := by
    refine List.Nodup.of_map (fun key => (ofLex key).2) ?_
    rw [nodeIds_keys]
    exact order
  rcases Nat.eq_zero_or_pos resultTarget with rfl | positive
  · have none_ : results = [] := List.length_eq_zero_iff.mp (Nat.le_zero.mp fits)
    subst none_
    have idle : localExpansionShouldTrigger settings (sortResults ([] : List (GraphResult Tid D)))
        0 = false := if_pos (Or.inr (Or.inl rfl))
    have empty : expansionOrder graph filter settings ([] : List (GraphResult Tid D)) 0 = [] := by
      rw [expansionOrder, expansionNeighbors, if_pos idle]
      rfl
    have same : keys (runLocalExpansion graph filter settings ([] : List (GraphResult Tid D)) 0) =
        [] := by
      rw [runLocalExpansion, applyLocalExpansion, if_pos idle]
      rfl
    rw [same, empty]
    rw [empty] at inside
    exact ⟨fun _ => Nat.zero_le 1, fun _ => ⟨rfl, once, inside⟩⟩
  · have best := LastSlot.lastSlot_best_iff (n := resultTarget - 1) keysDistinct
    rw [← runLocalExpansion_keys positive fits, Nat.sub_add_cancel positive] at best
    exact ⟨fun kept => best.mp kept.1, fun one => ⟨best.mpr one, once, inside⟩⟩

end Runs

end Expansion

/-! ### A nearer neighbour that is lost -/

/-- Three results at the distances 1, 4 and 5; the first one has neighbours at 2 and 3. -/
def twoNeighbors : ScanGraph Unit Rat :=
  { tqNodeCount := 5
    nodes := fun _ => ⟨true, false, none, 0⟩
    heaptid := fun _ => ()
    loadCodePage := fun _ => true
    loadAdjPage := fun _ => true
    neighbors := fun nodeId => if nodeId = 0 then [3, 4] else []
    scoreNode := fun nodeId => if nodeId = 3 then 2 else 3 }

def threeResults : List (GraphResult Unit Rat) :=
  [⟨0, (), 1, false⟩, ⟨1, (), 4, false⟩, ⟨2, (), 5, false⟩]

def expandAlways : ExpansionSettings Rat := ⟨.on, 8, 256, 0⟩

theorem runLocalExpansion_loses :
    (nodeIds threeResults).Nodup ∧
    nodeIds (runLocalExpansion twoNeighbors ⟨-1, 0⟩ expandAlways threeResults 3) = [0, 3, 1] ∧
    nodeIds (sortResults (expansionOrder twoNeighbors ⟨-1, 0⟩ expandAlways threeResults 3)) =
      [0, 3, 4, 1, 2] ∧
    keys (runLocalExpansion twoNeighbors ⟨-1, 0⟩ expandAlways threeResults 3) ≠
      TopK.best 3 (keys (expansionOrder twoNeighbors ⟨-1, 0⟩ expandAlways threeResults 3)) := by
  decide

theorem runLocalExpansion_best_one :
    keys (runLocalExpansion twoNeighbors ⟨-1, 0⟩ expandAlways
        [(⟨0, (), 1, false⟩ : GraphResult Unit Rat)] 3) =
      TopK.best 3 (keys (expansionOrder twoNeighbors ⟨-1, 0⟩ expandAlways
        [(⟨0, (), 1, false⟩ : GraphResult Unit Rat)] 3)) :=
  ((runLocalExpansion_best_iff (by decide) (by decide) (by decide)).mpr (by decide)).1

end TurboHybrid.Graph.Dense
