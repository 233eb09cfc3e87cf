/-
**Skimming documents in node order.**

A skim keeps each document that is among the first `k` kept or scores above both a seed and the
`k`-th best score kept so far. What it keeps has the same best `k` as all documents exactly when
none of these is lost to the seed.

* `Skimmed.keep`, `Skimmed.pass`: one document is kept, or several are passed over;
* `Skimmed.best_eq_iff`: when the best of the kept are the best of all.
-/
import TurboHybrid.Scan.Accumulator

set_option linter.unusedSectionVars false

namespace TurboHybrid.Scan

open TurboHybrid.Library

variable {R : Type*} [Field R] [LinearOrder R] [IsStrictOrderedRing R]

def scored (score : Nat → R) (nodeIds : List Nat) : List (NodeScore R) :=
  nodeIds.map fun nodeId => ⟨nodeId, score nodeId⟩

/-- How many of the nodes come before a node and score at least as much. -/
def rivals (score : Nat → R) (nodeIds : List Nat) (nodeId : Nat) : Nat :=
  nodeIds.countP fun other => decide (other < nodeId) && decide (score nodeId ≤ score other)

def position (nodeIds : List Nat) (nodeId : Nat) : Nat :=
  nodeIds.countP fun other => decide (other < nodeId)

structure Skimmed (score : Nat → R) (k : Nat) (seed : R) (seen kept : List Nat) : Prop where
  sorted : seen.Pairwise (· < ·)
  sublist : kept.Sublist seen
  early : ∀ nodeId ∈ seen, nodeId ∉ kept → k ≤ position kept nodeId
  late : ∀ nodeId ∈ kept, seed < score nodeId ∨ position kept nodeId < k
  missed : ∀ nodeId ∈ seen, nodeId ∉ kept → score nodeId ≤ seed ∨ k ≤ rivals score kept nodeId

variable {score : Nat → R} {k : Nat} {seed : R} {seen kept : List Nat} {nodeId : Nat}

theorem mem_scored {node : NodeScore R} :
    node ∈ scored score seen ↔ node.nodeId ∈ seen ∧ node.score = score node.nodeId := by
  simp only [scored, List.mem_map]
  constructor
  · rintro ⟨nodeId, member, rfl⟩
    exact ⟨member, rfl⟩
  · rintro ⟨member, value⟩
    exact ⟨node.nodeId, member, by rw [← value]⟩

theorem scored_distinct (distinct : seen.Nodup) : (scored score seen).Nodup :=
  distinct.map fun _ _ same => congrArg NodeScore.nodeId same

theorem position_le_length : position kept nodeId ≤ kept.length :=
  List.countP_le_length

theorem position_of_after (after : ∀ other ∈ kept, other < nodeId) :
    position kept nodeId = kept.length :=
  List.countP_eq_length.mpr fun other member => by simpa using after other member

theorem position_mono {other : Nat} (le : other ≤ nodeId) :
    position kept other ≤ position kept nodeId :=
  List.countP_mono_left fun _ _ before => by
    simp only [decide_eq_true_eq] at before ⊢
    omega

theorem position_sublist (sublist : kept.Sublist seen) :
    position kept nodeId ≤ position seen nodeId :=
  sublist.countP_le

theorem rivals_sublist (sublist : kept.Sublist seen) :
    rivals score kept nodeId ≤ rivals score seen nodeId :=
  sublist.countP_le

theorem position_append (extra : List Nat) :
    position (kept ++ extra) nodeId = position kept nodeId + position extra nodeId :=
  List.countP_append

theorem rivals_append (extra : List Nat) :
    rivals score (kept ++ extra) nodeId = rivals score kept nodeId + rivals score extra nodeId :=
  List.countP_append

theorem rivals_le_before (score : Nat → R) (seen : List Nat) (nodeId : Nat) : rivals score seen nodeId ≤
    ((scored score seen).filter fun other => other < ⟨nodeId, score nodeId⟩).length := by
  rw [rivals, ← List.countP_eq_length_filter, scored, List.countP_map]
  refine List.countP_mono_left fun other _ both => ?_
  simp only [Bool.and_eq_true, decide_eq_true_eq, Function.comp] at both ⊢
  rw [NodeScore.lt_iff]
  rcases lt_or_eq_of_le both.2 with less | same
  · exact Or.inl less
  · exact Or.inr ⟨same.symm, both.1⟩

theorem rivals_lt_of_mem_best {node : NodeScore R} (member : node ∈ TopK.best k (scored score seen)) :
    rivals score seen node.nodeId < k := by
  have value := (mem_scored.mp (TopK.mem_of_mem_best member)).2
  have few := TopK.before_lt_of_mem_best member
  have rivals := rivals_le_before score seen node.nodeId
  rw [← value] at rivals
  exact rivals.trans_lt few

namespace Skimmed

theorem nil (score : Nat → R) (k : Nat) (seed : R) : Skimmed score k seed [] [] :=
  ⟨List.Pairwise.nil, List.Sublist.refl _, by simp, by simp, by simp⟩

theorem keep (skimmed : Skimmed score k seed seen kept) (after : ∀ other ∈ seen, other < nodeId)
    (good : kept.length < k ∨ seed < score nodeId) :
    Skimmed score k seed (seen ++ [nodeId]) (kept ++ [nodeId]) := by
  have still (other : Nat) (le : other ≤ nodeId) :
      position (kept ++ [nodeId]) other = position kept other := by
    rw [position_append]
    simp [position, le]
  refine ⟨List.pairwise_append.mpr ⟨skimmed.sorted, List.pairwise_singleton _ _, by simpa using after⟩,
    skimmed.sublist.append_right _, fun other member out => ?_, fun other member => ?_,
    fun other member out => ?_⟩
  · rcases List.mem_append.mp member with old | new
    · rw [still other (after other old).le]
      exact skimmed.early other old fun inside => out (List.mem_append_left _ inside)
    · exact absurd (List.mem_append_right kept new) out
  · rcases List.mem_append.mp member with old | new
    · rw [still other (after other (skimmed.sublist.subset old)).le]
      exact skimmed.late other old
    · obtain rfl := List.mem_singleton.mp new
      rw [still other le_rfl]
      exact good.symm.imp id fun few => position_le_length.trans_lt few
  · rcases List.mem_append.mp member with old | new
    · refine (skimmed.missed other old fun inside => out (List.mem_append_left _ inside)).imp id
        fun many => many.trans ?_
      rw [rivals_append]
      exact Nat.le_add_right _ _
    · exact absurd (List.mem_append_right kept new) out

theorem pass (skimmed : Skimmed score k seed seen kept) {passed : List Nat}
    (sorted : (seen ++ passed).Pairwise (· < ·)) (many : passed ≠ [] → k ≤ kept.length)
    (poor : ∀ nodeId ∈ passed, score nodeId ≤ seed ∨
      k ≤ kept.countP fun other => decide (score nodeId ≤ score other)) :
    Skimmed score k seed (seen ++ passed) kept := by
  have after (nodeId : Nat) (member : nodeId ∈ passed) (other : Nat) (inside : other ∈ kept) :
      other < nodeId :=
    (List.pairwise_append.mp sorted).2.2 other (skimmed.sublist.subset inside) nodeId member
  refine ⟨sorted, skimmed.sublist.trans (List.sublist_append_left _ _), fun other member out => ?_,
    skimmed.late, fun other member out => ?_⟩
  · rcases List.mem_append.mp member with old | new
    · exact skimmed.early other old out
    · rw [position_of_after (after other new)]
      exact many (List.ne_nil_of_mem new)
  · rcases List.mem_append.mp member with old | new
    · exact skimmed.missed other old out
    · refine (poor other new).imp id fun enough => enough.trans_eq ?_
      refine List.countP_congr fun rival inside => ?_
      simp [after other new rival inside]

theorem distinct (skimmed : Skimmed score k seed seen kept) : seen.Nodup :=
  skimmed.sorted.imp fun less => less.ne

theorem position_lt (skimmed : Skimmed score k seed seen kept) (nodeId : Nat)
    (room : position kept nodeId < k) : position seen nodeId < k := by
  by_contra many
  have sublist := skimmed.sublist.filter fun other => decide (other < nodeId)
  have fewer : (kept.filter fun other => decide (other < nodeId)).length <
      (seen.filter fun other => decide (other < nodeId)).length := by
    simp only [position, List.countP_eq_length_filter] at room many
    omega
  obtain ⟨other, member, out⟩ : ∃ other ∈ seen.filter fun other => decide (other < nodeId),
      other ∉ kept.filter fun other => decide (other < nodeId) := by
    by_contra every
    simp only [not_exists, not_and, not_not] at every
    have back := List.subperm_of_subset (skimmed.distinct.filter _) every
    exact absurd back.length_le (not_le.mpr fewer)
  obtain ⟨inSeen, before⟩ := List.mem_filter.mp member
  have lost : other ∉ kept := fun inside => out (List.mem_filter.mpr ⟨inside, before⟩)
  have enough := skimmed.early other inSeen lost
  have le : position kept other ≤ position kept nodeId :=
    position_mono (of_decide_eq_true before).le
  omega

/-- **When the best of the kept are the best of all**: each of them is above the seed or among the
first `k` documents. -/
theorem best_eq_iff (skimmed : Skimmed score k seed seen kept) :
    TopK.best k (scored score kept) = TopK.best k (scored score seen) ↔
      ∀ node ∈ TopK.best k (scored score seen),
        seed < node.score ∨ position seen node.nodeId < k := by
  constructor
  · intro same node member
    rw [← same] at member
    obtain ⟨inside, value⟩ := mem_scored.mp (TopK.mem_of_mem_best member)
    rw [value]
    exact (skimmed.late node.nodeId inside).imp id (skimmed.position_lt node.nodeId)
  · intro good
    have keptDistinct := skimmed.sublist.nodup skimmed.distinct
    refine TopK.best_eq_of_subset (scored_distinct keptDistinct) (scored_distinct skimmed.distinct)
      (fun node member => ?_) fun node member => ?_
    · obtain ⟨inside, value⟩ := mem_scored.mp member
      exact mem_scored.mpr ⟨skimmed.sublist.subset inside, value⟩
    · obtain ⟨inside, value⟩ := mem_scored.mp (TopK.mem_of_mem_best member)
      refine mem_scored.mpr ⟨?_, value⟩
      by_contra lost
      have few := rivals_lt_of_mem_best member
      have less : rivals score kept node.nodeId ≤ rivals score seen node.nodeId :=
        rivals_sublist skimmed.sublist
      rcases skimmed.missed node.nodeId inside lost with low | many
      · rcases good node member with high | room
        · rw [value] at high
          exact absurd low (not_le.mpr high)
        · have enough := skimmed.early node.nodeId inside lost
          have le : position kept node.nodeId ≤ position seen node.nodeId :=
            position_sublist skimmed.sublist
          omega
      · omega

end Skimmed

theorem above_of_mem_best (above : ∀ nodeId ∈ seen, seed ≤ score nodeId) {node : NodeScore R}
    (member : node ∈ TopK.best k (scored score seen)) :
    seed < node.score ∨ position seen node.nodeId < k := by
  obtain ⟨inside, value⟩ := mem_scored.mp (TopK.mem_of_mem_best member)
  rcases lt_or_eq_of_le (above node.nodeId inside) with less | same
  · exact Or.inl (value ▸ less)
  · refine Or.inr ?_
    have few := rivals_lt_of_mem_best member
    have every : rivals score seen node.nodeId = position seen node.nodeId :=
      List.countP_congr fun other there => by simp [← same, above other there]
    omega

end TurboHybrid.Scan
