/-
**The final rescore of a scan with exact vectors.**

The first candidates get their exact distances, then the candidates are sorted and, where the band
is left to the scan, cut to those that were rescored. A candidate whose exact vector is not there
keeps the distance it had and is compared by it.

* `finalRescoreCount_le`: the rescored candidates are never cut;
* `collectFinal_perm`, `collectFinal_sorted`: what is returned, and in which order;
* `collectFinal_mixed`: an exact distance that is compared with another one.
-/
import TurboHybrid.Graph.Results
import TurboHybrid.Library.Lanes

set_option linter.unusedSectionVars false

namespace TurboHybrid.Graph.Dense

open Library Library.Lanes

variable {Tid D V : Type} [LinearOrder D]

/-! ### The limits -/

/-- `PgturbohybridGraphRescoreBand`. -/
inductive RescoreBand where
  | auto
  | none
  | exact
  deriving DecidableEq, Repr

/-- `PgturbohybridRescoreBandPolicy`. -/
inductive RescoreBandPolicy where
  | exact
  | limited
  | auto
  | off
  deriving DecidableEq, Repr

/-- `PgturbohybridDenseBudgetPolicy`. -/
inductive DenseBudgetPolicy where
  | quality
  | balanced
  | latency
  | auto
  deriving DecidableEq, Repr

/-- What the limits depend on; the rows of a limit are there where the scan knows one. -/
structure RescoreSettings where
  graphRescoreBand : RescoreBand
  rescoreBandPolicy : RescoreBandPolicy
  denseBudgetPolicy : DenseBudgetPolicy
  wideningDimension : Bool
  tupleTargetRows : Option Int
  graphDenseRequestedK : Int
  maxRescoreMultiplier : Int

/-- The cap of a limited band; products are of 64 bits. -/
def rescoreCap (settings : RescoreSettings) : Int :=
  let limitRows := max 1 (settings.tupleTargetRows.getD settings.graphDenseRequestedK)
  let denseK := max 1 settings.graphDenseRequestedK
  max (wrap 64 (limitRows * 4)) (wrap 64 (denseK * max settings.maxRescoreMultiplier 1))

/-- `PgturbohybridGraphFinalRescoreCount`. -/
def finalRescoreCount (settings : RescoreSettings) (count : Nat) : Nat :=
  if count = 0 ∨ settings.graphRescoreBand = .none then 0
  else if settings.graphRescoreBand = .exact ∨ settings.rescoreBandPolicy = .exact then count
  else if settings.rescoreBandPolicy = .off then 0
  else if settings.rescoreBandPolicy = .auto ∧ (settings.denseBudgetPolicy = .quality ∨
      (settings.denseBudgetPolicy = .auto ∧ settings.wideningDimension = false)) then count
  else if rescoreCap settings ≤ 0 then count
  else (min (count : Int) (rescoreCap settings)).toNat

def finalCount (settings : RescoreSettings) (count : Nat) : Nat :=
  if settings.graphRescoreBand = .auto ∧ 0 < finalRescoreCount settings count then
    finalRescoreCount settings count
  else count

/-! ### The rescore -/

/-- The exact vectors: the cached one of a node, whether the place of the stored one is valid, and
what is read there. -/
structure ExactVectors (V D : Type) where
  tqNodeCount : Nat
  exactVector : Nat → Option V
  validPlace : Nat → Bool
  readExactVector : Nat → Option V
  exactVectorDistance : V → D
  hasQuery : Bool

variable (vectors : ExactVectors V D)

/-- The exact distance of a node, where its vector is there. -/
def ExactVectors.distance (nodeId : Nat) : Option D :=
  if vectors.tqNodeCount ≤ nodeId then none
  else
    match vectors.exactVector nodeId with
    | some vector => some (vectors.exactVectorDistance vector)
    | none =>
      if vectors.validPlace nodeId = false then none
      else (vectors.readExactVector nodeId).map vectors.exactVectorDistance

def rescoreOne (result : GraphResult Tid D) : GraphResult Tid D :=
  if result.exactScored then result
  else
    match vectors.distance result.nodeId with
    | some exactDistance => { result with distance := exactDistance, exactScored := true }
    | none => result

/-- **`PgturbohybridGraphExactRescore`** of the first candidates; vectors are read in the order of
their pages, each for its own candidate. -/
def exactRescore (settings : RescoreSettings) (results : List (GraphResult Tid D)) (count : Nat) :
    List (GraphResult Tid D) :=
  if vectors.hasQuery = false ∨ count = 0 ∨ settings.graphRescoreBand = .none then results
  else (results.take count).map (rescoreOne vectors) ++ results.drop count

/-- **The end of `PgturbohybridGraphCollectResults`**: the candidates that are returned. -/
def collectFinal (settings : RescoreSettings) (results : List (GraphResult Tid D)) :
    List (GraphResult Tid D) :=
  let rescoreCount := finalRescoreCount settings results.length
  let finalCount := finalCount settings results.length
  let results := exactRescore vectors settings results rescoreCount
  sortResults (results.take finalCount)

/-! ### What is returned -/

section Final

variable {vectors} {settings : RescoreSettings} {results : List (GraphResult Tid D)}

theorem finalRescoreCount_le_count (settings : RescoreSettings) (count : Nat) :
    finalRescoreCount settings count ≤ count := by
  unfold finalRescoreCount
  split_ifs
  · exact Nat.zero_le _
  · exact le_rfl
  · exact Nat.zero_le _
  · exact le_rfl
  · exact le_rfl
  · omega

/-- **The limits fit**: all candidates that are rescored are returned, and no other ones with them
unless none is rescored. -/
theorem finalRescoreCount_le (settings : RescoreSettings) (count : Nat) :
    finalRescoreCount settings count ≤ finalCount settings count ∧
      finalCount settings count ≤ count ∧
      (0 < finalRescoreCount settings count →
        finalCount settings count = finalRescoreCount settings count) := by
  have below := finalRescoreCount_le_count settings count
  unfold finalCount
  split_ifs with cut
  · exact ⟨le_rfl, below, fun _ => rfl⟩
  · refine ⟨below, le_rfl, fun positive => ?_⟩
    -- a band that is not left to the scan rescores all candidates or none
    have band : settings.graphRescoreBand ≠ .auto := fun auto => cut ⟨auto, positive⟩
    cases chosen : settings.graphRescoreBand with
    | auto => exact absurd chosen band
    | none =>
      rw [finalRescoreCount, if_pos (Or.inr chosen)] at positive
      exact absurd positive (Nat.lt_irrefl 0)
    | exact =>
      have some_ : ¬(count = 0 ∨ settings.graphRescoreBand = .none) := by
        rintro (empty | wrong)
        · exact absurd (positive.trans_le below) (empty ▸ Nat.lt_irrefl 0)
        · rw [chosen] at wrong
          cases wrong
      rw [finalRescoreCount, if_neg some_, if_pos (Or.inl chosen)]

/-- A candidate after the rescore: it has an exact distance or the one it had. -/
structure Rescored (vectors : ExactVectors V D) (before after : GraphResult Tid D) : Prop where
  nodeId : after.nodeId = before.nodeId
  heaptid : after.heaptid = before.heaptid
  distance : after = before ∨
    after.exactScored = true ∧ vectors.distance after.nodeId = some after.distance

theorem rescoreOne_rescored (result : GraphResult Tid D) :
    Rescored vectors result (rescoreOne vectors result) := by
  unfold rescoreOne
  split_ifs with done
  · exact ⟨rfl, rfl, Or.inl rfl⟩
  · cases known : vectors.distance result.nodeId with
    | none => exact ⟨rfl, rfl, Or.inl rfl⟩
    | some exactDistance => exact ⟨rfl, rfl, Or.inr ⟨rfl, known⟩⟩

theorem exactRescore_rescored (count : Nat) :
    List.Forall₂ (Rescored vectors) results (exactRescore vectors settings results count) := by
  have same (items : List (GraphResult Tid D)) : List.Forall₂ (Rescored vectors) items items :=
    List.forall₂_same.mpr fun _ _ => ⟨rfl, rfl, Or.inl rfl⟩
  unfold exactRescore
  split_ifs
  · exact same results
  · have first : List.Forall₂ (Rescored vectors) (results.take count)
        ((results.take count).map (rescoreOne vectors)) :=
      List.forall₂_map_right_iff.mpr (List.forall₂_same.mpr fun result _ =>
        rescoreOne_rescored result)
    have both := List.rel_append first (same (results.drop count))
    dsimp only at both
    rwa [List.take_append_drop] at both

theorem exactRescore_exact {count : Nat} (query : vectors.hasQuery = true)
    (band : settings.graphRescoreBand ≠ .none)
    (there : ∀ result ∈ results.take count,
      result.exactScored = true ∨ vectors.distance result.nodeId ≠ none) :
    ∀ result ∈ (exactRescore vectors settings results count).take count,
      result.exactScored = true := by
  unfold exactRescore
  split_ifs with idle
  · rcases idle with missing | zero | none_
    · rw [query] at missing
      cases missing
    · rw [zero, List.take_zero]
      exact fun _ member => absurd member List.not_mem_nil
    · exact absurd none_ band
  · intro result member
    have first : result ∈ (results.take count).map (rescoreOne vectors) := by
      rcases List.mem_append.mp (List.take_append .. ▸ member) with rescored | rest
      · exact List.mem_of_mem_take rescored
      · rw [List.length_map, List.length_take] at rest
        rcases Nat.le_total count results.length with within | beyond
        · rw [min_eq_left within, Nat.sub_self, List.take_zero] at rest
          exact absurd rest List.not_mem_nil
        · rw [List.drop_eq_nil_of_le beyond, List.take_nil] at rest
          exact absurd rest List.not_mem_nil
    obtain ⟨before, listed, rfl⟩ := List.mem_map.mp first
    unfold rescoreOne
    split_ifs with done
    · exact done
    · cases known : vectors.distance before.nodeId with
      | none => exact absurd known ((there before listed).resolve_left done)
      | some exactDistance => rfl

/-- **The candidates that are returned**: the first ones, the rescored ones among them. -/
theorem collectFinal_perm : (collectFinal vectors settings results).Perm
    ((exactRescore vectors settings results
      (finalRescoreCount settings results.length)).take (finalCount settings results.length)) :=
  sortResults_perm _

/-- **Their order** is by the distances they finally have. -/
theorem collectFinal_sorted :
    (keys (collectFinal vectors settings results)).Pairwise (· ≤ ·) := by
  rw [collectFinal, sortResults_keys]
  exact List.pairwise_insertionSort _ _

/-- **The final rescore.** The first candidates are returned, sorted by the distances they finally
have; each has the exact distance of its node or the distance it had, the limits never cut a
candidate that is rescored, and where candidates are rescored no other ones are returned with them.
When the vectors of all candidates to be rescored are there, all distances compared are exact; when
none is to be rescored, none is changed. -/
theorem collectFinal_spec (vectors : ExactVectors V D) (settings : RescoreSettings)
    (results : List (GraphResult Tid D)) :
    let rescoreCount := finalRescoreCount settings results.length
    let finalCount := finalCount settings results.length
    let rescored := exactRescore vectors settings results rescoreCount
    (keys (collectFinal vectors settings results)).Pairwise (· ≤ ·) ∧
    (collectFinal vectors settings results).Perm (rescored.take finalCount) ∧
    List.Forall₂ (Rescored vectors) results rescored ∧
    (rescoreCount ≤ finalCount ∧ finalCount ≤ results.length ∧
      (0 < rescoreCount → finalCount = rescoreCount)) ∧
    (0 < rescoreCount → vectors.hasQuery = true →
      (∀ result ∈ results.take rescoreCount,
        result.exactScored = true ∨ vectors.distance result.nodeId ≠ none) →
      ∀ result ∈ collectFinal vectors settings results, result.exactScored = true) ∧
    (rescoreCount = 0 → (collectFinal vectors settings results).Perm results) := by
  intro rescoreCount finalCount rescored
  obtain ⟨below, within, same⟩ := finalRescoreCount_le settings results.length
  refine ⟨collectFinal_sorted, collectFinal_perm, exactRescore_rescored _, ⟨below, within, same⟩,
    fun positive query there result member => ?_, fun zero => ?_⟩
  · have band : settings.graphRescoreBand ≠ .none := fun none_ => by
      refine absurd positive (Nat.not_lt_of_ge (le_of_eq ?_))
      exact if_pos (Or.inr none_)
    have listed := collectFinal_perm.mem_iff.mp member
    rw [same positive] at listed
    exact exactRescore_exact query band there result listed
  · have whole : Dense.finalCount settings results.length = results.length := by
      unfold Dense.finalCount
      exact if_neg fun cut => absurd cut.2 (zero ▸ Nat.lt_irrefl 0)
    have unchanged : exactRescore vectors settings results rescoreCount = results :=
      if_pos (Or.inr (Or.inl zero))
    have returned := @collectFinal_perm _ _ _ _ vectors settings results
    rwa [whole, show exactRescore vectors settings results _ = results from unchanged,
      List.take_length] at returned

end Final

/-! ### Distances of two kinds -/

/-- Vectors that are their own distances; that of node 1 cannot be read. -/
def oneVector : ExactVectors Nat Nat :=
  { tqNodeCount := 2
    exactVector := fun _ => none
    validPlace := fun _ => true
    readExactVector := fun nodeId => if nodeId = 0 then some 5 else none
    exactVectorDistance := id
    hasQuery := true }

def rescoreAll : RescoreSettings := ⟨.auto, .auto, .auto, false, none, 10, 2⟩

/-- **An exact distance is compared with another one**: the node whose vector cannot be read comes
first by its approximate distance. -/
theorem collectFinal_mixed :
    collectFinal oneVector rescoreAll
        [(⟨0, (), 1, false⟩ : GraphResult Unit Nat), ⟨1, (), 2, false⟩] =
      [⟨1, (), 2, false⟩, ⟨0, (), 5, true⟩] := by
  decide

end TurboHybrid.Graph.Dense
