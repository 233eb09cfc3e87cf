/-
**The codewords of a vector.**

A codebook scores every codeword against a vector, and the best few are kept in an array whose worst
entry is replaced. The deterministic codebook has two codewords a coordinate, one for each sign; an
insert finds the best of them by a loop of its own.

* `length_selectCodewords`: as many codewords are kept as asked for, where there are as many;
* `mem_selectCodewords`: they are codewords that were offered.
-/
import TurboHybrid.Library.KeyedLog
import Mathlib.Algebra.Order.Ring.Rat
import Mathlib.Algebra.Order.Group.Abs
import Mathlib.Tactic.Linarith

namespace TurboHybrid.DocMap

open TurboHybrid.Library

structure ScoreCandidate where
  codeword : Nat
  score : Rat
  deriving DecidableEq, Repr

def scoreCandidateBetter (one other : ScoreCandidate) : Bool :=
  if other.score < one.score then true
  else if one.score < other.score then false
  else one.codeword < other.codeword

/-- The loop that looks for the worst entry of the array. -/
def worstIndex (selected : List ScoreCandidate) : Nat :=
  (List.range selected.length).foldl (fun worst index =>
    match selected[worst]?, selected[index]? with
    | some worstCandidate, some candidate =>
      if scoreCandidateBetter worstCandidate candidate then index else worst
    | _, _ => worst) 0

def scoreCandidateOffer (limit : Nat) (selected : List ScoreCandidate)
    (candidate : ScoreCandidate) : List ScoreCandidate :=
  if selected.length < limit then selected ++ [candidate]
  else
    match selected[worstIndex selected]? with
    | some worst =>
      if scoreCandidateBetter candidate worst then selected.set (worstIndex selected) candidate
      else selected
    | none => selected

/-- The kept codewords after every candidate has been offered. -/
def selectCodewords (limit : Nat) (candidates : List ScoreCandidate) : List Nat :=
  (candidates.foldl (scoreCandidateOffer limit) []).map ScoreCandidate.codeword

def deterministicCandidates (vector : List Rat) : List ScoreCandidate :=
  (numbered 0 vector).flatMap fun entry =>
    [⟨entry.1 * 2, entry.2⟩, ⟨entry.1 * 2 + 1, -entry.2⟩]

def deterministicCodewords (vector : List Rat) (limit : Nat) : List Nat :=
  selectCodewords (min limit (vector.length * 2)) (deterministicCandidates vector)

/-! ### The loop of an insert -/

structure BestCoordinate where
  bestAbs : Rat
  bestDim : Nat
  negative : Bool

def bestCoordinateStep (best : BestCoordinate) (entry : Nat × Rat) : BestCoordinate :=
  if best.bestAbs < |entry.2| then ⟨|entry.2|, entry.1, entry.2 < 0⟩ else best

def insertCodeword (vector : List Rat) : Nat :=
  let best := (numbered 0 vector).foldl bestCoordinateStep ⟨-1, 0, false⟩
  best.bestDim * 2 + if best.negative then 1 else 0

/-! ### What is kept -/

theorem length_scoreCandidateOffer (limit : Nat) (selected : List ScoreCandidate)
    (candidate : ScoreCandidate) (within : selected.length ≤ limit) :
    (scoreCandidateOffer limit selected candidate).length = min limit (selected.length + 1) := by
  unfold scoreCandidateOffer
  split_ifs with room
  · rw [List.length_append, List.length_singleton]
    omega
  · have full : min limit (selected.length + 1) = selected.length := by omega
    rw [full]
    cases selected[worstIndex selected]? with
    | none => rfl
    | some worst =>
        simp only
        split_ifs
        · exact List.length_set
        · rfl

theorem length_selected (limit : Nat) (candidates selected : List ScoreCandidate)
    (within : selected.length ≤ limit) :
    (candidates.foldl (scoreCandidateOffer limit) selected).length =
      min limit (selected.length + candidates.length) := by
  induction candidates generalizing selected with
  | nil => simpa using within
  | cons candidate rest ih =>
      have step := length_scoreCandidateOffer limit selected candidate within
      rw [List.foldl_cons, ih _ (by omega), step, List.length_cons]
      omega

theorem length_selectCodewords (limit : Nat) (candidates : List ScoreCandidate) :
    (selectCodewords limit candidates).length = min limit candidates.length := by
  rw [selectCodewords, List.length_map, length_selected _ _ _ (Nat.zero_le _), List.length_nil,
    Nat.zero_add]

theorem mem_scoreCandidateOffer {limit : Nat} {selected : List ScoreCandidate}
    {candidate kept : ScoreCandidate} (member : kept ∈ scoreCandidateOffer limit selected candidate) :
    kept ∈ selected ∨ kept = candidate := by
  unfold scoreCandidateOffer at member
  split_ifs at member with room
  · simpa using member
  · cases found : selected[worstIndex selected]? with
    | none =>
        rw [found] at member
        exact .inl member
    | some worst =>
        rw [found] at member
        simp only at member
        split_ifs at member
        · exact List.mem_or_eq_of_mem_set member
        · exact .inl member

theorem mem_selected {limit : Nat} {candidates selected : List ScoreCandidate}
    {kept : ScoreCandidate} (member : kept ∈ candidates.foldl (scoreCandidateOffer limit) selected) :
    kept ∈ selected ∨ kept ∈ candidates := by
  induction candidates generalizing selected with
  | nil => exact .inl member
  | cons candidate rest ih =>
      rcases ih member with earlier | later
      · rcases mem_scoreCandidateOffer earlier with before | rfl
        · exact .inl before
        · exact .inr (List.mem_cons_self ..)
      · exact .inr (List.mem_cons_of_mem _ later)

theorem mem_selectCodewords {limit codeword : Nat} {candidates : List ScoreCandidate}
    (member : codeword ∈ selectCodewords limit candidates) :
    ∃ candidate ∈ candidates, candidate.codeword = codeword := by
  obtain ⟨kept, found, rfl⟩ := List.mem_map.mp member
  rcases mem_selected found with nil | offered
  · cases nil
  · exact ⟨kept, offered, rfl⟩

end TurboHybrid.DocMap
