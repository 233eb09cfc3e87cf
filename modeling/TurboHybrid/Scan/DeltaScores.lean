/-
**Scores from the delta.**

Behind the base scorer the postings of the delta are added: each query term that has an entry in
the delta cache adds its postings, and the touched nodes keep the document length and the heap
tuple of the posting.

* `scoreDelta`: the scorer of the delta;
* `Added.trans`: two streams of additions are one;
* `scoreDelta_added`: it adds the postings of the terms' entries.
-/
import TurboHybrid.Scan.Exhaustive

set_option linter.unusedSectionVars false

namespace TurboHybrid.Scan

open TurboHybrid.Index TurboHybrid.Query

variable {R : Type*} [Field R] [LinearOrder R] [IsStrictOrderedRing R]

/-! ### The scorer -/

structure DeltaCachePosting where
  nodeId : Nat
  tf : Nat
  docLen : Nat
  heaptid : ItemPointer
  deriving DecidableEq, Repr

structure DeltaCacheEntry where
  termHash : UInt64
  term : Lexeme
  df : Nat
  postings : List DeltaCachePosting
  deriving DecidableEq, Repr

/-- The search in the entries, which are distinct: by hash, then by length, then by bytes. -/
def findDeltaEntry (deltaTerms : List DeltaCacheEntry) (term : QueryTerm) :
    Option DeltaCacheEntry :=
  deltaTerms.find? fun candidate =>
    candidate.termHash == term.termHash && candidate.term == term.term

def addDeltaPosting (posting : DeltaCachePosting) (score : R) (matchBit : Nat)
    (entry : AccumulatorEntry R) : AccumulatorEntry R :=
  { entry with
    docLen := posting.docLen
    heaptid := some posting.heaptid
    hasDeltaDoc := true
    score := entry.score + score
    matchedTerms := entry.matchedTerms ||| matchBit }

def deltaContribution (log : R → R) (corpus : ScoringMeta R) (term : SearchTerm)
    (posting : DeltaCachePosting) : R :=
  postingScore corpus (term.idf log corpus) (avgDocLen corpus) posting.tf posting.docLen

def scoreDelta (log : R → R) (corpus : ScoringMeta R) (deltaTerms : List DeltaCacheEntry)
    (terms : List SearchTerm) (acc : Accumulator R) : Accumulator R :=
  terms.foldl (fun acc term =>
    match findDeltaEntry deltaTerms term.term with
    | none => acc
    | some entry =>
      entry.postings.foldl (fun acc posting =>
        accumulatorUpdate acc posting.nodeId
          (addDeltaPosting posting (deltaContribution log corpus term posting)
            term.term.matchBit)) acc) acc

/-! ### Additions -/

def deltaPostings (deltaTerms : List DeltaCacheEntry) (term : SearchTerm) :
    List DeltaCachePosting :=
  ((findDeltaEntry deltaTerms term.term).map DeltaCacheEntry.postings).getD []

def deltaAdditions (log : R → R) (corpus : ScoringMeta R) (deltaTerms : List DeltaCacheEntry)
    (term : SearchTerm) : List (Addition R) :=
  (deltaPostings deltaTerms term).map fun posting =>
    ⟨posting.nodeId, deltaContribution log corpus term posting, term.term.matchBit⟩

section Added

variable {acc middle final : Accumulator R} {nodeCount : Nat}

theorem Added.trans {first second : List (Addition R)} (one : Added acc first middle)
    (other : Added middle second final) : Added acc (first ++ second) final := by
  refine ⟨other.distinct, fun nodeId => ?_, fun nodeId => ?_, fun nodeId => ?_⟩
  · rw [other.nodeIds, one.nodeIds]
    simp only [List.mem_append, or_and_right, exists_or, or_assoc]
  · rw [other.scores, one.scores, additionsAt, additionsAt, additionsAt, List.filter_append,
      List.map_append, List.sum_append, add_assoc]
  · rw [other.masks, one.masks, additionsAt, additionsAt, additionsAt, List.filter_append,
      List.map_append, orAll_append, Nat.or_assoc]

theorem added_nil (distinct : acc.nodeIds.Nodup) : Added acc [] acc :=
  ⟨distinct, by simp, by simp [additionsAt], by simp [additionsAt, orAll]⟩

theorem addDeltaPosting_added (fits : acc.Fits nodeCount) (distinct : acc.nodeIds.Nodup)
    (posting : DeltaCachePosting) (inside : posting.nodeId < nodeCount) (score : R)
    (matchBit : Nat) :
    Added acc [⟨posting.nodeId, score, matchBit⟩]
      (accumulatorUpdate acc posting.nodeId (addDeltaPosting posting score matchBit)) := by
  have same (entry : AccumulatorEntry R) :
      (addDeltaPosting posting score matchBit entry).nodeId = entry.nodeId := rfl
  have entries := accumulatorUpdate_entries fits inside (addDeltaPosting posting score matchBit)
  have found (other : Nat) := lookup_congr entries other
  have here (nodeId : Nat) (equal : nodeId = posting.nodeId) :
      additionsAt nodeId [(⟨posting.nodeId, score, matchBit⟩ : Addition R)] =
        [⟨posting.nodeId, score, matchBit⟩] := by
    simp [additionsAt, equal]
  have elsewhere (nodeId : Nat) (different : nodeId ≠ posting.nodeId) :
      additionsAt nodeId [(⟨posting.nodeId, score, matchBit⟩ : Addition R)] = [] := by
    simp [additionsAt, different.symm]
  refine ⟨?_, fun nodeId => ?_, fun nodeId => ?_, fun nodeId => ?_⟩
  · rw [Accumulator.nodeIds, entries]
    exact touchEntry_distinct same distinct
  · rw [Accumulator.nodeIds, entries]
    refine (mem_touchEntry_nodeIds same).trans ?_
    simp [or_comm, eq_comm]
  · rw [Accumulator.scoreOf, found, Accumulator.scoreOf]
    by_cases equal : nodeId = posting.nodeId
    · rw [here nodeId equal, equal, touchEntry_lookup_self same]
      cases acc.lookup posting.nodeId <;> simp [addDeltaPosting, newEntry]
    · rw [elsewhere nodeId equal, touchEntry_lookup_other same equal]
      simp
  · rw [Accumulator.maskOf, found, Accumulator.maskOf]
    by_cases equal : nodeId = posting.nodeId
    · rw [here nodeId equal, equal, touchEntry_lookup_self same]
      cases acc.lookup posting.nodeId <;> simp [addDeltaPosting, newEntry, orAll]
    · rw [elsewhere nodeId equal, touchEntry_lookup_other same equal]
      simp [orAll]

theorem accumulatorUpdate_fits (fits : acc.Fits nodeCount) (nodeId : Nat)
    (change : AccumulatorEntry R → AccumulatorEntry R) :
    (accumulatorUpdate acc nodeId change).Fits nodeCount := by
  intro capacity member
  rw [accumulatorUpdate_denseCapacity] at member
  exact fits capacity member

/-- **The delta is added** to what the base scorer left. -/
theorem scoreDelta_added (log : R → R) (corpus : ScoringMeta R) (deltaTerms : List DeltaCacheEntry)
    {terms : List SearchTerm} (fits : acc.Fits nodeCount) (distinct : acc.nodeIds.Nodup)
    (inside : ∀ term ∈ terms, ∀ posting ∈ deltaPostings deltaTerms term,
      posting.nodeId < nodeCount) :
    Added acc (terms.flatMap (deltaAdditions log corpus deltaTerms))
      (scoreDelta log corpus deltaTerms terms acc) := by
  -- the postings of one entry after the other
  have stream (term : SearchTerm) (postings : List DeltaCachePosting) :
      ∀ acc : Accumulator R, acc.Fits nodeCount → acc.nodeIds.Nodup →
        (∀ posting ∈ postings, posting.nodeId < nodeCount) →
        let final := postings.foldl (fun acc posting =>
          accumulatorUpdate acc posting.nodeId (addDeltaPosting posting
            (deltaContribution log corpus term posting) term.term.matchBit)) acc
        final.Fits nodeCount ∧ Added acc (postings.map fun posting =>
          ⟨posting.nodeId, deltaContribution log corpus term posting, term.term.matchBit⟩)
            final := by
    induction postings with
    | nil => exact fun acc fits distinct _ => ⟨fits, added_nil distinct⟩
    | cons posting rest ih =>
      intro acc fits distinct inside
      have one := addDeltaPosting_added fits distinct posting (inside posting List.mem_cons_self)
        (deltaContribution log corpus term posting) term.term.matchBit
      obtain ⟨fits', others⟩ := ih _ (accumulatorUpdate_fits fits posting.nodeId _) one.distinct
        fun other member => inside other (List.mem_cons_of_mem _ member)
      exact ⟨fits', one.trans others⟩
  induction terms generalizing acc with
  | nil => exact added_nil distinct
  | cons term rest ih =>
    have later : ∀ other ∈ rest, ∀ posting ∈ deltaPostings deltaTerms other,
        posting.nodeId < nodeCount := fun other member =>
      inside other (List.mem_cons_of_mem _ member)
    rw [scoreDelta, List.foldl_cons, List.flatMap_cons]
    have own := inside term List.mem_cons_self
    rw [deltaPostings] at own
    rw [deltaAdditions, deltaPostings]
    cases found : findDeltaEntry deltaTerms term.term with
    | none => exact ih fits distinct later
    | some entry =>
      rw [found] at own
      obtain ⟨fits', one⟩ := stream term entry.postings acc fits distinct own
      exact one.trans (ih fits' one.distinct later)

end Added

end TurboHybrid.Scan
