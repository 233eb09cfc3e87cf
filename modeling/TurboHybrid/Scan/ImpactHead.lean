/-
**Impact heads.**

A frequent term owns a head: its postings of highest impact, stored with the term or, where that is
allowed, built from its live postings.

* `ensureImpactHead`: the head a scorer gets for a term.
-/
import TurboHybrid.Scan.Exhaustive

set_option linter.unusedSectionVars false

namespace TurboHybrid.Scan

open TurboHybrid.Index TurboHybrid.Query TurboHybrid.Library

variable {R : Type*} [Field R] [LinearOrder R] [IsStrictOrderedRing R]

/-- The relation's impact head options, and whether a missing head may be built. -/
structure ImpactOptions where
  impactHead : Bool
  impactMinDf : Nat
  impactHeadK : Nat
  allowLazyBuild : Bool
  impactHeadK_le : impactHeadK ≤ uint32Max

def defaultImpactOptions : ImpactOptions := ⟨true, 1024, 2048, false, by decide⟩

structure ImpactEntry (R : Type*) where
  nodeId : Nat
  tfNormQ16 : Nat
  score : R

def impactCompare (one other : ImpactEntry R) : Bool :=
  if other.score < one.score then true
  else if one.score < other.score then false
  else decide (one.nodeId ≤ other.nodeId)

/-- The stored head, scored with the current statistics. -/
def loadImpactHead (log : R → R) (corpus : ScoringMeta R) (headK : Nat) (term : SearchTerm)
    (tuples : List ImpactTupleEntry) : List (ImpactEntry R) :=
  (tuples.take headK).map fun tuple =>
    ⟨tuple.nodeId, tuple.tfNormQ16,
      postingPrecomputedScore corpus (term.idf log corpus) tuple.tfNormQ16⟩

/-- A head built from the postings of a term at live documents. -/
def buildImpactHead (log : R → R) (corpus : ScoringMeta R) (docs : DocState) (headK : Nat)
    (term : SearchTerm) : List (ImpactEntry R) :=
  let impact := (term.postings.filter fun posting => docs.scorable posting.nodeId).map fun posting =>
    ⟨posting.nodeId, posting.tfNormQ16,
      postingScoreDecoded corpus (term.idf log corpus) (avgDocLen corpus) posting
        (docs.docLen posting.nodeId)⟩
  (impact.insertionSort fun one other => impactCompare one other).take headK

/-- The head of a term, `none` where the term is not eligible for one. -/
def ensureImpactHead (log : R → R) (options : ImpactOptions) (corpus : ScoringMeta R)
    (docs : DocState) (term : SearchTerm) : Option (List (ImpactEntry R)) :=
  match term.lexicon with
  | none => none
  | some entry =>
    if !options.impactHead then none
    else if term.baseDf < options.impactMinDf ∨ options.impactHeadK = 0 then none
    else if !entry.impactTuples.isEmpty then
      some (loadImpactHead log corpus options.impactHeadK term entry.impactTuples)
    else if !options.allowLazyBuild then none
    else
      let impact := buildImpactHead log corpus docs options.impactHeadK term
      if impact.isEmpty then none else some impact

/-! ### Sums of head entries -/

def headSum (entries : List (ImpactEntry R)) (nodeId : Nat) : R :=
  ((entries.filter fun entry => entry.nodeId == nodeId).map ImpactEntry.score).sum

def headNodes (entries : List (ImpactEntry R)) : List Nat := (entries.map ImpactEntry.nodeId).dedup

section Sums

variable {entries extra : List (ImpactEntry R)} {nodeId : Nat}

theorem mem_headNodes : nodeId ∈ headNodes entries ↔ ∃ entry ∈ entries, entry.nodeId = nodeId := by
  simp [headNodes]

theorem mem_headNodes_append :
    nodeId ∈ headNodes (entries ++ extra) ↔ nodeId ∈ headNodes entries ∨ nodeId ∈ headNodes extra := by
  simp [headNodes]

theorem headSum_append :
    headSum (entries ++ extra) nodeId = headSum entries nodeId + headSum extra nodeId := by
  rw [headSum, List.filter_append, List.map_append, List.sum_append]
  rfl

theorem headSum_singleton (entry : ImpactEntry R) (nodeId : Nat) :
    headSum [entry] nodeId = if entry.nodeId = nodeId then entry.score else 0 := by
  by_cases here : entry.nodeId = nodeId <;> simp [headSum, here]

theorem headSum_of_fresh (fresh : nodeId ∉ headNodes entries) : headSum entries nodeId = 0 := by
  have none : entries.filter (fun entry => entry.nodeId == nodeId) = [] := by
    refine List.filter_eq_nil_iff.mpr fun entry member here => ?_
    exact fresh (mem_headNodes.mpr ⟨entry, member, by simpa using here⟩)
  rw [headSum, none]
  rfl

end Sums

end TurboHybrid.Scan
