/-
**Postings, their chunks and their BM25 scores.**

Scores live in an ordered field: the code's doubles in exact arithmetic. Every chunk of a term's
posting chain carries the maxima the writer computed from its postings:

* `writePostingsChunk`: the chunk written for a run of postings;
* `postingScoreDecoded_le_upperBound`: the bound drawn from a chunk's maxima covers every posting
  of that chunk, in both scoring modes.
-/
import Mathlib.Algebra.Order.Field.Basic
import Mathlib.Tactic.Positivity
import Mathlib.Tactic.FieldSimp
import Mathlib.Tactic.Ring
import Mathlib.Tactic.Linarith

namespace TurboHybrid.Index

variable {R : Type*} [Field R] [LinearOrder R] [IsStrictOrderedRing R]

def uint16Max : Nat := 65535

def uint32Max : Nat := 4294967295

/-! ### Corpus statistics -/

/-- The fields of the metadata that enter scores: the counters of the base and of the delta, the
BM25 parameters, and whether postings carry precomputed term frequency norms. -/
structure ScoringMeta (R : Type*) [Field R] [LinearOrder R] where
  docCount : Nat
  totalDocLen : Nat
  deltaDocCount : Nat
  deltaTotalDocLen : Nat
  k1 : R
  b : R
  tfNorm : Bool
  k1_nonneg : 0 ≤ k1
  b_nonneg : 0 ≤ b
  b_le_one : b ≤ 1

def corpusDocCount (corpus : ScoringMeta R) : R :=
  max ((corpus.docCount : R) + corpus.deltaDocCount) 1

def avgDocLen (corpus : ScoringMeta R) : R :=
  ((corpus.totalDocLen : R) + corpus.deltaTotalDocLen) / corpusDocCount corpus

/-- The inverse document frequency, with the logarithm as a parameter. -/
def termIdf (log : R → R) (corpus : ScoringMeta R) (df : Nat) : R :=
  log (1 + (corpusDocCount corpus - df + 1 / 2) / ((df : R) + 1 / 2))

/-! ### Postings and chunks -/

/-- A decoded posting: node, term frequency, quantised term frequency norm. -/
structure Posting where
  nodeId : Nat
  tf : Nat
  tfNormQ16 : Nat
  deriving DecidableEq, Repr

structure Chunk (R : Type*) where
  postings : List Posting
  lastNodeId : Nat
  maxTf : Nat
  maxTfNormQ16 : Nat
  maxScoreFactor : R

def maxOf (values : List Nat) : Nat := values.foldl max 0

def tfNormScale (corpus : ScoringMeta R) : R := max (corpus.k1 + 1) 1

/-- The tuple the writer makes of a run of postings. -/
def writePostingsChunk (corpus : ScoringMeta R) (postings : List Posting) : Chunk R where
  postings := postings
  lastNodeId := (postings.getLast?.map Posting.nodeId).getD 0
  maxTf := maxOf (postings.map Posting.tf)
  maxTfNormQ16 := if corpus.tfNorm then maxOf (postings.map Posting.tfNormQ16) else 0
  maxScoreFactor :=
    if corpus.tfNorm then
      tfNormScale corpus * ((maxOf (postings.map Posting.tfNormQ16) : R) / uint16Max)
    else 0

@[simp] theorem writePostingsChunk_postings (corpus : ScoringMeta R) (postings : List Posting) :
    (writePostingsChunk corpus postings).postings = postings := rfl

/-! ### Scores -/

def postingScore (corpus : ScoringMeta R) (idf avgDocLen : R) (tf docLen : Nat) : R :=
  let norm := corpus.k1 * (1 - corpus.b + corpus.b * max (docLen : R) 1 / max avgDocLen 1)
  idf * ((tf * (corpus.k1 + 1)) / (tf + norm))

def postingPrecomputedScore (corpus : ScoringMeta R) (idf : R) (tfNormQ16 : Nat) : R :=
  idf * tfNormScale corpus * ((tfNormQ16 : R) / uint16Max)

def postingScoreDecoded (corpus : ScoringMeta R) (idf avgDocLen : R) (posting : Posting)
    (docLen : Nat) : R :=
  if corpus.tfNorm then postingPrecomputedScore corpus idf posting.tfNormQ16
  else postingScore corpus idf avgDocLen posting.tf docLen

def blockUpperBound (corpus : ScoringMeta R) (idf avgDocLen : R) (maxTf : Nat) : R :=
  postingScore corpus idf avgDocLen maxTf 1

def chunkUpperBound (corpus : ScoringMeta R) (idf avgDocLen : R) (chunk : Chunk R) : R :=
  if corpus.tfNorm ∧ 0 < chunk.maxTfNormQ16 then
    if 0 < chunk.maxScoreFactor then idf * chunk.maxScoreFactor
    else postingPrecomputedScore corpus idf chunk.maxTfNormQ16
  else blockUpperBound corpus idf avgDocLen chunk.maxTf

/-! ### The bound of a chunk -/

theorem le_maxOf {values : List Nat} {value : Nat} (member : value ∈ values) :
    value ≤ maxOf values := by
  have above (start : Nat) : start ≤ values.foldl max start ∧
      ∀ value ∈ values, value ≤ values.foldl max start := by
    clear member
    induction values generalizing start with
    | nil => simp
    | cons head rest ih =>
      obtain ⟨grows, covers⟩ := ih (max start head)
      refine ⟨(le_max_left _ _).trans grows, fun other inside => ?_⟩
      rcases List.mem_cons.mp inside with rfl | later
      · exact (le_max_right _ _).trans grows
      · exact covers other later
  exact (above 0).2 value member

section Bounds

variable {corpus : ScoringMeta R} {idf avgDocLen : R}

theorem idf_argument (corpus : ScoringMeta R) {df : Nat} (le : (df : R) ≤ corpusDocCount corpus) :
    1 < 1 + (corpusDocCount corpus - df + 1 / 2) / ((df : R) + 1 / 2) := by
  have nonneg : (0 : R) ≤ df := df.cast_nonneg
  exact lt_add_of_pos_right 1 (div_pos (by linarith) (by linarith))

theorem tfNormScale_pos (corpus : ScoringMeta R) : 0 < tfNormScale corpus :=
  lt_max_of_lt_right one_pos

theorem docNorm_mono {docLen : Nat} (nonempty : 1 ≤ docLen) :
    corpus.k1 * (1 - corpus.b + corpus.b * max ((1 : Nat) : R) 1 / max avgDocLen 1) ≤
      corpus.k1 * (1 - corpus.b + corpus.b * max (docLen : R) 1 / max avgDocLen 1) := by
  have positive : (0 : R) < max avgDocLen 1 := lt_max_of_lt_right one_pos
  have longer : max ((1 : Nat) : R) 1 ≤ max (docLen : R) 1 :=
    max_le_max (by exact_mod_cast nonempty) le_rfl
  have scaled := div_le_div_of_nonneg_right (mul_le_mul_of_nonneg_left longer corpus.b_nonneg)
    positive.le
  exact mul_le_mul_of_nonneg_left (by linarith) corpus.k1_nonneg

theorem docNorm_nonneg (docLen : Nat) :
    0 ≤ corpus.k1 * (1 - corpus.b + corpus.b * max (docLen : R) 1 / max avgDocLen 1) := by
  have positive : (0 : R) < max avgDocLen 1 := lt_max_of_lt_right one_pos
  have length : (0 : R) ≤ max (docLen : R) 1 := le_max_of_le_right zero_le_one
  have share : 0 ≤ corpus.b * max (docLen : R) 1 / max avgDocLen 1 :=
    div_nonneg (mul_nonneg corpus.b_nonneg length) positive.le
  exact mul_nonneg corpus.k1_nonneg (by have := corpus.b_le_one; linarith)

theorem saturation_mono {tf tf' : Nat} {scale norm norm' : R} (more : tf ≤ tf')
    (scale_nonneg : 0 ≤ scale) (norm_nonneg : 0 ≤ norm') (less : norm' ≤ norm) :
    (tf * scale) / (tf + norm) ≤ (tf' * scale) / (tf' + norm') := by
  rcases Nat.eq_zero_or_pos tf with rfl | positive
  · simp only [Nat.cast_zero, zero_mul, zero_div]
    positivity
  · have tfPos : (0 : R) < tf := by exact_mod_cast positive
    have tfLe : (tf : R) ≤ tf' := by exact_mod_cast more
    rw [div_le_div_iff₀ (by linarith) (by linarith)]
    have cross : (tf : R) * (tf' + norm') ≤ tf' * (tf + norm) := by
      have := mul_le_mul tfLe less norm_nonneg (by linarith : (0 : R) ≤ tf')
      linarith [mul_comm (tf : R) (tf' : R)]
    calc (tf : R) * scale * (tf' + norm') = scale * (tf * (tf' + norm')) := by ring
      _ ≤ scale * (tf' * (tf + norm)) := mul_le_mul_of_nonneg_left cross scale_nonneg
      _ = tf' * scale * (tf + norm) := by ring

theorem postingScore_nonneg (idf_nonneg : 0 ≤ idf) (tf docLen : Nat) :
    0 ≤ postingScore corpus idf avgDocLen tf docLen := by
  have norm : 0 ≤ corpus.k1 * (1 - corpus.b + corpus.b * max (docLen : R) 1 / max avgDocLen 1) :=
    docNorm_nonneg docLen
  have scale : 0 ≤ corpus.k1 + 1 := by have := corpus.k1_nonneg; linarith
  have tfNonneg : (0 : R) ≤ tf := tf.cast_nonneg
  exact mul_nonneg idf_nonneg (div_nonneg (mul_nonneg tfNonneg scale) (by linarith))

theorem postingPrecomputedScore_nonneg (idf_nonneg : 0 ≤ idf) (tfNormQ16 : Nat) :
    0 ≤ postingPrecomputedScore corpus idf tfNormQ16 :=
  mul_nonneg (mul_nonneg idf_nonneg (tfNormScale_pos corpus).le)
    (div_nonneg tfNormQ16.cast_nonneg uint16Max.cast_nonneg)

theorem postingScoreDecoded_nonneg (idf_nonneg : 0 ≤ idf) (posting : Posting) (docLen : Nat) :
    0 ≤ postingScoreDecoded corpus idf avgDocLen posting docLen := by
  unfold postingScoreDecoded
  split_ifs
  · exact postingPrecomputedScore_nonneg idf_nonneg _
  · exact postingScore_nonneg idf_nonneg _ _

theorem postingPrecomputedScore_mono (idf_nonneg : 0 ≤ idf) {tfNorm tfNorm' : Nat}
    (le : tfNorm ≤ tfNorm') :
    postingPrecomputedScore corpus idf tfNorm ≤ postingPrecomputedScore corpus idf tfNorm' :=
  mul_le_mul_of_nonneg_left
    (div_le_div_of_nonneg_right (by exact_mod_cast le) uint16Max.cast_nonneg)
    (mul_nonneg idf_nonneg (tfNormScale_pos corpus).le)

theorem chunkUpperBound_nonneg (idf_nonneg : 0 ≤ idf) (postings : List Posting) :
    0 ≤ chunkUpperBound corpus idf avgDocLen (writePostingsChunk corpus postings) := by
  unfold chunkUpperBound
  split_ifs with _ factor
  · exact mul_nonneg idf_nonneg factor.le
  · exact postingPrecomputedScore_nonneg idf_nonneg _
  · exact postingScore_nonneg idf_nonneg _ _

theorem chunkUpperBound_precomputed (mode : corpus.tfNorm = true) {postings : List Posting}
    (some : 0 < maxOf (postings.map Posting.tfNormQ16)) :
    chunkUpperBound corpus idf avgDocLen (writePostingsChunk corpus postings) =
      postingPrecomputedScore corpus idf (maxOf (postings.map Posting.tfNormQ16)) := by
  have factor : 0 < tfNormScale corpus *
      ((maxOf (postings.map Posting.tfNormQ16) : R) / uint16Max) :=
    mul_pos (tfNormScale_pos corpus) (div_pos (by exact_mod_cast some) (by norm_num [uint16Max]))
  simp only [chunkUpperBound, writePostingsChunk, mode, if_true, true_and, some, factor,
    postingPrecomputedScore, mul_assoc]

/-- **A chunk's bound covers its postings.** -/
theorem postingScoreDecoded_le_upperBound (idf_nonneg : 0 ≤ idf) {postings : List Posting}
    {posting : Posting} (member : posting ∈ postings) {docLen : Nat} (nonempty : 1 ≤ docLen) :
    postingScoreDecoded corpus idf avgDocLen posting docLen ≤
      chunkUpperBound corpus idf avgDocLen (writePostingsChunk corpus postings) := by
  have tfLe := le_maxOf (List.mem_map_of_mem (f := Posting.tf) member)
  have normLe := le_maxOf (List.mem_map_of_mem (f := Posting.tfNormQ16) member)
  cases mode : corpus.tfNorm with
  | false =>
    simp only [postingScoreDecoded, chunkUpperBound, mode, Bool.false_eq_true, false_and, if_false]
    exact mul_le_mul_of_nonneg_left (saturation_mono tfLe
      (by have := corpus.k1_nonneg; linarith) (docNorm_nonneg 1) (docNorm_mono nonempty)) idf_nonneg
  | true =>
    simp only [postingScoreDecoded, mode, if_true]
    by_cases some : 0 < maxOf (postings.map Posting.tfNormQ16)
    · rw [chunkUpperBound_precomputed mode some]
      exact postingPrecomputedScore_mono idf_nonneg normLe
    · have zero : posting.tfNormQ16 = 0 := by omega
      have score : postingPrecomputedScore corpus idf posting.tfNormQ16 = 0 := by
        simp [postingPrecomputedScore, zero]
      rw [score]
      exact chunkUpperBound_nonneg idf_nonneg postings

end Bounds

end TurboHybrid.Index
