/-
**When chunk bounds are safe.**

The loop compares the bound of the chunk an iterator stands in, not of its whole list. Chunk bounds
are safe when no document scores below the first chunks ahead of it and yet hides a better one
behind them.

* `boundsSafe_of_chunks`: safe chunks make the bounds of every run safe;
* `scoreBaseWand_stops`: unsafe chunks end a run after its first document;
* `wand_exact_iff_chunkBoundsSafe`: the loop is exact for all dead nodes and all `k` exactly when
  chunk bounds are safe.
-/
import TurboHybrid.Scan.OrSearch
import Mathlib.Analysis.SpecialFunctions.Log.Basic

namespace TurboHybrid.Scan

open TurboHybrid.Index TurboHybrid.Query TurboHybrid.Library

variable {R : Type*} [Field R] [LinearOrder R] [IsStrictOrderedRing R]

/-! ### Safe chunk bounds -/

section Safe

variable (log : R → R) (corpus : ScoringMeta R) (docs : DocState) (terms : List SearchTerm)

/-- The nodes that are documents of the terms while they live. -/
def candidates : List Nat := documents (docs.markDead fun _ => false) terms

/-- A node's score over all terms, whichever nodes are dead. -/
def documentScore (nodeId : Nat) : R :=
  fullScore log ⟨corpus, docs, fun _ => true, 0, none⟩ terms nodeId

/-- No set of later documents hides one above a document behind first chunks within its score. -/
def ChunkBoundsSafe : Prop :=
  ∀ nodeId ∈ candidates docs terms, ∀ later : Finset Nat,
    (∀ other ∈ later, other ∈ candidates docs terms ∧ nodeId < other) →
    (terms.map (chunkBoundAt log corpus fun other => decide (other ∈ later))).sum ≤
      documentScore log corpus docs terms nodeId →
    ∀ other ∈ later, documentScore log corpus docs terms other ≤
      documentScore log corpus docs terms nodeId

end Safe

section Runs

variable {log : R → R} {corpus : ScoringMeta R} {docs : DocState} {tree : Tree}
  {terms : List SearchTerm} {dead : Nat → Bool} {k : Nat}

theorem mem_candidates {nodeId : Nat} : nodeId ∈ candidates docs terms ↔
    (nodeId < docs.nodeCount ∧ docs.docLen nodeId ≠ 0) ∧ ∃ term ∈ terms, termAt nodeId term = true := by
  rw [candidates, mem_documents, DocState.markDead_scorable]
  simp

theorem documents_candidates {nodeId : Nat} : nodeId ∈ documents (docs.markDead dead) terms ↔
    nodeId ∈ candidates docs terms ∧ dead nodeId = false := by
  rw [mem_candidates, mem_documents, DocState.markDead_scorable]
  tauto

theorem fullScore_markDead (nodeId : Nat) :
    fullScore log (searchContext corpus (docs.markDead dead) tree terms k) terms nodeId =
      documentScore log corpus docs terms nodeId :=
  fullScore_congr rfl fun _ => rfl

/-- **Safe chunks** make the bounds of every run safe. -/
theorem boundsSafe_of_chunks (idf_nonneg : ∀ term ∈ terms, 0 ≤ term.idf log corpus)
    (safe : ChunkBoundsSafe log corpus docs terms) (dead : Nat → Bool) (k : Nat) :
    BoundsSafe log (searchContext corpus (docs.markDead dead) tree terms k) terms 0 := by
  constructor
  · intro nodeId document start target before bounded other member from_start below
    let later := ((documents (docs.markDead dead) terms).filter fun other =>
      decide (start ≤ other) && decide (other < target)).toFinset
    have mem_later (other : Nat) : other ∈ later ↔
        other ∈ documents (docs.markDead dead) terms ∧ start ≤ other ∧ other < target := by
      simp [later]
    have inside : ∀ other ∈ later, other ∈ candidates docs terms ∧ nodeId < other := by
      intro other member
      obtain ⟨document, le, -⟩ := (mem_later other).mp member
      exact ⟨(documents_candidates.mp document).1, before.trans_le le⟩
    rw [fullScore_markDead] at bounded
    rw [fullScore_markDead, fullScore_markDead]
    refine safe nodeId (documents_candidates.mp document).1 later inside ?_ other
      ((mem_later other).mpr ⟨member, from_start, below⟩)
    refine le_of_eq_of_le (congrArg _ (List.map_congr_left fun term inTerms => ?_)) bounded
    refine chunkBoundAt_congr log corpus fun posting occurs => ?_
    rw [Bool.eq_iff_iff, decide_eq_true_eq, mem_later, ahead_iff, mem_documents]
    have occurs' : ∃ term ∈ terms, termAt posting.nodeId term = true :=
      ⟨term, inTerms, termAt_iff.mpr ⟨posting, occurs, rfl⟩⟩
    tauto
  · rintro start target - ⟨nodeId, -, -, negative⟩
    let ctx := searchContext corpus (docs.markDead dead) tree terms k
    exact absurd negative (not_lt.mpr (fullScore_nonneg log ctx idf_nonneg nodeId))

/-- **Unsafe chunks**: with `k` at one, a run whose first document reaches the bounds of all that is
ahead ends with it. -/
theorem scoreBaseWand_stops {ctx : ScanContext R} (unfused : ctx.fusedBound = none) (one : ctx.k = 1)
    (idf_nonneg : ∀ term ∈ terms, 0 ≤ term.idf log ctx.corpus)
    (matching : ∀ nodeId ∈ documents ctx.docs terms, ctx.accepts (fullMask terms nodeId) = true)
    {first : Nat} (document : first ∈ documents ctx.docs terms)
    (least : ∀ other ∈ documents ctx.docs terms, first ≤ other)
    (within : (terms.map (chunkBoundAt log ctx.corpus
      (ahead ctx.docs (first + 1) ctx.docs.nodeCount))).sum ≤ fullScore log ctx terms first)
    (mode : AccumulatorMode) (capacity : Nat) (forceFullSort : Bool) :
    selectFinalTopK forceFullSort ctx.accepts ctx.k
        (scoreBaseWand log ctx terms (accumulatorInit mode capacity ctx.docs.nodeCount ctx.k)).2 =
      [⟨first, fullScore log ctx terms first⟩] := by
  have fresh : Tracks log ctx terms 0 0
      (accumulatorInit mode capacity ctx.docs.nodeCount ctx.k : Accumulator R) :=
    seededInit_tracks mode capacity 0
  have least' : ∀ other ∈ documents ctx.docs terms, 0 ≤ other → first ≤ other :=
    fun other member _ => least other member
  set acc : Accumulator R := accumulatorInit mode capacity ctx.docs.nodeCount ctx.k with acc_eq
  have start : Frontier log ctx terms 0 (wandStart log ctx terms acc).active :=
    wandStart_frontier acc
  -- the first round visits the first document
  obtain ⟨next, moved, visits⟩ : ∃ next, wandStep ctx (wandStart log ctx terms acc) = some next ∧
      Visits log ctx terms 0 first (wandStart log ctx terms acc) next := by
    have untouched : acc.touchedCount = 0 := rfl
    cases moved : wandStep ctx (wandStart log ctx terms acc) with
    | none =>
      obtain ⟨none | ⟨many, -⟩⟩ := wandStep_none unfused start moved
      · exact absurd (none first document) (Nat.not_lt_zero _)
      · have : ctx.k ≤ acc.touchedCount := many
        omega
    | some next =>
      refine ⟨next, rfl, ?_⟩
      rcases wandStep_some unfused idf_nonneg start moved with ⟨target, skips⟩ | ⟨nodeId, visits⟩
      · have : ctx.k ≤ acc.touchedCount := skips.many
        omega
      · have same : nodeId = first :=
          le_antisymm (visits.least first document (Nat.zero_le _))
            (least nodeId visits.document)
        exact same ▸ visits
  have after : Tracks log ctx terms 0 (first + 1) next.acc :=
    visits.acc ▸ fresh.visit (by omega) idf_nonneg matching document (Nat.zero_le _) least'
  -- it is the only node touched
  have nodeIds : next.acc.nodeIds = [first] := by
    have seen : documentsBelow ctx terms (first + 1) = documentsBelow ctx terms 0 ++ [first] :=
      documentsBelow_succ document (Nat.zero_le _) least'
    have none : documentsBelow ctx terms 0 = [] := by simp [documentsBelow]
    have skimmed := after.skimmed
    rw [seen, none, List.nil_append] at skimmed
    rcases List.sublist_singleton.mp skimmed.sublist with empty | whole
    · rw [empty] at skimmed
      have early := skimmed.early first (List.mem_singleton_self _) (by simp)
      simp [position, one] at early
    · exact whole
  have touched : ctx.k ≤ next.acc.touchedCount := by
    rw [← length_nodeIds, nodeIds, one]
    rfl
  have reached : fullScore log ctx terms first ≤ kthScore next.acc ctx.k := by
    have positive : 0 < next.acc.topHeapCapacity := by rw [after.capacity]; omega
    have many : next.acc.topHeapCapacity ≤ next.acc.touchedCount := after.capacity ▸ touched
    obtain ⟨root, inHeap, value⟩ := (after.wellFormed.fullHeap positive many).root
    have inside := after.wellFormed.inside root inHeap
    have full := kthScore_full after.wellFormed positive many
    rw [after.capacity] at full
    rw [after.holds.scores root inside] at value
    rw [nodeIds, List.mem_singleton] at inside
    rw [full, value, inside]
    exact le_max_left _ _
  -- no round follows
  have ended : wandStep ctx next = none :=
    wandStep_stops idf_nonneg visits.frontier touched (within.trans reached)
  have final : (scoreBaseWand log ctx terms acc).2 = next.acc := by
    obtain ⟨fuel, count⟩ : ∃ fuel, ctx.docs.nodeCount = fuel + 1 :=
      Nat.exists_eq_add_one.mpr (Nat.zero_lt_of_lt (DocState.scorable_lt
        (mem_documents.mp document).1))
    rw [scoreBaseWand, count]
    simp only [wandLoop, moved, ended]
  rw [final, after.holds.selection fun nodeId touched => matching nodeId
    (after.touched_document touched).1, nodeIds, one]
  rfl

theorem best_ne_first {first other : Nat} {nodeIds : List Nat} {score : Nat → R}
    (member : other ∈ nodeIds) (better : score first < score other) :
    TopK.best 1 (scored score nodeIds) ≠ [⟨first, score first⟩] := by
  intro same
  have chosen : (⟨first, score first⟩ : NodeScore R) ∈ TopK.best 1 (scored score nodeIds) :=
    same ▸ List.mem_singleton_self _
  have none := TopK.before_lt_of_mem_best chosen
  have before : (⟨other, score other⟩ : NodeScore R) ∈
      (scored score nodeIds).filter fun node => node < ⟨first, score first⟩ :=
    List.mem_filter.mpr ⟨mem_scored.mpr ⟨member, rfl⟩, by simpa [NodeScore.lt_iff] using Or.inl better⟩
  have := List.length_pos_of_mem before
  omega

theorem wand_misses (ctx : ScanContext R) (unfused : ctx.fusedBound = none) (one : ctx.k = 1)
    (idf_nonneg : ∀ term ∈ terms, 0 ≤ term.idf log ctx.corpus)
    (matching : ∀ nodeId ∈ documents ctx.docs terms, ctx.accepts (fullMask terms nodeId) = true)
    {first : Nat} (document : first ∈ documents ctx.docs terms)
    (least : ∀ other ∈ documents ctx.docs terms, first ≤ other)
    (within : (terms.map (chunkBoundAt log ctx.corpus
      (ahead ctx.docs (first + 1) ctx.docs.nodeCount))).sum ≤ fullScore log ctx terms first)
    {better : Nat} (missed : better ∈ documents ctx.docs terms)
    (above : fullScore log ctx terms first < fullScore log ctx terms better)
    (mode : AccumulatorMode) (capacity : Nat) (forceFullSort : Bool) :
    selectFinalTopK forceFullSort ctx.accepts ctx.k
        (scoreBaseWand log ctx terms (accumulatorInit mode capacity ctx.docs.nodeCount ctx.k)).2 ≠
      selectFinalTopK forceFullSort ctx.accepts ctx.k (scoreBaseExhaustive log ctx terms
        (accumulatorInit mode capacity ctx.docs.nodeCount ctx.k)) := by
  rw [scoreBaseWand_stops unfused one idf_nonneg matching document least within,
    scoreBaseExhaustive_selection log ctx matching (accumulatorInit_fits mode capacity _ _) rfl, one]
  exact (best_ne_first missed above).symm

/-- **Hidden documents are lost**: with one document and a set of better ones hidden behind its
score, the others dead, the loop and the exhaustive scorer differ. -/
theorem wand_differs_of_hidden (query : OrQuery tree terms)
    (idf_nonneg : ∀ term ∈ terms, 0 ≤ term.idf log corpus) {first : Nat}
    (document : first ∈ candidates docs terms) {later : Finset Nat}
    (inside : ∀ other ∈ later, other ∈ candidates docs terms ∧ first < other)
    (within : (terms.map (chunkBoundAt log corpus fun other => decide (other ∈ later))).sum ≤
      documentScore log corpus docs terms first) {better : Nat} (hidden : better ∈ later)
    (above : documentScore log corpus docs terms first < documentScore log corpus docs terms better)
    (mode : AccumulatorMode) (capacity : Nat) (forceFullSort : Bool) :
    let ctx := searchContext corpus
      (docs.markDead fun nodeId => !(nodeId == first || decide (nodeId ∈ later))) tree terms 1
    selectFinalTopK forceFullSort ctx.accepts 1
        (scoreBaseWand log ctx terms (accumulatorInit mode capacity docs.nodeCount 1)).2 ≠
      selectFinalTopK forceFullSort ctx.accepts 1
        (scoreBaseExhaustive log ctx terms (accumulatorInit mode capacity docs.nodeCount 1)) := by
  intro ctx
  have mem (nodeId : Nat) : nodeId ∈ documents ctx.docs terms ↔ nodeId = first ∨ nodeId ∈ later := by
    refine documents_candidates.trans ?_
    simp only [Bool.not_eq_false', Bool.or_eq_true, beq_iff_eq, decide_eq_true_eq]
    refine ⟨And.right, fun either => ⟨?_, either⟩⟩
    rcases either with rfl | member
    · exact document
    · exact (inside nodeId member).1
  have least : ∀ other ∈ documents ctx.docs terms, first ≤ other := by
    intro other member
    rcases (mem other).mp member with rfl | inLater
    · exact le_rfl
    · exact (inside other inLater).2.le
  have higher : fullScore log ctx terms first < fullScore log ctx terms better := by
    rwa [fullScore_markDead, fullScore_markDead]
  rw [← fullScore_markDead] at within
  refine wand_misses ctx rfl rfl idf_nonneg (query.documents_matching corpus ctx.docs 1)
    ((mem first).mpr (Or.inl rfl)) least ?_ ((mem better).mpr (Or.inr hidden)) higher mode capacity
    forceFullSort
  refine le_of_eq_of_le (congrArg _ (List.map_congr_left fun term inTerms => ?_)) within
  refine chunkBoundAt_congr log corpus fun posting occurs => ?_
  rw [Bool.eq_iff_iff, decide_eq_true_eq, ahead_iff]
  have isDocument : ctx.docs.scorable posting.nodeId = true ↔
      posting.nodeId = first ∨ posting.nodeId ∈ later := by
    rw [← mem, mem_documents]
    exact (and_iff_left ⟨term, inTerms, termAt_iff.mpr ⟨posting, occurs, rfl⟩⟩).symm
  constructor
  · rintro ⟨after, -, scorable⟩
    rcases isDocument.mp scorable with same | member
    · omega
    · exact member
  · intro member
    have scorable := isDocument.mpr (Or.inr member)
    exact ⟨(inside _ member).2, DocState.scorable_lt scorable, scorable⟩

theorem fullScore_le_chunkBounds (ctx : ScanContext R)
    (idf_nonneg : ∀ term ∈ terms, 0 ≤ term.idf log ctx.corpus)
    (single : ∀ term ∈ terms, (term.chunks ctx.corpus).length ≤ 1) {within : Nat → Bool}
    {nodeId : Nat} (inside : within nodeId = true) (nonempty : 1 ≤ ctx.docs.docLen nodeId) :
    fullScore log ctx terms nodeId ≤ (terms.map (chunkBoundAt log ctx.corpus within)).sum := by
  refine List.sum_le_sum fun term inTerms => ?_
  by_cases occurs : ∃ posting ∈ term.postings, posting.nodeId = nodeId
  · obtain ⟨posting, member, rfl⟩ := occurs
    rw [termScore_of_mem member]
    have flat := member
    rw [← chunks_postings ctx.corpus term] at flat
    obtain ⟨chunk, known, held⟩ := List.mem_flatMap.mp flat
    have only : term.chunks ctx.corpus = [chunk] := by
      obtain ⟨head, rest, split⟩ := List.exists_cons_of_ne_nil (List.ne_nil_of_mem known)
      have one := single term inTerms
      rw [split, List.length_cons] at one
      have none : rest = [] := List.length_eq_zero_iff.mp (by omega)
      rw [split, none, List.mem_singleton] at known
      rw [split, none, known]
    have found : (chunk.postings.any fun posting => within posting.nodeId) = true :=
      List.any_eq_true.mpr ⟨posting, held, inside⟩
    obtain ⟨run, rfl⟩ : ∃ run, chunk = writePostingsChunk ctx.corpus run := chunk_written known
    rw [chunkBoundAt, only, List.find?_cons, found]
    exact postingScoreDecoded_le_upperBound (idf_nonneg term inTerms) held nonempty
  · rw [termScore_of_missing fun posting member here => occurs ⟨posting, member, here⟩]
    exact chunkBoundAt_nonneg (idf_nonneg term inTerms) _

theorem chunkBoundsSafe_of_single (idf_nonneg : ∀ term ∈ terms, 0 ≤ term.idf log corpus)
    (single : ∀ term ∈ terms, (term.chunks corpus).length ≤ 1) :
    ChunkBoundsSafe log corpus docs terms := by
  intro first document later inside within other hidden
  have candidate := (mem_candidates.mp (inside other hidden).1).1
  exact (fullScore_le_chunkBounds ⟨corpus, docs, fun _ => true, 0, none⟩ idf_nonneg single
    (by simpa using hidden) (Nat.one_le_iff_ne_zero.mpr candidate.2)).trans within

end Runs

/-! ### One word over and over -/

/-- The query `a | b`. -/
def eitherTree : Tree := .node .or (.val [97] false) (.val [98] false)

def absentTerm : SearchTerm := ⟨⟨[98], hashTerm [98], 1, 1⟩, none, 0⟩

/-- A full run of documents that have the lexeme once. -/
def repeatedRun : List Posting :=
  (List.range maxPostingsPerChunk).map fun nodeId => ⟨nodeId, 1, 29813⟩

/-- After the run one more document has the lexeme twice. -/
def repeatedPostings : List Posting := repeatedRun ++ [⟨maxPostingsPerChunk, 2, 31996⟩]

theorem repeatedPostings_sorted :
    repeatedPostings.Pairwise fun one other => one.nodeId < other.nodeId := by
  rw [repeatedPostings, repeatedRun, List.pairwise_append, List.pairwise_map]
  refine ⟨List.pairwise_lt_range, List.pairwise_singleton _ _, ?_⟩
  simp

def repeatedTerm : SearchTerm :=
  ⟨⟨[97], hashTerm [97], 2, 2⟩,
    some ⟨0, 504, PostingChain.ofPostings repeatedPostings repeatedPostings_sorted, []⟩, 0⟩

def repeatedDocs : DocState where
  nodeCount := 504
  docLens := List.replicate 503 1 ++ [2]
  liveNodes := List.replicate 504 true
  nodeCount_lt := by decide

noncomputable def repeatedMeta : ScoringMeta ℝ where
  docCount := 504
  totalDocLen := 505
  deltaDocCount := 0
  deltaTotalDocLen := 0
  k1 := (6 : Nat) / (5 : Nat)
  b := (3 : Nat) / (4 : Nat)
  tfNorm := true
  k1_nonneg := by norm_num
  b_nonneg := by norm_num
  b_le_one := by norm_num

theorem repeated_query : OrQuery eitherTree [absentTerm, repeatedTerm] :=
  ⟨rfl, rfl, Or.inl rfl⟩

theorem repeated_docCount : corpusDocCount repeatedMeta = 504 := by
  norm_num [corpusDocCount, repeatedMeta]

theorem repeated_idf_pos : 0 < repeatedTerm.idf Real.log repeatedMeta :=
  Real.log_pos (idf_argument repeatedMeta (by
    rw [repeated_docCount]
    norm_num [SearchTerm.df, SearchTerm.baseDf, repeatedTerm]))

theorem repeated_idf_nonneg : ∀ term ∈ [absentTerm, repeatedTerm],
    0 ≤ term.idf Real.log repeatedMeta := by
  intro term member
  simp only [List.mem_cons, List.not_mem_nil, or_false] at member
  rcases member with rfl | rfl
  · refine (Real.log_pos (idf_argument repeatedMeta ?_)).le
    rw [repeated_docCount]
    norm_num [SearchTerm.df, SearchTerm.baseDf, absentTerm]
  · exact repeated_idf_pos.le

noncomputable def repeatedContext : ScanContext ℝ :=
  searchContext repeatedMeta repeatedDocs eitherTree [absentTerm, repeatedTerm] 1

theorem mem_repeatedPostings {posting : Posting} : posting ∈ repeatedPostings ↔
    (posting.nodeId < 503 ∧ posting = ⟨posting.nodeId, 1, 29813⟩) ∨ posting = ⟨503, 2, 31996⟩ := by
  have limit := maxPostingsPerChunk_eq
  simp only [repeatedPostings, repeatedRun, List.mem_append, List.mem_map, List.mem_range, List.mem_singleton,
    limit]
  refine or_congr_left ⟨?_, fun ⟨inside, shape⟩ => ⟨posting.nodeId, inside, shape.symm⟩⟩
  rintro ⟨nodeId, inside, rfl⟩
  exact ⟨inside, rfl⟩

theorem repeated_postings : repeatedTerm.postings = repeatedPostings := by
  simp [SearchTerm.postings, repeatedTerm, PostingChain.postings, PostingChain.ofPostings,
    postingRuns_flatten]

theorem repeated_docLen {nodeId : Nat} (early : nodeId < 503) : repeatedDocs.docLen nodeId = 1 := by
  have inside : nodeId < (List.replicate 503 1).length := by rwa [List.length_replicate]
  rw [DocState.docLen, repeatedDocs, List.getD_append _ _ _ _ inside, List.getD_replicate _ early]

theorem repeated_docLen_last : repeatedDocs.docLen 503 = 2 := by
  have past : (List.replicate 503 1).length ≤ 503 := by rw [List.length_replicate]
  rw [DocState.docLen, repeatedDocs, List.getD_append_right _ _ _ _ past, List.length_replicate]
  rfl

theorem repeated_scorable {nodeId : Nat} (inside : nodeId < 504) :
    repeatedDocs.scorable nodeId = true := by
  have live : repeatedDocs.live nodeId = true := by
    rw [DocState.live, repeatedDocs, List.getD_replicate _ inside]
  have nonempty : repeatedDocs.docLen nodeId ≠ 0 := by
    rcases Nat.lt_or_ge nodeId 503 with early | last
    · rw [repeated_docLen early]
      exact one_ne_zero
    · rw [show nodeId = 503 by omega, repeated_docLen_last]
      exact two_ne_zero
  rw [DocState.scorable, live, bne_iff_ne.mpr nonempty,
    decide_eq_true (show nodeId < repeatedDocs.nodeCount from inside)]
  rfl

theorem repeated_document {nodeId : Nat} : nodeId ∈ documents repeatedContext.docs
    [absentTerm, repeatedTerm] ↔ nodeId < 504 := by
  rw [mem_documents]
  refine ⟨fun both => DocState.scorable_lt both.1, fun inside => ⟨repeated_scorable inside,
    repeatedTerm, by simp, termAt_iff.mpr ?_⟩⟩
  rw [repeated_postings]
  rcases Nat.lt_or_ge nodeId 503 with early | last
  · exact ⟨⟨nodeId, 1, 29813⟩, mem_repeatedPostings.mpr (Or.inl ⟨early, rfl⟩), rfl⟩
  · exact ⟨⟨503, 2, 31996⟩, mem_repeatedPostings.mpr (Or.inr rfl), by simp; omega⟩

theorem repeated_score {posting : Posting} (member : posting ∈ repeatedPostings) :
    fullScore Real.log repeatedContext [absentTerm, repeatedTerm] posting.nodeId =
      postingPrecomputedScore repeatedMeta (repeatedTerm.idf Real.log repeatedMeta)
        posting.tfNormQ16 := by
  have absent : termScore Real.log repeatedContext posting.nodeId absentTerm = 0 :=
    termScore_of_missing fun posting inside => by simp [SearchTerm.postings, absentTerm] at inside
  rw [fullScore, List.map_cons, List.map_cons, List.map_nil, List.sum_cons, List.sum_singleton,
    absent, zero_add, termScore_of_mem (repeated_postings ▸ member)]
  rfl

/-- The first chunk ahead of the first document bounds what follows by the first score. -/
theorem repeated_bound :
    ([absentTerm, repeatedTerm].map (chunkBoundAt Real.log repeatedMeta
      (ahead repeatedDocs 1 504))).sum =
      fullScore Real.log repeatedContext [absentTerm, repeatedTerm] 0 := by
  have absent : chunkBoundAt Real.log repeatedMeta (ahead repeatedDocs 1 504) absentTerm = 0 :=
    chunkBoundAt_none fun posting inside => by simp [SearchTerm.postings, absentTerm] at inside
  have first : fullScore Real.log repeatedContext [absentTerm, repeatedTerm] 0 =
      postingPrecomputedScore repeatedMeta (repeatedTerm.idf Real.log repeatedMeta) 29813 :=
    repeated_score (mem_repeatedPostings.mpr (Or.inl ⟨by decide, rfl⟩) : ⟨0, 1, 29813⟩ ∈ repeatedPostings)
  have runs : postingRuns repeatedPostings =
      repeatedRun :: postingRuns [⟨maxPostingsPerChunk, 2, 31996⟩] :=
    postingRuns_append (by simp [repeatedRun])
  have chunks : repeatedTerm.chunks repeatedMeta = writePostingsChunk repeatedMeta repeatedRun ::
      (postingRuns [⟨maxPostingsPerChunk, 2, 31996⟩]).map (writePostingsChunk repeatedMeta) := by
    simp only [SearchTerm.chunks, repeatedTerm, PostingChain.chunks, PostingChain.ofPostings, runs,
      Option.map_some, Option.getD_some, List.map_cons]
  have reached : (repeatedRun.any fun posting => ahead repeatedDocs 1 504 posting.nodeId) = true := by
    have second : (⟨1, 1, 29813⟩ : Posting) ∈ repeatedRun :=
      List.mem_map.mpr ⟨1, List.mem_range.mpr (by norm_num [maxPostingsPerChunk_eq]), rfl⟩
    have inAhead : ahead repeatedDocs 1 504 1 = true :=
      ahead_iff.mpr ⟨le_rfl, by norm_num, repeated_scorable (by norm_num)⟩
    exact List.any_eq_true.mpr ⟨⟨1, 1, 29813⟩, second, inAhead⟩
  have largest : maxOf (repeatedRun.map Posting.tfNormQ16) = 29813 := by decide +kernel
  rw [List.map_cons, List.map_cons, List.map_nil, List.sum_cons, List.sum_singleton, absent, zero_add,
    first, chunkBoundAt, chunks, List.find?_cons, writePostingsChunk_postings, reached, Option.map_some,
    Option.getD_some, chunkUpperBound_precomputed rfl (by rw [largest]; norm_num), largest]

theorem repeated_better :
    fullScore Real.log repeatedContext [absentTerm, repeatedTerm] 0 <
      fullScore Real.log repeatedContext [absentTerm, repeatedTerm] 503 := by
  have first := repeated_score
    (mem_repeatedPostings.mpr (Or.inl ⟨by decide, rfl⟩) : ⟨0, 1, 29813⟩ ∈ repeatedPostings)
  have last := repeated_score
    (mem_repeatedPostings.mpr (Or.inr rfl) : ⟨503, 2, 31996⟩ ∈ repeatedPostings)
  rw [first, last]
  refine mul_lt_mul_of_pos_left ?_ (mul_pos repeated_idf_pos (tfNormScale_pos repeatedMeta))
  norm_num [uint16Max]

def rareTerm : SearchTerm :=
  ⟨⟨[97], hashTerm [97], 2, 2⟩,
    some ⟨0, 1, PostingChain.ofPostings [⟨0, 1, 29813⟩] (List.pairwise_singleton _ _), []⟩, 0⟩

theorem rare_query : OrQuery eitherTree [absentTerm, rareTerm] :=
  ⟨rfl, rfl, Or.inl rfl⟩

theorem rare_idf_nonneg : ∀ term ∈ [absentTerm, rareTerm], 0 ≤ term.idf Real.log repeatedMeta := by
  intro term member
  simp only [List.mem_cons, List.not_mem_nil, or_false] at member
  have argument : (term.df : ℝ) ≤ corpusDocCount repeatedMeta := by
    rw [repeated_docCount]
    rcases member with rfl | rfl <;>
      norm_num [SearchTerm.df, SearchTerm.baseDf, absentTerm, rareTerm]
  exact (Real.log_pos (idf_argument repeatedMeta argument)).le

theorem rare_single : ∀ term ∈ [absentTerm, rareTerm], (term.chunks repeatedMeta).length ≤ 1 := by
  have runs : (postingRuns [⟨0, 1, 29813⟩]).length = 1 := by simp [postingRuns]
  intro term member
  simp only [List.mem_cons, List.not_mem_nil, or_false] at member
  rcases member with rfl | rfl
  · exact Nat.zero_le 1
  · simp [SearchTerm.chunks, rareTerm, PostingChain.chunks, PostingChain.ofPostings, runs]

/-! ### Exactness -/

section Exact

variable {log : R → R} {corpus : ScoringMeta R} {tree : Tree} {terms : List SearchTerm}

/-- **The WAND loop is exact** for every set of dead nodes and every `k` exactly when chunk bounds
are safe. -/
theorem wand_exact_iff_chunkBoundsSafe (docs : DocState) (query : OrQuery tree terms)
    (idf_nonneg : ∀ term ∈ terms, 0 ≤ term.idf log corpus) (mode : AccumulatorMode) (capacity : Nat)
    (forceFullSort : Bool) :
    (∀ (dead : Nat → Bool) (k : Nat), 1 ≤ k →
      let ctx := searchContext corpus (docs.markDead dead) tree terms k
      selectFinalTopK forceFullSort ctx.accepts k
          (scoreBaseWand log ctx terms (accumulatorInit mode capacity docs.nodeCount k)).2 =
        selectFinalTopK forceFullSort ctx.accepts k
          (scoreBaseExhaustive log ctx terms (accumulatorInit mode capacity docs.nodeCount k))) ↔
      ChunkBoundsSafe log corpus docs terms := by
  constructor
  · intro agrees first document later inside within other hidden
    by_contra above
    exact wand_differs_of_hidden query idf_nonneg document inside within hidden (not_le.mp above)
      mode capacity forceFullSort (agrees _ 1 le_rfl)
  · intro safe dead k positive ctx
    have matching := query.documents_matching corpus ctx.docs k
    have init := accumulatorInit_fits (R := R) mode capacity docs.nodeCount k
    have wand := scoreBaseWand_selection ctx rfl positive idf_nonneg matching
      (boundsSafe_of_chunks idf_nonneg safe dead k) (seededInit_tracks mode capacity 0)
      forceFullSort
    have exhaustive := scoreBaseExhaustive_selection log ctx matching init rfl
      forceFullSort
    refine (wand.mpr fun node member => ?_).trans exhaustive.symm
    exact above_of_mem_best (fun nodeId _ => fullScore_nonneg log ctx idf_nonneg nodeId) member

end Exact

/-- A lexeme of one document is searched exactly. -/
theorem wand_exact_rare : OrQuery eitherTree [absentTerm, rareTerm] ∧
    ∀ (dead : Nat → Bool) (k : Nat), 1 ≤ k →
      let ctx := searchContext repeatedMeta (repeatedDocs.markDead dead) eitherTree
        [absentTerm, rareTerm] k
      selectFinalTopK false ctx.accepts k (scoreBaseWand Real.log ctx [absentTerm, rareTerm]
          (accumulatorInit .hash 0 504 k)).2 =
        selectFinalTopK false ctx.accepts k (scoreBaseExhaustive Real.log ctx
          [absentTerm, rareTerm] (accumulatorInit .hash 0 504 k)) :=
  ⟨rare_query,
    (wand_exact_iff_chunkBoundsSafe repeatedDocs rare_query rare_idf_nonneg .hash 0 false).mpr
      (chunkBoundsSafe_of_single rare_idf_nonneg rare_single)⟩

/-- The document that has the word twice is missed: it comes after a full chunk of others. -/
theorem wand_misses_repeated :
    selectFinalTopK false repeatedContext.accepts 1 (scoreBaseWand Real.log repeatedContext
        [absentTerm, repeatedTerm] (accumulatorInit .hash 2 504 1)).2 ≠
      selectFinalTopK false repeatedContext.accepts 1 (scoreBaseExhaustive Real.log repeatedContext
        [absentTerm, repeatedTerm] (accumulatorInit .hash 2 504 1)) :=
  wand_misses repeatedContext rfl rfl repeated_idf_nonneg
    (repeated_query.documents_matching repeatedMeta repeatedDocs 1)
    (repeated_document.mpr (by norm_num)) (fun _ _ => Nat.zero_le _) repeated_bound.le
    (repeated_document.mpr (by norm_num)) repeated_better .hash 2 false

end TurboHybrid.Scan
