/-
**The bound of a chunk as the writers leave it.**

Both writers keep the largest frequency of a chunk, and with precomputed norms the largest norm and
its factor. These maxima may come from different postings.

* `iteratorChunk_written`: what an iterator holds of a written tuple is the chunk of its postings;
* `iteratorUpperBound_covers`: its bound covers every posting of the chunk, in both modes.
-/
import TurboHybrid.Scan.Frontier
import TurboHybrid.Store.Writer
import Mathlib.Analysis.SpecialFunctions.Log.Basic

set_option linter.unusedSectionVars false

namespace TurboHybrid.Scan

open TurboHybrid.Index TurboHybrid.Store

variable {R : Type} [Field R] [LinearOrder R] [IsStrictOrderedRing R]

/-! ### Written tuples -/

/-- A tuple that the build makes of a part of its terms, or the merge of decoded postings. -/
def WrittenTuple (options : WriterOptions R) (docs : DocTotals) (termId chunkNo : Nat)
    (run : ChunkTerms) (tuple : PostingsTuple) : Prop :=
  (∃ terms startIndex endIndex, (terms.drop startIndex).take (endIndex - startIndex) = run.terms ∧
    writePostingsChunkTuple (quantizeTfNorm options docs) options.precomputeTfNorm termId chunkNo
      terms startIndex endIndex = .ok tuple) ∨
  (∃ postings : List Posting, postings.map (fun posting => ⟨posting.nodeId, posting.tf⟩) = run.terms ∧
    writePostingsChunkData (quantizeTfNorm options docs) options.precomputeTfNorm termId chunkNo
      postings = .ok tuple)

def writtenScoreFactor (options : WriterOptions R) (tuple : PostingsTuple) : R :=
  if tuple.tfNorm then max (options.k1 + 1) 1 * ((tuple.maxTfNormQ16 : R) / uint16Max) else 0

/-- What an iterator holds of a tuple and its decoded postings. -/
def iteratorChunk (options : WriterOptions R) (tuple : PostingsTuple) (postings : List Posting) :
    Chunk R :=
  loadedChunk
    { postings
      lastNodeId := tuple.lastNodeId
      maxTf := tuple.maxTf
      maxTfNormQ16 := tuple.maxTfNormQ16
      maxScoreFactor := writtenScoreFactor options tuple }

/-- The parameters of an index, as its options allow them. -/
structure ValidParameters (options : WriterOptions R) : Prop where
  k1_pos : 0 < options.k1
  b_nonneg : 0 ≤ options.b
  b_le_one : options.b ≤ 1

/-- The metadata of a build with some documents in the delta. -/
def writtenMeta (options : WriterOptions R) (valid : ValidParameters options) (docs : DocTotals)
    (deltaDocCount deltaTotalDocLen : Nat) : ScoringMeta R where
  docCount := docs.docCount
  totalDocLen := docs.totalDocLen
  deltaDocCount := deltaDocCount
  deltaTotalDocLen := deltaTotalDocLen
  k1 := options.k1
  b := options.b
  tfNorm := options.precomputeTfNorm
  k1_nonneg := valid.k1_pos.le
  b_nonneg := valid.b_nonneg
  b_le_one := valid.b_le_one

section Written

variable {options : WriterOptions R} {docs : DocTotals} {termId chunkNo : Nat} {run : ChunkTerms}
  {tuple : PostingsTuple}

theorem WrittenTuple.encoded (written : WrittenTuple options docs termId chunkNo run tuple) :
    encodePostingsTuple (quantizeTfNorm options docs) options.precomputeTfNorm termId chunkNo
      run.terms = .ok tuple := by
  rcases written with ⟨terms, startIndex, endIndex, part, written⟩ | ⟨postings, same, written⟩
  · rw [← part]
    exact written
  · rw [← same]
    exact written

theorem encoded_maxima {quantize : Nat → Nat → Fin (2 ^ 16)} {tfNorm : Bool}
    {terms : List TermPosting}
    (encoded : encodePostingsTuple quantize tfNorm termId chunkNo terms = .ok tuple) :
    tuple.maxTf = maxOf ((storedPostings quantize tfNorm terms).map Posting.tf) ∧
      tuple.tfNorm = tfNorm ∧
      tuple.maxTfNormQ16 = if tfNorm then
        maxOf ((storedPostings quantize tfNorm terms).map Posting.tfNormQ16) else 0 := by
  unfold encodePostingsTuple at encoded
  dsimp only at encoded
  cases pairs : encodePairs (chooseEncoding tfNorm
      ((terms.head?.map TermPosting.nodeId).getD 0) terms)
      ((terms.head?.map TermPosting.nodeId).getD 0) terms with
  | error error =>
    rw [pairs] at encoded
    cases encoded
  | ok bytes =>
    rw [pairs] at encoded
    cases encoded
    unfold storedPostings chunkTuple
    rw [List.map_map, List.map_map]
    refine ⟨rfl, rfl, ?_⟩
    cases tfNorm <;> rfl

/-- **What an iterator holds** of a written tuple is the chunk of its postings. -/
theorem iteratorChunk_written (valid : ValidParameters options)
    (written : WrittenTuple options docs termId chunkNo run tuple) (legacyPostings : List Posting)
    (deltaDocCount deltaTotalDocLen : Nat) :
    ∃ postings,
      decodePostingsTuple tuple (postingsTupleSize tuple.payloadBytes) legacyPostings =
        some postings ∧
      ∃ lastNodeId, iteratorChunk options tuple postings =
        loadedChunk { writePostingsChunk
          (writtenMeta options valid docs deltaDocCount deltaTotalDocLen) postings with
            lastNodeId := lastNodeId } := by
  have encoded := written.encoded
  obtain ⟨same, encoded', decoded⟩ := decode_encode (quantizeTfNorm options docs)
    options.precomputeTfNorm termId chunkNo run legacyPostings
  obtain ⟨other, -, encoded'', -, -, -, -, bytes, -⟩ := encodePostingsTuple_spec
    (quantizeTfNorm options docs) options.precomputeTfNorm termId chunkNo run
  rw [encoded] at encoded' encoded''
  cases encoded'
  cases encoded''
  rw [← bytes] at decoded
  obtain ⟨maxTf, mode, maxTfNorm⟩ := encoded_maxima encoded
  refine ⟨_, decoded, tuple.lastNodeId, ?_⟩
  unfold iteratorChunk writtenScoreFactor writePostingsChunk
  rw [maxTf, mode, maxTfNorm]
  refine congrArg loadedChunk ?_
  show Chunk.mk _ _ _ _ _ = Chunk.mk _ _ _ _ _
  congr 1
  · show (if options.precomputeTfNorm then _ else _) = if options.precomputeTfNorm then _ else _
    cases options.precomputeTfNorm <;> rfl

end Written

/-- **The bound an iterator reads off a chunk covers its postings**: for either writer, with norms
or with document lengths, whatever the average length and the documents that came after. -/
theorem iteratorUpperBound_covers (options : WriterOptions R) (valid : ValidParameters options)
    (log_nonneg : ∀ value, 1 ≤ value → 0 ≤ options.log value) (docs : DocTotals)
    {termId chunkNo : Nat} {run : ChunkTerms} {tuple : PostingsTuple}
    (written : WrittenTuple options docs termId chunkNo run tuple) (legacyPostings : List Posting) :
    ∃ postings,
      decodePostingsTuple tuple (postingsTupleSize tuple.payloadBytes) legacyPostings =
        some postings ∧
      ∀ (deltaDocCount deltaTotalDocLen df : Nat), df ≤ docs.docCount + deltaDocCount →
        ∀ avgDocLen : R, 0 < avgDocLen → ∀ posting ∈ postings, ∀ docLen, 1 ≤ docLen →
          let corpus := writtenMeta options valid docs deltaDocCount deltaTotalDocLen
          let idf := termIdf options.log corpus df
          postingScoreDecoded corpus idf avgDocLen posting docLen ≤
            chunkUpperBound corpus idf avgDocLen (iteratorChunk options tuple postings) := by
  obtain ⟨postings, decoded, -⟩ := iteratorChunk_written valid written legacyPostings 0 0
  refine ⟨postings, decoded, fun deltaDocCount deltaTotalDocLen df known avgDocLen _ posting member
    docLen nonempty => ?_⟩
  obtain ⟨same, decoded', lastNodeId, chunk⟩ :=
    iteratorChunk_written valid written legacyPostings deltaDocCount deltaTotalDocLen
  rw [decoded] at decoded'
  cases decoded'
  intro corpus idf
  have fits : (df : R) ≤ corpusDocCount corpus := by
    refine le_max_of_le_left ?_
    show (df : R) ≤ (docs.docCount : R) + deltaDocCount
    exact_mod_cast known
  have idf_nonneg : 0 ≤ idf := log_nonneg _ (idf_argument corpus fits).le
  have bound : chunkUpperBound corpus idf avgDocLen (iteratorChunk options tuple postings) =
      chunkUpperBound corpus idf avgDocLen (writePostingsChunk corpus postings) := by
    rw [chunk, ← loadedChunk_upperBound]
    rfl
  rw [bound]
  exact postingScoreDecoded_le_upperBound idf_nonneg member nonempty

/-- The options of an index with the default parameters and precomputed norms. -/
noncomputable def normOptions : WriterOptions ℝ where
  useWal := true
  precomputeTfNorm := true
  k1 := 1.2
  b := 0.75
  impactHead := false
  impactMinDf := 1024
  impactHeadK := 2048
  lround := round
  log := Real.log

theorem normOptions_valid : ValidParameters normOptions :=
  ⟨by norm_num [normOptions], by norm_num [normOptions], by norm_num [normOptions]⟩

/-- A document with five words, two of them the term, and one with a single word. -/
def twoPostings : ChunkTerms where
  terms := [⟨0, 2⟩, ⟨1, 1⟩]
  nonempty := List.cons_ne_nil _ _
  short := maxPostingsPerChunk_eq ▸ by decide
  sorted := by decide
  nodeFits := by decide
  tfFits := by decide

theorem iteratorUpperBound_covers_two :
    ∃ tuple postings,
      decodePostingsTuple tuple (postingsTupleSize tuple.payloadBytes) [] = some postings ∧
      ∀ posting ∈ postings,
        postingScoreDecoded (writtenMeta normOptions normOptions_valid ⟨2, 6, [5, 1]⟩ 0 0)
            (termIdf Real.log (writtenMeta normOptions normOptions_valid ⟨2, 6, [5, 1]⟩ 0 0) 2) 3
            posting 5 ≤
          chunkUpperBound (writtenMeta normOptions normOptions_valid ⟨2, 6, [5, 1]⟩ 0 0)
            (termIdf Real.log (writtenMeta normOptions normOptions_valid ⟨2, 6, [5, 1]⟩ 0 0) 2) 3
            (iteratorChunk normOptions tuple postings) := by
  obtain ⟨tuple, encoded, -⟩ := decode_encode (quantizeTfNorm normOptions ⟨2, 6, [5, 1]⟩) true 0 0
    twoPostings []
  obtain ⟨postings, decoded, covered⟩ := iteratorUpperBound_covers normOptions normOptions_valid
    (fun _ => Real.log_nonneg) ⟨2, 6, [5, 1]⟩
    (Or.inl ⟨twoPostings.terms, 0, 2, rfl, encoded⟩ : WrittenTuple _ _ 0 0 twoPostings tuple) []
  exact ⟨tuple, postings, decoded, fun posting member =>
    covered 0 0 2 (by decide) 3 three_pos posting member 5 (by decide)⟩

end TurboHybrid.Scan
