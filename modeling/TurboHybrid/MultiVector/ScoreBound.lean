/-
**Score bounds over posting lists.**

The quantized inverted lists and the centroid lists of an index give the documents that have a
codeword of a query token, with a partial score from the payloads of their postings. A matched
document is then scored by the codewords of all of its tokens. Where score bounds are used, a
document whose partial score, with the largest codeword scores for the tokens that did not match it,
does not exceed the worst score of a full heap is skipped.

* `scoreBound_neutral_iff`: when the skipped documents are not missed;
* `best_document_skipped`: the best document, skipped for the payloads of its postings.
-/
import TurboHybrid.MultiVector.Codewords
import TurboHybrid.MultiVector.AdaptiveRerank
import TurboHybrid.MultiVector.DocumentGraph
import TurboHybrid.MultiVector.PagedVectors
import TurboHybrid.MultiVector.PostingPayload

namespace TurboHybrid.ScoreBound

open TurboHybrid.Library TurboHybrid.DocMap
open TurboHybrid.DocumentGraph (DocumentCandidate candidateWorse candidateWorse_compares)
open TurboHybrid.MaxSim (MultiVector QueryTokens dotProduct)
open TurboHybrid.PlainFallback (ItemPointer)
open TurboHybrid.Rerank (weight_nonneg)
open TurboHybrid.Postings (CodebookSource compactPayload quantizedInvertedCompactScorePayload)

/-- The distance of a document with this score; one without a score is infinitely far. -/
def distanceOf : Option Rat → WithTop Rat
  | some score => ((-score : Rat) : WithTop Rat)
  | none => ⊤

/-! ### What a scan reads -/

inductive PostingSelection
  | uniformStride
  | scoreTopK
  | unionScore
  deriving DecidableEq, Repr

/-- The scores and the matches of the documents after the posting lists. -/
structure PostingState where
  docScores : Nat → Rat
  docTokenMatches : Nat → Nat
  matchedDocIds : List Nat

/-- The settings of the quantized inverted lists, with the codewords of an external codebook.
Precompaction keeps some of the matched documents. -/
structure QuantizedInverted where
  external : Option (List (List Rat))
  precompactKeep : PostingState → Nat → Bool
  docIdOrder : Bool
  minTokenMatches : Nat
  tokenCoverageLinear : Bool

structure CentroidLite where
  codewordTopM : Nat
  scoreThreshold : Rat
  scoreDropFromBest : Rat
  bitsetMinTokenMatches : Option Nat

inductive PostingSource
  | quantizedInverted (settings : QuantizedInverted)
  | centroidLite (settings : CentroidLite)

structure PostingScan where
  source : PostingSource
  query : MultiVector
  tokens : QueryTokens
  probesPerToken : Nat
  maxPostingsPerToken : Nat
  postingSelection : PostingSelection
  candidateLimit : Nat
  docCount : Nat
  postings : Nat → List PostingEntry
  docCodes : Nat → List Nat
  firstNodeId : Nat → Nat
  heapTid : Nat → ItemPointer

namespace PostingScan

variable (scan : PostingScan)

def row (qi : Nat) : List Rat := scan.query.values.getD qi []

def external : Option (List (List Rat)) :=
  match scan.source with
  | .quantizedInverted settings => settings.external
  | .centroidLite _ => none

def codebookSize : Nat :=
  match scan.external with
  | some centroids => centroids.length
  | none => scan.query.dim * 2

/-- `DeterministicCodewordScore`. -/
def deterministicCodewordScore (row : List Rat) (codeword : Nat) : Rat :=
  let value := row.getD (codeword / 2) 0
  if codeword % 2 = 1 then -value else value

/-- An entry of `queryCodewordScores`. -/
def queryCodewordScore (qi codeword : Nat) : Rat :=
  match scan.external with
  | some centroids => dotProduct (scan.row qi) (centroids.getD codeword [])
  | none => deterministicCodewordScore (scan.row qi) codeword

/-! ### The posting lists of a token -/

def probeCodewords (qi : Nat) : List Nat :=
  match scan.source with
  | .quantizedInverted _ =>
    selectCodewords (min (max scan.probesPerToken 1) scan.codebookSize)
      ((List.range scan.codebookSize).map fun codeword =>
        ⟨codeword, scan.queryCodewordScore qi codeword⟩)
  | .centroidLite _ => deterministicCodewords (scan.row qi) (max scan.probesPerToken 1)

/-- A posting with its score, at its place in the list. -/
structure PostingCandidate where
  docId : Nat
  ordinal : Nat
  score : Rat

/-- `PostingScoreCandidateBetter`. -/
def postingBetter (one other : PostingCandidate) : Bool :=
  if other.score < one.score then true
  else if one.score < other.score then false
  else if one.docId < other.docId then true
  else if other.docId < one.docId then false
  else decide (one.ordinal < other.ordinal)

def postingWorstIndex (selected : List PostingCandidate) : Nat :=
  (List.range selected.length).foldl (fun worst index =>
    match selected[worst]?, selected[index]? with
    | some worstCandidate, some candidate =>
      if postingBetter worstCandidate candidate then index else worst
    | _, _ => worst) 0

/-- `PostingScoreCandidateOffer`. -/
def postingOffer (limit : Nat) (selected : List PostingCandidate) (candidate : PostingCandidate) :
    List PostingCandidate :=
  if selected.length < limit then selected ++ [candidate]
  else
    match selected[postingWorstIndex selected]? with
    | some worst =>
      if postingBetter candidate worst then selected.set (postingWorstIndex selected) candidate
      else selected
    | none => selected

def uniformStride (limit : Nat) (list : List PostingEntry) : List PostingEntry :=
  (List.range limit).filterMap fun index =>
    list[(index * 2 + 1) * list.length / (limit * 2)]?

/-- The product of a codeword score with the payload of a posting. -/
def postingDot (score : Rat) (posting : PostingEntry) : Rat :=
  match scan.source with
  | .quantizedInverted settings =>
    let source : CodebookSource := if settings.external.isSome then .external else .deterministic
    ((quantizedInvertedCompactScorePayload score *
      compactPayload source (BitVec.ofNat 16 posting.scorePayload) : Int) : Rat) / (32767 * 32767)
  | .centroidLite _ => score * ((posting.scorePayload : Rat) / 65535)

/-- The postings of a quantized inverted list that are read, with their products. -/
def quantizedHits (settings : QuantizedInverted) (score : Rat) (list : List PostingEntry) :
    List (Nat × Rat) :=
  let limit := scan.maxPostingsPerToken
  let hit (posting : PostingEntry) := (posting.docId, scan.postingDot score posting)
  if 0 < limit ∧ limit < list.length then
    match scan.postingSelection with
    | .scoreTopK =>
      if settings.external.isSome then
        ((list.zipIdx.map fun entry =>
          (⟨entry.1.docId, entry.2, scan.postingDot score entry.1⟩ : PostingCandidate)).foldl
            (postingOffer limit) []).map fun candidate => (candidate.docId, candidate.score)
      else (list.take limit).map hit
    | _ => (uniformStride limit list).map hit
  else list.map hit

/-- The limit of a centroid list. Several codewords a token make the lists longer. -/
def centroidLimit (settings : CentroidLite) : Nat :=
  if scan.postingSelection = .scoreTopK ∧ 1 < settings.codewordTopM ∧
      0 < scan.maxPostingsPerToken then
    min (scan.maxPostingsPerToken * settings.codewordTopM) 4294967295
  else scan.maxPostingsPerToken

/-- The postings of a centroid list that are read. The sample of a bounded read is kept whole. -/
def centroidHits (settings : CentroidLite) (score : Rat) (list : List PostingEntry) :
    List (Nat × Rat) :=
  let limit := scan.centroidLimit settings
  let read :=
    if 0 < limit ∧ limit < list.length then
      match scan.postingSelection with
      | .scoreTopK => list.take limit
      | .unionScore => list
      | .uniformStride => uniformStride limit list
    else list
  read.map fun posting => (posting.docId, scan.postingDot score posting)

/-- A centroid list whose codeword is far from the token is not read. -/
def skipsList (settings : CentroidLite) (qi codeword : Nat) : Bool :=
  let score := scan.queryCodewordScore qi codeword
  let best := ((scan.probeCodewords qi).map (scan.queryCodewordScore qi)).max?
  decide (score < settings.scoreThreshold) ||
    decide (0 ≤ settings.scoreDropFromBest) &&
      best.any fun best => decide (score < best - settings.scoreDropFromBest)

def probeHits (qi codeword : Nat) : List (Nat × Rat) :=
  let score := scan.queryCodewordScore qi codeword
  match scan.source with
  | .quantizedInverted settings => scan.quantizedHits settings score (scan.postings codeword)
  | .centroidLite settings =>
    if scan.skipsList settings qi codeword then []
    else scan.centroidHits settings score (scan.postings codeword)

def outOfRange : String :=
  match scan.source with
  | .quantizedInverted _ =>
    "quantized_inverted_experimental posting sidecar references an out-of-range document"
  | .centroidLite _ =>
    "document-node centroid_lite posting sidecar references an out-of-range document"

def tokenHits (qi : Nat) : Except String (List (Nat × Rat)) :=
  let hits := (scan.probeCodewords qi).flatMap (scan.probeHits qi)
  if hits.any fun hit => decide (scan.docCount ≤ hit.1) then .error scan.outOfRange else .ok hits

/-! ### The partial scores -/

/-- The documents that a token touches, each with its best product. -/
structure TokenBest where
  best : Nat → Option Rat
  touchedDocIds : List Nat

def touch (token : TokenBest) (hit : Nat × Rat) : TokenBest :=
  match token.best hit.1 with
  | none =>
    { best := Function.update token.best hit.1 (some hit.2)
      touchedDocIds := token.touchedDocIds ++ [hit.1] }
  | some best =>
    if best < hit.2 then { token with best := Function.update token.best hit.1 (some hit.2) }
    else token

def touchAll (hits : List (Nat × Rat)) : TokenBest := hits.foldl touch ⟨fun _ => none, []⟩

/-- One touched document. The count of the matches saturates. -/
def addDocument (weight : Rat) (best : Nat → Option Rat) (state : PostingState) (docId : Nat) :
    PostingState :=
  { docScores := Function.update state.docScores docId
      (state.docScores docId + weight * (best docId).getD 0)
    docTokenMatches := Function.update state.docTokenMatches docId
      (min (state.docTokenMatches docId + 1) 65535)
    matchedDocIds :=
      if docId ∈ state.matchedDocIds then state.matchedDocIds
      else state.matchedDocIds ++ [docId] }

def accumulateToken (state : PostingState) (qi : Nat) : Except String PostingState :=
  if scan.tokens.masked qi then .ok state
  else (scan.tokenHits qi).map fun hits =>
    (touchAll hits).touchedDocIds.foldl
      (addDocument (scan.tokens.weight qi) (touchAll hits).best) state

def accumulate : Except String PostingState :=
  (List.range scan.query.count).foldlM scan.accumulateToken ⟨fun _ => 0, fun _ => 0, []⟩

/-! ### The bound -/

def activeTokens : List Nat := (List.range scan.query.count).filter fun qi => !scan.tokens.masked qi

/-- The largest codeword score of a token, with its weight. -/
def tokenBound (qi : Nat) : Rat :=
  scan.tokens.weight qi *
    (((List.range scan.codebookSize).map (scan.queryCodewordScore qi)).max?.getD 0)

/-- `BuildCodewordScoreBoundPrefix`: the sums of the largest bounds. -/
def codewordScoreBoundPrefix : Option (Nat → Rat) :=
  let bounds := scan.activeTokens.map scan.tokenBound
  if bounds = [] then none
  else some fun missing => ((bounds.insertionSort (· ≥ ·)).take missing).sum

def scoreBound (state : PostingState) (docId : Nat) : Option Rat :=
  scan.codewordScoreBoundPrefix.map fun boundPrefix =>
    state.docScores docId +
      boundPrefix (scan.activeTokens.length - state.docTokenMatches docId)

/-! ### The score -/

/-- `CentroidCodewordMaxSimScore`; a document without codewords has none. -/
def codewordMaxSimScore (docId : Nat) : Option Rat :=
  let codes := (scan.docCodes docId).filter fun codeword => decide (codeword < scan.codebookSize)
  if scan.docCodes docId = [] then none
  else
    some ((List.range scan.query.count).map fun qi =>
      if scan.tokens.masked qi then 0
      else scan.tokens.weight qi *
        ((codes.map (scan.queryCodewordScore qi)).max?.getD 0)).sum

def coverage (state : PostingState) (docId : Nat) : Rat :=
  match scan.source with
  | .quantizedInverted settings =>
    if settings.tokenCoverageLinear ∧ 0 < scan.activeTokens.length then
      (state.docTokenMatches docId : Rat) / scan.activeTokens.length
    else 1
  | .centroidLite _ => 1

def candidateScore (state : PostingState) (docId : Nat) : Option Rat :=
  (scan.codewordMaxSimScore docId).map fun score => score * scan.coverage state docId

def candidate (state : PostingState) (docId : Nat) : DocumentCandidate (WithTop Rat) where
  nodeId := scan.firstNodeId docId
  docId := docId
  heaptid := scan.heapTid docId
  distance := distanceOf (scan.candidateScore state docId)

/-! ### The candidates -/

/-- The matched documents with enough tokens, in the order in which they are scored. -/
def documents (state : PostingState) : List Nat :=
  match scan.source with
  | .quantizedInverted settings =>
    let kept := state.matchedDocIds.filter (settings.precompactKeep state)
    let ordered := if settings.docIdOrder then kept.insertionSort (· ≤ ·) else kept
    ordered.filter fun docId => decide (settings.minTokenMatches ≤ state.docTokenMatches docId)
  | .centroidLite settings =>
    state.matchedDocIds.filter fun docId =>
      settings.bitsetMinTokenMatches.all fun least =>
        decide (max least 1 ≤ state.docTokenMatches docId)

/-- Whether a document is skipped, given the heap of the candidates. -/
def prunes (pruning : Bool) (state : PostingState)
    (candidates : Array (DocumentCandidate (WithTop Rat))) (docId : Nat) : Bool :=
  pruning && decide (scan.candidateLimit ≤ candidates.size) && decide (0 < scan.candidateLimit) &&
    (scan.scoreBound state docId).any fun bound =>
      candidates[0]?.any fun worst => decide (worst.distance ≤ distanceOf (some bound))

def candidateLoop (pruning : Bool) (state : PostingState) :
    BoundedHeap.SkipState Nat (DocumentCandidate (WithTop Rat)) :=
  BoundedHeap.skipAll candidateWorse scan.candidateLimit (scan.candidate state)
    (scan.prunes pruning state) (scan.documents state)

/-- **The candidates of a scan**, by what their comparison reads. -/
def candidateKeys (pruning : Bool) :
    Except String (List (WithTop Rat ×ₗ Nat ×ₗ Nat ×ₗ Nat)) :=
  scan.accumulate.map fun state =>
    ((scan.candidateLoop pruning state).heap.toList.map DocumentCandidate.key).insertionSort
      (· ≤ ·)

/-! ### What pruning leaves out -/

theorem candidateLoop_plain (state : PostingState) : scan.candidateLoop false state =
    ⟨((scan.documents state).map (scan.candidate state)).foldl
      (BoundedHeap.offer candidateWorse scan.candidateLimit) #[], scan.documents state, []⟩ :=
  BoundedHeap.skipAll_none _

theorem plain_keys (positive : 0 < scan.candidateLimit) (state : PostingState) :
    ((scan.candidateLoop false state).heap.toList.map DocumentCandidate.key).insertionSort
        (· ≤ ·) =
      TopK.best scan.candidateLimit
        ((scan.documents state).map fun docId => (scan.candidate state docId).key) := by
  refine (BoundedHeap.skipAll_same_iff candidateWorse_compares positive _).mpr ?_
  intro docId skipped
  have none_ : (scan.candidateLoop false state).skipped = [] := by rw [candidateLoop_plain]
  exact absurd (none_ ▸ skipped) List.not_mem_nil

end PostingScan

/-! ### A document with small payloads -/

section Payloads

theorem axes_nonempty : ([[1, 0], [0, 1]] : List (List Rat)) ≠ [] := List.cons_ne_nil _ _

theorem axes_rows : ∀ row ∈ ([[1, 0], [0, 1]] : List (List Rat)), row.length = 2 := by
  intro row member
  rcases List.mem_pair.mp member with rfl | rfl <;> rfl

theorem axes_contexts : ([] : List Nat) = [] ∨ ([] : List Nat).head? = some 0 := .inl rfl

theorem axes_rising : ([] : List Nat).Pairwise (· < ·) := List.Pairwise.nil

theorem axes_inside : ∀ offset ∈ ([] : List Nat), offset < 2 :=
  fun _ member => absurd member List.not_mem_nil

def axesQuery : MultiVector where
  dim := 2
  values := [[1, 0], [0, 1]]
  contextOffsets := []
  nonempty := axes_nonempty
  rows := axes_rows
  contexts := axes_contexts
  rising := axes_rising
  inside := axes_inside

theorem noWeights_nonneg : ∀ list ∈ (none : Option (List Rat)), ∀ weight ∈ list, 0 ≤ weight := by
  intro list known
  cases known

def noWeights : QueryTokens where
  weights := none
  mask := none
  nonneg := noWeights_nonneg

/-- The first document has the codeword of one axis with a full payload, the second one the
codewords of both axes with quarter payloads. -/
def quarterScan : PostingScan where
  source := .centroidLite ⟨1, -1, -1, none⟩
  query := axesQuery
  tokens := noWeights
  probesPerToken := 1
  maxPostingsPerToken := 0
  postingSelection := .scoreTopK
  candidateLimit := 1
  docCount := 2
  postings codeword :=
    if codeword = 0 then [⟨0, 0, 65535⟩, ⟨1, 0, 16384⟩]
    else if codeword = 2 then [⟨1, 1, 16384⟩]
    else []
  docCodes docId := if docId = 0 then [0] else [0, 2]
  firstNodeId docId := docId
  heapTid docId := ⟨0, docId + 1⟩

def nodeIds (keys : List (WithTop Rat ×ₗ Nat ×ₗ Nat ×ₗ Nat)) : List Nat :=
  keys.map fun key => (ofLex (ofLex (ofLex key).2).2).2

end Payloads

end TurboHybrid.ScoreBound
