/-
**The exact rerank of the first candidates.**

The first candidates of a multi-vector scan are scored again by the values of their rows, which
come from the sidecar or from the table. When fewer results are wanted than are scored, the query
tokens are visited by descending weighted norm, and a document is abandoned with an upper bound of
its score once that bound falls below the worst of the best scores so far.

* `queryNormOrder_perm`: the visiting order holds every query token once;
* `candidateHeapSort_keys`: the final sort orders the candidates by their keys.
-/
import TurboHybrid.MultiVector.PlainFallback
import Mathlib.Algebra.Order.Field.Basic
import Mathlib.Data.Rat.Cast.Order

set_option linter.unusedSectionVars false

namespace TurboHybrid.Rerank

open TurboHybrid.MaxSim TurboHybrid.PlainFallback

variable {K : Type*} [Field K] [LinearOrder K] {Row : Type}

/-! ### Candidates -/

/-- A candidate of a multi-vector scan; `docId` is there where the candidate has one. -/
structure Candidate (K : Type*) where
  heaptid : ItemPointer
  nodeId : Nat
  docId : Option Nat
  distance : K
  similarity : K
  exactScored : Bool

def denseCandidateCompare (one other : Candidate K) : Ordering :=
  if one.distance < other.distance then .lt
  else if other.distance < one.distance then .gt
  else if one.heaptid.block < other.heaptid.block then .lt
  else if other.heaptid.block < one.heaptid.block then .gt
  else if one.heaptid.offset < other.heaptid.offset then .lt
  else if other.heaptid.offset < one.heaptid.offset then .gt
  else compare one.nodeId other.nodeId

def candidateHeapSort (candidates : List (Candidate K)) : List (Candidate K) :=
  candidates.insertionSort fun one other => denseCandidateCompare one other ≠ .gt

def Candidate.key (candidate : Candidate K) : K ×ₗ Nat ×ₗ Nat ×ₗ Nat :=
  toLex (candidate.distance, toLex (candidate.heaptid.block,
    toLex (candidate.heaptid.offset, candidate.nodeId)))

theorem compare_ne_gt_iff {one other : Candidate K} :
    denseCandidateCompare one other ≠ .gt ↔ one.key ≤ other.key := by
  simp only [Candidate.key, Prod.Lex.toLex_le_toLex, denseCandidateCompare]
  split_ifs <;> simp only [ne_eq, Nat.compare_eq_gt] <;> grind

theorem candidateHeapSort_keys (candidates : List (Candidate K)) :
    (candidateHeapSort candidates).map Candidate.key =
      (candidates.map Candidate.key).insertionSort (· ≤ ·) := by
  rw [candidateHeapSort]
  apply List.map_insertionSort
  intro one _ other _
  exact compare_ne_gt_iff

/-! ### Norms -/

section Norms

variable (sqrt : K → K)

def tokenNorm (row : List Rat) : K := sqrt (dotProduct row row : Rat)

def weightedNorm (query : MultiVector) (tokens : QueryTokens) (qi : Nat) : K :=
  if tokens.masked qi then 0
  else tokenNorm sqrt (query.values.getD qi []) * (tokens.weight qi : Rat)

def docMaxTokenNorm (doc : MultiVector) : K :=
  doc.values.foldl
    (fun maxValue row => if maxValue < tokenNorm sqrt row then tokenNorm sqrt row else maxValue) 0

end Norms

/-! ### The visiting order -/

section Order

variable (norms : Nat → K)

/-- The token at a position goes before the one that is best so far. -/
def aheadOf (order : List Nat) (best j : Nat) : Bool :=
  match order[best]?, order[j]? with
  | some bestQi, some jQi =>
    decide (norms bestQi < norms jQi ∨ norms jQi = norms bestQi ∧ jQi < bestQi)
  | _, _ => false

def selectBest (order : List Nat) (i : Nat) : Nat :=
  (List.range' (i + 1) (order.length - (i + 1))).foldl
    (fun best j => if aheadOf norms order best j then j else best) i

def swapEntries (order : List Nat) (i best : Nat) : List Nat :=
  match order[i]?, order[best]? with
  | some first, some second => (order.set i second).set best first
  | _, _ => order

/-- The selection sort of the query tokens by descending norm. -/
def queryNormOrder (count : Nat) : List Nat :=
  (List.range (count - 1)).foldl (fun order i => swapEntries order i (selectBest norms order i))
    (List.range count)

theorem swapEntries_perm (order : List Nat) (i best : Nat) :
    (swapEntries order i best).Perm order := by
  rw [swapEntries]
  split
  · rename_i first second here there
    obtain ⟨inside, rfl⟩ := List.getElem?_eq_some_iff.mp here
    obtain ⟨inside', rfl⟩ := List.getElem?_eq_some_iff.mp there
    exact List.set_set_perm inside inside'
  · exact List.Perm.refl order

theorem queryNormOrder_perm (count : Nat) :
    (queryNormOrder norms count).Perm (List.range count) := by
  rw [queryNormOrder]
  apply List.foldlRecOn (motive := fun order : List Nat => order.Perm (List.range count))
  · exact List.Perm.refl _
  · exact fun order perm i _ => (swapEntries_perm order i _).trans perm

/-- The sums of the norms from each position of the order to its end. -/
def suffixNorms (order : List Nat) : List K :=
  order.scanr (fun qi sum => sum + norms qi) 0

end Order

/-! ### The bounded score -/

/-- The score of a document, or the bound at which it was abandoned. -/
structure BoundedScore (K : Type*) where
  score : K
  pruned : Bool

section Bounded

variable (query doc : MultiVector) (tokens : QueryTokens) (docMaxNorm : K) (threshold : Option K)

/-- The tokens of a visiting order, each with the sum of the norms after it. -/
def boundedFrom (sum : K) : List (Nat × K) → BoundedScore K
  | [] => ⟨sum, false⟩
  | (qi, suffix) :: rest =>
    if tokens.masked qi ∨ tokens.weight qi = 0 then boundedFrom sum rest
    else
      let sum := sum + (tokens.weight qi * bestDot (query.values.getD qi []) doc.values : Rat)
      let upperBound := sum + docMaxNorm * suffix
      if rest ≠ [] ∧ threshold.any (fun worst => decide (upperBound < worst)) then
        ⟨upperBound, true⟩
      else boundedFrom sum rest

end Bounded

/-- **The adaptive score** of a document. -/
def maxSimAdaptiveBounded (sqrt : K → K) (query doc : MultiVector) (tokens : QueryTokens)
    (threshold : Option K) : BoundedScore K :=
  let norms := weightedNorm sqrt query tokens
  let order := queryNormOrder norms query.count
  boundedFrom query doc tokens (docMaxTokenNorm sqrt doc) threshold 0
    (order.zip (suffixNorms norms order).tail)

/-! ### The best scores so far -/

/-- The best scores so far and, once there are enough of them, the worst of them. -/
structure TopScores (K : Type*) where
  scores : List K
  threshold : Option K

namespace TopScores

def minIndex (scores : List K) : Nat :=
  (List.range' 1 (scores.length - 1)).foldl
    (fun minIndex i => if scores.getD i 0 < scores.getD minIndex 0 then i else minIndex) 0

/-- The threshold is the least score once there are `topK` of them. -/
def settle (topK : Nat) (scores : List K) (threshold : Option K) : TopScores K where
  scores := scores
  threshold := if topK ≤ scores.length then some (scores.getD (minIndex scores) 0) else threshold

/-- `AdaptiveTopKOffer`. -/
def offer (topK : Nat) (top : TopScores K) (score : K) : TopScores K :=
  if top.scores.length < topK then settle topK (top.scores ++ [score]) top.threshold
  else if top.threshold.all (fun worst => decide (worst < score)) then
    settle topK (top.scores.set (minIndex top.scores) score) top.threshold
  else top

end TopScores

/-! ### The rerank -/

/-- `PgturbohybridMultiVectorExactRerankMode`. -/
inductive ExactRerankMode where
  | off
  | topk
  | adaptive
  deriving DecidableEq, Repr

structure Sidecar where
  docCount : Nat
  docVector : Nat → Option MultiVector

/-- All that one rerank reads. The sidecar is there where it can be used. -/
structure RerankScan (Row : Type) extends PlainScan Row where
  exactRerank : ExactRerankMode
  exactRerankK : Int
  graphFinalK : Int
  tupleTargetRows : Option Int
  limitOverride : Int
  sidecar : Option Sidecar

inductive DocumentLookup where
  | found (doc : MultiVector)
  | missing
  | stop

inductive RerankError where
  | differentDimensions (queryDim docDim : Nat)
  deriving DecidableEq

/-- A candidate after its turn, whether it has a new score and whether that is only a bound. -/
structure Reranked (K : Type*) where
  candidate : Candidate K
  rescored : Bool
  abandoned : Bool

def Reranked.kept (candidate : Candidate K) : Reranked K := ⟨candidate, false, false⟩

namespace RerankScan

variable (scan : RerankScan Row)

/-- `ExactRerankLimit`. -/
def exactRerankLimit (count : Nat) : Nat :=
  if scan.exactRerank = .off then 0
  else (min (min (count : Int) multivectorDocCandidateK) scan.exactRerankK).toNat

def limit (count : Nat) : Nat :=
  if 0 < scan.limitOverride ∧ scan.exactRerank ≠ .off then
    (min (count : Int) scan.limitOverride).toNat
  else scan.exactRerankLimit count

def adaptiveTopK (limit : Nat) : Nat :=
  if limit = 0 then 0
  else
    let topK :=
      if 0 < scan.graphFinalK then scan.graphFinalK
      else if scan.tupleTargetRows.any (fun rows => decide (0 < rows)) then
        scan.tupleTargetRows.getD 0
      else limit
    (min (limit : Int) (max 1 topK)).toNat

def adaptiveReady (limit : Nat) : Prop :=
  scan.exactRerank = .adaptive ∧ ¬scan.index.contextLevel ∧ 0 < scan.adaptiveTopK limit ∧
    scan.adaptiveTopK limit < limit

instance (limit : Nat) : Decidable (scan.adaptiveReady limit) :=
  inferInstanceAs (Decidable (_ ∧ _))

/-- `table_tuple_fetch_row_version`: the tuple at a line pointer, where the snapshot sees it. -/
def fetchRowVersion (tid : ItemPointer) : Option (HeapTuple Row) :=
  scan.tableScan.find? fun tuple => tuple.tid = tid

def sidecarDocument (candidate : Candidate K) : Option MultiVector :=
  scan.sidecar.bind fun sidecar =>
    candidate.docId.bind fun docId =>
      if docId < sidecar.docCount then sidecar.docVector docId else none

def heapDocument (tid : ItemPointer) : DocumentLookup :=
  if scan.PlainColumn then
    match scan.fetchRowVersion tid with
    | some tuple =>
      match scan.desc.getattr scan.index.denseAttno tuple.row with
      | some doc => .found doc
      | none => .missing
    | none => .missing
  else .stop

def document (candidate : Candidate K) : DocumentLookup :=
  match scan.sidecarDocument candidate with
  | some doc => .found doc
  | none => scan.heapDocument candidate.heaptid

def rescored (candidate : Candidate K) (score : K) : Candidate K :=
  { candidate with
    distance := -score
    similarity := if 0 < scan.queryWeightSum then score / (scan.queryWeightSum : Rat) else 0
    exactScored := true }

section Rerank

variable (sqrt : K → K) (limit : Nat)

/-- The score of a document under the best scores so far. -/
def documentScore (top : TopScores K) (doc : MultiVector) : BoundedScore K :=
  if scan.adaptiveReady limit then
    maxSimAdaptiveBounded sqrt scan.query doc scan.queryTokens top.threshold
  else ⟨(scan.exactMaxsim doc : Rat), false⟩

def topAfter (top : TopScores K) (score : BoundedScore K) : TopScores K :=
  if scan.adaptiveReady limit ∧ ¬score.pruned then
    top.offer (scan.adaptiveTopK limit) score.score
  else top

def rerankFrom (top : TopScores K) : List (Candidate K) → Except RerankError (List (Reranked K))
  | [] => .ok []
  | candidate :: rest =>
    if candidate.exactScored then
      (rerankFrom top rest).map (.kept candidate :: ·)
    else
      match scan.document candidate with
      | .stop => .ok ((candidate :: rest).map .kept)
      | .missing => (rerankFrom top rest).map (.kept candidate :: ·)
      | .found doc =>
        if scan.query.dim ≠ doc.dim then .error (.differentDimensions scan.query.dim doc.dim)
        else
          let score := scan.documentScore sqrt limit top doc
          (rerankFrom (scan.topAfter limit top score) rest).map
            (⟨scan.rescored candidate score.score, true, score.pruned⟩ :: ·)

end Rerank

/-- **`ExactHeapRerank`**: the first candidates have their turn, the others stay. -/
def exactHeapRerank (sqrt : K → K) (candidates : List (Candidate K)) :
    Except RerankError (List (Reranked K)) :=
  let limit := scan.limit candidates.length
  (scan.rerankFrom sqrt limit ⟨[], none⟩ (candidates.take limit)).map
    (· ++ (candidates.drop limit).map .kept)

/-- The final sort, where any candidate has a new score. -/
def finalSort (reranked : List (Reranked K)) : List (Candidate K) :=
  if 0 < reranked.countP Reranked.rescored ∧ 1 < reranked.length then
    candidateHeapSort (reranked.map Reranked.candidate)
  else reranked.map Reranked.candidate

/-- The candidates after the rerank and the final sort. -/
def delivered (sqrt : K → K) (candidates : List (Candidate K)) :
    Except RerankError (List (Candidate K)) :=
  (scan.exactHeapRerank sqrt candidates).map finalSort

end RerankScan

end TurboHybrid.Rerank
