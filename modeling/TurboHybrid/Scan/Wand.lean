/-
**The WAND loop.**

The iterators of the query's terms stand in node order. A prefix of them whose chunk bounds reach
the threshold names the pivot; the nodes before the pivot are skipped, the pivot itself is scored
over all iterators.

* `wandStep`: one round of the loop;
* `scoreBaseWand`: the loop from fresh iterators, as long as rounds can be.
-/
import TurboHybrid.Scan.Accumulator
import TurboHybrid.Scan.Iterator

namespace TurboHybrid.Index

open TurboHybrid.Query

structure ImpactTupleEntry where
  nodeId : Nat
  tfNormQ16 : Nat
  deriving DecidableEq, Repr

/-- The lexicon entry of a term: its posting chain and its stored impact head. -/
structure LexiconEntry where
  termId : Nat
  df : Nat
  chain : PostingChain
  impactTuples : List ImpactTupleEntry

/-- A query term with what the cache found for it: its lexicon entry, if it has one, and its
document frequency in the delta. -/
structure SearchTerm where
  term : QueryTerm
  lexicon : Option LexiconEntry
  deltaDf : Nat

namespace SearchTerm

def baseDf (term : SearchTerm) : Nat := (term.lexicon.map LexiconEntry.df).getD 0

def df (term : SearchTerm) : Nat := term.baseDf + term.deltaDf

def idf {R : Type*} [Field R] [LinearOrder R] (log : R → R) (corpus : ScoringMeta R)
    (term : SearchTerm) : R :=
  termIdf log corpus term.df

def postings (term : SearchTerm) : List Posting :=
  (term.lexicon.map fun entry => entry.chain.postings).getD []

def chunks {R : Type*} [Field R] [LinearOrder R] (corpus : ScoringMeta R) (term : SearchTerm) :
    List (Chunk R) :=
  (term.lexicon.map fun entry => entry.chain.chunks corpus).getD []

end SearchTerm

end TurboHybrid.Index

namespace TurboHybrid.Scan

open TurboHybrid.Index TurboHybrid.Query

variable {R : Type*} [Field R] [LinearOrder R] [IsStrictOrderedRing R]

/-! ### Posting iterators -/

/-- An iterator of a term; it is valid while it has a cursor. -/
structure PostingIterator (R : Type*) where
  matchBit : Nat
  termId : Nat
  idf : R
  cursor : Option (Cursor R)

def iteratorNodeId (iterator : PostingIterator R) : Nat :=
  match iterator.cursor with
  | some cursor => cursorNodeId cursor
  | none => uint32Max

def iteratorUpperBound (corpus : ScoringMeta R) (iterator : PostingIterator R) : R :=
  match iterator.cursor with
  | some cursor => chunkUpperBound corpus iterator.idf (avgDocLen corpus) cursor.chunk
  | none => 0

def iteratorSeek (docs : DocState) (target : Nat) (iterator : PostingIterator R) :
    PostingIterator R :=
  { iterator with cursor := iterator.cursor.bind (iteratorSeekTo docs target) }

def iteratorAdvancePast (docs : DocState) (nodeId : Nat) (iterator : PostingIterator R) :
    PostingIterator R :=
  if nodeId = uint32Max then iterator else iteratorSeek docs (nodeId + 1) iterator

/-- The order of the active iterators: by node, then by term. -/
def activeBefore (one other : PostingIterator R) : Bool :=
  if iteratorNodeId one < iteratorNodeId other then true
  else if iteratorNodeId other < iteratorNodeId one then false
  else decide (one.termId ≤ other.termId)

def sortActive (active : List (PostingIterator R)) : List (PostingIterator R) :=
  active.insertionSort fun one other => activeBefore one other

def refreshActiveOrder (active : List (PostingIterator R)) : List (PostingIterator R) :=
  sortActive (active.filter fun iterator =>
    iterator.cursor.isSome && iteratorNodeId iterator != uint32Max)

def openIterator (log : R → R) (corpus : ScoringMeta R) (docs : DocState) (term : SearchTerm) :
    Option (PostingIterator R) :=
  term.lexicon.bind fun entry =>
    (iteratorInit docs (entry.chain.chunks corpus)).map fun cursor =>
      ⟨term.term.matchBit, entry.termId, term.idf log corpus, some cursor⟩

/-! ### The bound against the dense candidates -/

/-- What the caller knows of the dense candidates: their share, the fused score to beat, and their
contributions by node. -/
structure FusedScoreBound (R : Type*) where
  alpha : R
  kthScore : R
  maxDenseContribution : R
  dense : Array (Nat × R)

def normalizeSaturating (score : R) : R := if score ≤ 0 then 0 else score / (score + 1)

/-- The binary search for a node's dense contribution. -/
def denseContributionSearch (dense : Array (Nat × R)) (nodeId : Nat) : Nat → Nat → Nat → R
  | 0, _, _ => 0
  | fuel + 1, left, right =>
    if left < right then
      let mid := left + (right - left) / 2
      match dense[mid]? with
      | none => 0
      | some (midNode, contribution) =>
        if midNode = nodeId then contribution
        else if midNode < nodeId then denseContributionSearch dense nodeId fuel (mid + 1) right
        else denseContributionSearch dense nodeId fuel left mid
    else 0

def denseContributionForBound (bound : FusedScoreBound R) (nodeId : Nat) : R :=
  denseContributionSearch bound.dense nodeId bound.dense.size 0 bound.dense.size

def canPruneCandidate (bound : Option (FusedScoreBound R)) (nodeId : Nat) (upperBound : R) : Bool :=
  match bound with
  | none => false
  | some bound =>
    decide (denseContributionForBound bound nodeId +
      (1 - bound.alpha) * normalizeSaturating upperBound < bound.kthScore)

/-! ### The WAND loop -/

/-- What the scorers are called with. The test accepts the masks that match the query. -/
structure ScanContext (R : Type*) [Field R] [LinearOrder R] where
  corpus : ScoringMeta R
  docs : DocState
  accepts : Nat → Bool
  k : Nat
  fusedBound : Option (FusedScoreBound R)

/-- The loop's state; `used` records that some node matched the query. -/
structure WandState (R : Type*) where
  active : List (PostingIterator R)
  acc : Accumulator R
  used : Bool

/-- The first iterator up to which the bounds sum above the threshold; any iterator while fewer
than `k` nodes are touched. -/
def findPivot (corpus : ScoringMeta R) (few : Bool) (threshold : R) :
    List (PostingIterator R) → R → Option Nat
  | [], _ => none
  | iterator :: rest, upperBound =>
    let upperBound := upperBound + iteratorUpperBound corpus iterator
    if few ∨ threshold < upperBound then some 0
    else (findPivot corpus few threshold rest upperBound).map (· + 1)

def iteratorPosting (iterator : PostingIterator R) : Option Posting :=
  iterator.cursor.bind fun cursor => cursor.window.head?

/-- The score and the matched terms gathered at a node. -/
def scorePivot (ctx : ScanContext R) (pivotNode : Nat) (active : List (PostingIterator R)) :
    R × Nat :=
  active.foldl (fun (score, matchedTerms) iterator =>
    match iteratorPosting iterator with
    | some posting =>
      if posting.nodeId = pivotNode then
        (score + postingScoreDecoded ctx.corpus iterator.idf (avgDocLen ctx.corpus) posting
            (ctx.docs.docLen pivotNode),
          matchedTerms ||| iterator.matchBit)
      else (score, matchedTerms)
    | none => (score, matchedTerms)) (0, 0)

/-- Move the iterators that stand on a node past it. -/
def leavePivot (docs : DocState) (pivotNode : Nat) (active : List (PostingIterator R)) :
    List (PostingIterator R) :=
  refreshActiveOrder (active.map fun iterator =>
    if iteratorNodeId iterator = pivotNode then iteratorAdvancePast docs pivotNode iterator
    else iterator)

/-- The bounds of the iterators that stand at or before a node. -/
def candidateUpperBound (corpus : ScoringMeta R) (pivotNode : Nat)
    (active : List (PostingIterator R)) : R :=
  ((active.takeWhile fun iterator => iteratorNodeId iterator ≤ pivotNode).map
    (iteratorUpperBound corpus)).sum

/-- One round of the loop, `none` when it ends. -/
def wandStep (ctx : ScanContext R) (state : WandState R) : Option (WandState R) :=
  match state.active with
  | [] => none
  | first :: _ =>
    let threshold := kthScore state.acc ctx.k
    let few := decide (state.acc.touchedCount < ctx.k)
    match findPivot ctx.corpus few threshold state.active 0 with
    | none => none
    | some pivot =>
      let pivotNode := ((state.active[pivot]?).map iteratorNodeId).getD uint32Max
      if pivotNode = uint32Max then none
      else if iteratorNodeId first = pivotNode then
        if canPruneCandidate ctx.fusedBound pivotNode
            (candidateUpperBound ctx.corpus pivotNode state.active) then
          some { state with active := leavePivot ctx.docs pivotNode state.active }
        else
          let active := state.active.map (iteratorSeek ctx.docs pivotNode)
          let (score, matchedTerms) := scorePivot ctx pivotNode active
          let matched :=
            active.any (fun iterator => iteratorNodeId iterator == pivotNode) &&
              ctx.accepts matchedTerms
          let acc :=
            if matched && (few || threshold < score) then
              addTermScore state.acc pivotNode score matchedTerms
            else state.acc
          some ⟨leavePivot ctx.docs pivotNode active, acc, state.used || matched⟩
      else
        some { state with
          active := refreshActiveOrder
            ((state.active.take pivot).map (iteratorSeek ctx.docs pivotNode) ++
              state.active.drop pivot) }

/-- The loop; every round moves past a node, so the node count bounds the rounds. -/
def wandLoop (ctx : ScanContext R) : Nat → WandState R → WandState R
  | 0, state => state
  | fuel + 1, state =>
    match wandStep ctx state with
    | none => state
    | some next => wandLoop ctx fuel next

def wandStart (log : R → R) (ctx : ScanContext R) (terms : List SearchTerm) (acc : Accumulator R) :
    WandState R :=
  ⟨sortActive (terms.filterMap (openIterator log ctx.corpus ctx.docs)), acc, false⟩

/-- The scorer: whether some node matched, and the accumulator. -/
def scoreBaseWand (log : R → R) (ctx : ScanContext R) (terms : List SearchTerm)
    (acc : Accumulator R) : Bool × Accumulator R :=
  let final := wandLoop ctx (ctx.docs.nodeCount + 1) (wandStart log ctx terms acc)
  (final.used, final.acc)

end TurboHybrid.Scan
