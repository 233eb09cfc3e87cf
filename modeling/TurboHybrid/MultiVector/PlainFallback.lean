/-
**The plain heap fallback of a multi-vector scan.**

The fallback scores the visible rows of the table and keeps the best in a bounded heap. It names a
row by the line pointer of the visible version and never looks at the index's predicate.

* `exactPlainFallback_eq`: what the fallback returns;
* `fallback_interchangeable_iff`: it can stand in for the index exactly when every row that is not
  served as the index serves it is behind enough others.
-/
import TurboHybrid.Library.BoundedHeap
import TurboHybrid.MultiVector.MaxSim
import Mathlib.Data.Prod.Lex
import Mathlib.Order.Lex

namespace TurboHybrid.PlainFallback

open TurboHybrid.Library TurboHybrid.MaxSim

/-! ### Tables -/

structure ItemPointer where
  block : Nat
  offset : Nat
  deriving DecidableEq, Repr

/-- A version of a row: its own line pointer and the one at the root of its HOT chain. -/
structure HeapTuple (Row : Type) where
  tid : ItemPointer
  root : ItemPointer
  row : Row

/-- A table. A version at the root of some chain belongs to that chain. -/
structure HeapRelation (Row : Type) where
  tuples : List (HeapTuple Row)
  distinct : (tuples.map HeapTuple.tid).Nodup
  rooted : ∀ tuple ∈ tuples, ∀ other ∈ tuples, tuple.tid = other.root → tuple.root = tuple.tid

/-- A snapshot sees at most one version of a chain. -/
structure Snapshot {Row : Type} (heap : HeapRelation Row) where
  visible : HeapTuple Row → Bool
  single : ∀ tuple ∈ heap.tuples, ∀ other ∈ heap.tuples, visible tuple → visible other →
    tuple.root = other.root → tuple = other

structure TupleDesc (Row : Type) where
  natts : Int
  getattr : Int → Row → Option MultiVector

/-- An index definition: the attribute number of its dense key, or an expression where that is
not positive, and the predicate of a partial index. -/
structure IndexDefinition (Row : Type) where
  denseAttno : Int
  expression : Row → Option MultiVector
  predicate : Row → Bool
  contextLevel : Bool

structure PlainScan (Row : Type) where
  desc : TupleDesc Row
  index : IndexDefinition Row
  heap : HeapRelation Row
  snapshot : Snapshot heap
  query : MultiVector
  queryTokens : QueryTokens
  queryWeightSum : Rat
  targetK : Int

variable {Row : Type}

/-! ### Candidates -/

/-- The fields of a candidate that the comparison reads. -/
structure Candidate where
  distance : Rat
  heaptid : ItemPointer
  nodeId : Nat
  deriving DecidableEq

structure DenseCandidate extends Candidate where
  similarity : Rat
  rank : Nat
  exactScored : Bool

def denseCandidateCompare (one other : Candidate) : Ordering :=
  if one.distance < other.distance then .lt
  else if other.distance < one.distance then .gt
  else if one.heaptid.block < other.heaptid.block then .lt
  else if other.heaptid.block < one.heaptid.block then .gt
  else if one.heaptid.offset < other.heaptid.offset then .lt
  else if other.heaptid.offset < one.heaptid.offset then .gt
  else compare one.nodeId other.nodeId

def candidateWorse (one other : Candidate) : Bool := denseCandidateCompare one other == .gt

def candidateHeapOffer (limit : Nat) (heap : Array Candidate) (candidate : Candidate) :
    Array Candidate :=
  if heap.size < limit then BinaryHeap.push candidateWorse heap candidate
  else
    match heap[0]? with
    | some root =>
      if denseCandidateCompare candidate root == .lt then
        BinaryHeap.replaceRoot candidateWorse heap candidate
      else heap
    | none => heap

def candidateHeapSort (heap : Array Candidate) : List Candidate :=
  heap.toList.insertionSort fun one other => denseCandidateCompare one other ≠ .gt

/-! ### The fallback -/

inductive FallbackError
  | differentDimensions (queryDim docDim : Nat)
  deriving DecidableEq

def multivectorDocCandidateK : Int := 100

def docCandidateLimit (targetK : Int) : Nat :=
  let docLimit := if 0 < targetK then targetK else multivectorDocCandidateK
  (max (min docLimit multivectorDocCandidateK) 1).toNat

/-- The node id of a candidate that no node stands for. -/
def noNodeId : Nat := 2 ^ 32 - 1

namespace PlainScan

variable (scan : PlainScan Row)

/-- The visible versions, in the order of the table scan. -/
def tableScan : List (HeapTuple Row) := scan.heap.tuples.filter scan.snapshot.visible

def exactMaxsim (doc : MultiVector) : Rat :=
  indexMaxSim scan.index.contextLevel scan.query doc scan.queryTokens

def PlainColumn : Prop := 0 < scan.index.denseAttno ∧ scan.index.denseAttno ≤ scan.desc.natts

instance : Decidable scan.PlainColumn := inferInstanceAs (Decidable (_ ∧ _))

def candidateOf (tuple : HeapTuple Row) (doc : MultiVector) : Candidate :=
  { distance := -scan.exactMaxsim doc, heaptid := tuple.tid, nodeId := noNodeId }

def fallbackStep (heap : Array Candidate) (tuple : HeapTuple Row) :
    Except FallbackError (Array Candidate) :=
  match scan.desc.getattr scan.index.denseAttno tuple.row with
  | none => .ok heap
  | some doc =>
    if scan.query.dim ≠ doc.dim then .error (.differentDimensions scan.query.dim doc.dim)
    else .ok (candidateHeapOffer (docCandidateLimit scan.targetK) heap (scan.candidateOf tuple doc))

def similarityOf (candidate : Candidate) : Rat :=
  if 0 < scan.queryWeightSum then -candidate.distance / scan.queryWeightSum else 0

def ranked (candidates : List Candidate) : List DenseCandidate :=
  candidates.mapIdx fun position candidate =>
    { candidate with
      similarity := scan.similarityOf candidate
      rank := position + 1
      exactScored := true }

def exactPlainFallback : Except FallbackError (List DenseCandidate) :=
  if scan.PlainColumn then
    (scan.tableScan.foldlM scan.fallbackStep #[]).map fun heap =>
      scan.ranked (candidateHeapSort heap)
  else .ok []

/-! ### What the index serves -/

def indexedValue (row : Row) : Option MultiVector :=
  if scan.PlainColumn then scan.desc.getattr scan.index.denseAttno row
  else scan.index.expression row

/-- A row as the index names it: the root of its chain, with its exact score. -/
def indexEntry (tuple : HeapTuple Row) : Option (ItemPointer × Rat) :=
  if scan.index.predicate tuple.row then
    (scan.indexedValue tuple.row).map fun doc => (tuple.root, scan.exactMaxsim doc)
  else none

def covered : List (ItemPointer × Rat) := scan.tableScan.filterMap scan.indexEntry

/-- An index fetch takes the root of a chain to the visible version. -/
def indexFetch (tid : ItemPointer) : Option (HeapTuple Row) :=
  scan.tableScan.find? fun tuple => tuple.root = tid

/-- **The fallback stands in for the index**: it returns the best covered rows, each under the
line pointer that an index fetch takes to the row. -/
structure Interchangeable (returned : List DenseCandidate) : Prop where
  best : ∃ rest,
    scan.covered.Perm
      (returned.map (fun candidate => (candidate.heaptid, -candidate.distance)) ++ rest) ∧
    ∀ candidate ∈ returned, ∀ other ∈ rest, other.2 ≤ -candidate.distance
  count : returned.length = min (docCandidateLimit scan.targetK) scan.covered.length
  ordered : returned.Pairwise fun one other => one.distance ≤ other.distance
  fetched : ∀ candidate ∈ returned, ∃ tuple,
    scan.indexFetch candidate.heaptid = some tuple ∧
      scan.indexEntry tuple = some (candidate.heaptid, -candidate.distance)

/-! ### When it does -/

/-- Another row is ahead of a scored one: a better score, or the same and an earlier pointer. -/
def ahead (tuple : HeapTuple Row) (doc : MultiVector) (other : HeapTuple Row) : Bool :=
  (scan.indexedValue other.row).any fun otherDoc =>
    decide (scan.exactMaxsim doc < scan.exactMaxsim otherDoc ∨
      scan.exactMaxsim doc = scan.exactMaxsim otherDoc ∧
        (other.tid.block < tuple.tid.block ∨
          other.tid.block = tuple.tid.block ∧ other.tid.offset < tuple.tid.offset))

/-- A version that the index serves under its own line pointer. -/
def AtRoot (tuple : HeapTuple Row) : Prop :=
  scan.index.predicate tuple.row ∧ tuple.root = tuple.tid

/-- **The condition.** With a plain column, all visible values have the query's dimension, and a
row that is outside the predicate or not at the root of its chain is behind as many others as the
fallback returns. With an expression, the index covers no visible row. -/
def Served : Prop :=
  if scan.PlainColumn then
    ∀ tuple ∈ scan.tableScan, ∀ doc, scan.indexedValue tuple.row = some doc →
      doc.dim = scan.query.dim ∧
        (¬scan.AtRoot tuple →
          docCandidateLimit scan.targetK ≤ scan.tableScan.countP (scan.ahead tuple doc))
  else ∀ tuple ∈ scan.tableScan, scan.indexEntry tuple = none

end PlainScan

/-! ### The order of candidates -/

def Candidate.key (candidate : Candidate) : Rat ×ₗ Nat ×ₗ Nat ×ₗ Nat :=
  toLex (candidate.distance, toLex (candidate.heaptid.block,
    toLex (candidate.heaptid.offset, candidate.nodeId)))

theorem Candidate.key_injective : Function.Injective Candidate.key := by
  rintro ⟨distance, ⟨block, offset⟩, nodeId⟩ ⟨distance', ⟨block', offset'⟩, nodeId'⟩ same
  simpa [Candidate.key, and_assoc] using same

instance : LinearOrder Candidate := LinearOrder.lift' Candidate.key Candidate.key_injective

theorem candidate_lt_iff {one other : Candidate} :
    one < other ↔ one.distance < other.distance ∨ one.distance = other.distance ∧
      (one.heaptid.block < other.heaptid.block ∨ one.heaptid.block = other.heaptid.block ∧
        (one.heaptid.offset < other.heaptid.offset ∨ one.heaptid.offset = other.heaptid.offset ∧
          one.nodeId < other.nodeId)) := by
  show one.key < other.key ↔ _
  simp only [Candidate.key, Prod.Lex.toLex_lt_toLex]

theorem compare_gt_iff {one other : Candidate} :
    denseCandidateCompare one other = .gt ↔ other < one := by
  rw [candidate_lt_iff, denseCandidateCompare]
  split_ifs <;> simp only [Nat.compare_eq_gt, false_iff, true_iff] <;> grind

theorem compare_lt_iff {one other : Candidate} :
    denseCandidateCompare one other = .lt ↔ one < other := by
  rw [candidate_lt_iff, denseCandidateCompare]
  split_ifs <;> simp only [Nat.compare_eq_lt, false_iff, true_iff] <;> grind

theorem candidateWorse_orders : BoundedHeap.Orders candidateWorse := by
  intro one other
  rw [candidateWorse, beq_iff_eq, compare_gt_iff]

theorem candidateHeapOffer_eq (limit : Nat) :
    candidateHeapOffer limit = BoundedHeap.offer candidateWorse limit := by
  funext heap candidate
  have same (root : Candidate) :
      (denseCandidateCompare candidate root == .lt) = candidateWorse root candidate := by
    rw [Bool.eq_iff_iff, beq_iff_eq, compare_lt_iff, candidateWorse_orders root candidate]
  rw [candidateHeapOffer, BoundedHeap.offer]
  simp only [same]
  split_ifs
  · rfl
  · cases heap[0]? <;> rfl

theorem candidateHeapSort_eq (heap : Array Candidate) :
    candidateHeapSort heap = heap.toList.insertionSort (· ≤ ·) := by
  have same : (fun one other : Candidate => denseCandidateCompare one other ≠ .gt) = (· ≤ ·) := by
    funext one other
    rw [Ne, compare_gt_iff, not_lt]
  rw [candidateHeapSort]
  congr 1

/-! ### What the fallback returns -/

namespace PlainScan

variable {scan : PlainScan Row}

def scored (scan : PlainScan Row) (tuple : HeapTuple Row) : Option Candidate :=
  (scan.indexedValue tuple.row).map (scan.candidateOf tuple)

def candidates (scan : PlainScan Row) : List Candidate := scan.tableScan.filterMap scan.scored

theorem docCandidateLimit_pos (targetK : Int) : 0 < docCandidateLimit targetK := by
  rw [docCandidateLimit]
  omega

theorem indexedValue_plain (plain : scan.PlainColumn) (row : Row) :
    scan.indexedValue row = scan.desc.getattr scan.index.denseAttno row := if_pos plain

theorem fallbackStep_fits (plain : scan.PlainColumn) {tuple : HeapTuple Row}
    (fits : ∀ doc, scan.indexedValue tuple.row = some doc → doc.dim = scan.query.dim)
    (heap : Array Candidate) :
    scan.fallbackStep heap tuple =
      .ok ((scan.scored tuple).toList.foldl (candidateHeapOffer (docCandidateLimit scan.targetK))
        heap) := by
  rw [fallbackStep, scored, ← indexedValue_plain plain]
  rcases value : scan.indexedValue tuple.row with _ | doc
  · rfl
  · exact if_neg (not_not.mpr (fits doc value).symm)

theorem fallbackStep_error (plain : scan.PlainColumn) {tuple : HeapTuple Row} {doc : MultiVector}
    (value : scan.indexedValue tuple.row = some doc) (other : doc.dim ≠ scan.query.dim)
    (heap : Array Candidate) :
    scan.fallbackStep heap tuple = .error (.differentDimensions scan.query.dim doc.dim) := by
  rw [fallbackStep, ← indexedValue_plain plain, value]
  exact if_pos other.symm

theorem foldlM_fits (plain : scan.PlainColumn) {tuples : List (HeapTuple Row)}
    (fits : ∀ tuple ∈ tuples, ∀ doc, scan.indexedValue tuple.row = some doc →
      doc.dim = scan.query.dim) (heap : Array Candidate) :
    tuples.foldlM scan.fallbackStep heap =
      .ok ((tuples.filterMap scan.scored).foldl
        (candidateHeapOffer (docCandidateLimit scan.targetK)) heap) := by
  induction tuples generalizing heap with
  | nil => rfl
  | cons tuple rest ih =>
    rw [List.foldlM_cons, fallbackStep_fits plain (fits tuple List.mem_cons_self)]
    show rest.foldlM scan.fallbackStep _ = _
    rw [ih fun later member => fits later (List.mem_cons_of_mem _ member)]
    rcases value : scan.scored tuple with _ | candidate
    · rw [List.filterMap_cons_none value]
      rfl
    · rw [List.filterMap_cons_some value]
      rfl

theorem foldlM_error (plain : scan.PlainColumn) {tuples : List (HeapTuple Row)}
    {tuple : HeapTuple Row} (member : tuple ∈ tuples) {doc : MultiVector}
    (value : scan.indexedValue tuple.row = some doc) (other : doc.dim ≠ scan.query.dim)
    (heap : Array Candidate) : ∃ error, tuples.foldlM scan.fallbackStep heap = .error error := by
  induction tuples generalizing heap with
  | nil => exact absurd member List.not_mem_nil
  | cons first rest ih =>
    rw [List.foldlM_cons]
    rcases stepped : scan.fallbackStep heap first with error | heap'
    · exact ⟨error, rfl⟩
    · rcases List.mem_cons.mp member with rfl | later
      · rw [fallbackStep_error plain value other] at stepped
        cases stepped
      · exact ih later heap'

/-- **What the fallback returns** where all values fit: the best of all visible versions. -/
theorem exactPlainFallback_eq (plain : scan.PlainColumn)
    (fits : ∀ tuple ∈ scan.tableScan, ∀ doc, scan.indexedValue tuple.row = some doc →
      doc.dim = scan.query.dim) :
    scan.exactPlainFallback =
      .ok (scan.ranked (TopK.best (docCandidateLimit scan.targetK) scan.candidates)) := by
  rw [exactPlainFallback, if_pos plain, foldlM_fits plain fits]
  show Except.ok (scan.ranked (candidateHeapSort _)) = _
  rw [candidateHeapSort_eq, candidateHeapOffer_eq,
    BoundedHeap.offerAll_sort candidateWorse_orders (docCandidateLimit_pos _)]
  rfl

theorem exactPlainFallback_fits (plain : scan.PlainColumn) {returned : List DenseCandidate}
    (result : scan.exactPlainFallback = .ok returned) {tuple : HeapTuple Row}
    (member : tuple ∈ scan.tableScan) {doc : MultiVector}
    (value : scan.indexedValue tuple.row = some doc) : doc.dim = scan.query.dim := by
  by_contra other
  obtain ⟨error, stopped⟩ := foldlM_error plain member value other #[]
  rw [exactPlainFallback, if_pos plain, stopped] at result
  cases result

/-! ### Versions and their candidates -/

theorem mem_candidates {candidate : Candidate} :
    candidate ∈ scan.candidates ↔ ∃ tuple ∈ scan.tableScan, ∃ doc,
      scan.indexedValue tuple.row = some doc ∧ scan.candidateOf tuple doc = candidate := by
  simp only [candidates, scored, List.mem_filterMap, Option.map_eq_some_iff]

theorem mem_tuples {tuple : HeapTuple Row} (member : tuple ∈ scan.tableScan) :
    tuple ∈ scan.heap.tuples ∧ scan.snapshot.visible tuple := by
  simpa [tableScan] using member

theorem eq_of_tid {tuple other : HeapTuple Row} (member : tuple ∈ scan.tableScan)
    (member' : other ∈ scan.tableScan) (same : tuple.tid = other.tid) : tuple = other :=
  List.inj_on_of_nodup_map scan.heap.distinct (mem_tuples member).1 (mem_tuples member').1 same

theorem eq_of_root {tuple other : HeapTuple Row} (member : tuple ∈ scan.tableScan)
    (member' : other ∈ scan.tableScan) (same : tuple.root = other.root) : tuple = other :=
  scan.snapshot.single tuple (mem_tuples member).1 other (mem_tuples member').1
    (mem_tuples member).2 (mem_tuples member').2 same

theorem eq_of_tid_root {tuple other : HeapTuple Row} (member : tuple ∈ scan.tableScan)
    (member' : other ∈ scan.tableScan) (same : tuple.tid = other.root) : tuple = other := by
  have own := scan.heap.rooted tuple (mem_tuples member).1 other (mem_tuples member').1 same
  exact eq_of_root member member' (own.trans same)

theorem tableScan_nodup (scan : PlainScan Row) : (scan.tableScan.map HeapTuple.tid).Nodup :=
  scan.heap.distinct.sublist (List.filter_sublist.map _)

theorem indexFetch_root {tuple : HeapTuple Row} (member : tuple ∈ scan.tableScan) :
    scan.indexFetch tuple.root = some tuple := by
  rcases found : scan.indexFetch tuple.root with _ | other
  · have none := List.find?_eq_none.mp found tuple member
    simp at none
  · have here : other.root = tuple.root := by simpa using List.find?_some found
    rw [eq_of_root (List.mem_of_find?_eq_some found) member here]

theorem candidate_lt_candidate {tuple other : HeapTuple Row} {doc otherDoc : MultiVector}
    (value : scan.indexedValue other.row = some otherDoc) :
    scan.candidateOf other otherDoc < scan.candidateOf tuple doc ↔
      scan.ahead tuple doc other = true := by
  rw [candidate_lt_iff, ahead, value, Option.any_some, decide_eq_true_iff]
  simp only [candidateOf, neg_lt_neg_iff, neg_inj, lt_irrefl, and_false, or_false]
  rw [eq_comm (a := scan.exactMaxsim otherDoc)]

theorem length_before (tuple : HeapTuple Row) (doc : MultiVector) :
    (scan.candidates.filter fun other => other < scan.candidateOf tuple doc).length =
      scan.tableScan.countP (scan.ahead tuple doc) := by
  rw [candidates, ← List.countP_eq_length_filter, List.countP_filterMap]
  congr 1
  funext other
  rcases value : scan.indexedValue other.row with _ | otherDoc
  · simp [scored, ahead, value]
  · rw [Bool.eq_iff_iff, ← candidate_lt_candidate value]
    simp [scored, value]

/-! ### The candidates of covered rows -/

theorem distance_le_of_le {one other : Candidate} (before : one ≤ other) :
    one.distance ≤ other.distance := by
  rcases before.lt_or_eq with less | rfl
  · rcases candidate_lt_iff.mp less with below | ⟨same, -⟩
    · exact below.le
    · exact same.le
  · exact le_refl _

theorem candidates_nodup (scan : PlainScan Row) : scan.candidates.Nodup := by
  have distinct := List.pairwise_map.mp (tableScan_nodup scan)
  refine List.pairwise_filterMap.mpr (distinct.imp ?_)
  intro tuple other apart candidate found candidate' found' same
  obtain ⟨doc, -, rfl⟩ := Option.map_eq_some_iff.mp found
  obtain ⟨doc', -, rfl⟩ := Option.map_eq_some_iff.mp found'
  exact apart (congrArg Candidate.heaptid same)

/-- The candidates of the versions inside the predicate. -/
def coveredCandidates (scan : PlainScan Row) : List Candidate :=
  (scan.tableScan.filter fun tuple => scan.index.predicate tuple.row).filterMap scan.scored

theorem coveredCandidates_sublist (scan : PlainScan Row) :
    scan.coveredCandidates.Sublist scan.candidates :=
  List.filter_sublist.filterMap _

/-- The root of the chain of the version at a line pointer. -/
def rootAt (scan : PlainScan Row) (tid : ItemPointer) : ItemPointer :=
  ((scan.tableScan.find? fun tuple => tuple.tid = tid).map HeapTuple.root).getD tid

theorem rootAt_tid {tuple : HeapTuple Row} (member : tuple ∈ scan.tableScan) :
    scan.rootAt tuple.tid = tuple.root := by
  rw [rootAt]
  rcases found : scan.tableScan.find? (fun other => other.tid = tuple.tid) with _ | other
  · have none := List.find?_eq_none.mp found tuple member
    simp at none
  · have here : other.tid = tuple.tid := by simpa using List.find?_some found
    rw [found, eq_of_tid (List.mem_of_find?_eq_some found) member here]
    rfl

def renamed (scan : PlainScan Row) (candidate : Candidate) : ItemPointer × Rat :=
  (scan.rootAt candidate.heaptid, -candidate.distance)

theorem renamed_candidateOf {tuple : HeapTuple Row} (member : tuple ∈ scan.tableScan)
    (doc : MultiVector) :
    scan.renamed (scan.candidateOf tuple doc) = (tuple.root, scan.exactMaxsim doc) := by
  rw [renamed, candidateOf, rootAt_tid member, neg_neg]

theorem covered_eq (scan : PlainScan Row) :
    scan.covered = scan.coveredCandidates.map scan.renamed := by
  rw [covered, coveredCandidates, List.filterMap_filter, List.map_filterMap]
  refine List.filterMap_congr fun tuple member => ?_
  rw [indexEntry]
  split_ifs with inside
  · rw [scored, Option.map_map]
    congr 1
    funext doc
    exact (renamed_candidateOf member doc).symm
  · rfl

/-! ### Standing in for the index -/

/-- Every candidate that is not of a row served at its root is behind enough others. -/
def Leading (scan : PlainScan Row) : Prop :=
  ∀ tuple ∈ scan.tableScan, ∀ doc, scan.indexedValue tuple.row = some doc → ¬scan.AtRoot tuple →
    docCandidateLimit scan.targetK ≤ scan.tableScan.countP (scan.ahead tuple doc)

theorem atRoot_of_best (leading : scan.Leading) {candidate : Candidate}
    (member : candidate ∈ TopK.best (docCandidateLimit scan.targetK) scan.candidates) :
    ∃ tuple ∈ scan.tableScan, ∃ doc, scan.indexedValue tuple.row = some doc ∧
      scan.candidateOf tuple doc = candidate ∧ scan.AtRoot tuple := by
  obtain ⟨tuple, inside, doc, value, rfl⟩ := mem_candidates.mp (TopK.mem_of_mem_best member)
  refine ⟨tuple, inside, doc, value, rfl, ?_⟩
  by_contra misplaced
  have few := TopK.before_lt_of_mem_best member
  rw [length_before] at few
  exact absurd (leading tuple inside doc value misplaced) (by omega)

theorem best_covered (leading : scan.Leading) :
    TopK.best (docCandidateLimit scan.targetK) scan.coveredCandidates =
      TopK.best (docCandidateLimit scan.targetK) scan.candidates := by
  have sublist := coveredCandidates_sublist scan
  refine TopK.best_eq_of_subset ((candidates_nodup scan).sublist sublist) (candidates_nodup scan)
    sublist.subset fun candidate member => ?_
  obtain ⟨tuple, inside, doc, value, here, atRoot⟩ := atRoot_of_best leading member
  refine List.mem_filterMap.mpr ⟨tuple, List.mem_filter.mpr ⟨inside, atRoot.1⟩, ?_⟩
  rw [scored, value, Option.map_some, here]

theorem renamed_best (leading : scan.Leading) {candidate : Candidate}
    (member : candidate ∈ TopK.best (docCandidateLimit scan.targetK) scan.candidates) :
    scan.renamed candidate = (candidate.heaptid, -candidate.distance) := by
  obtain ⟨tuple, inside, doc, -, rfl, atRoot⟩ := atRoot_of_best leading member
  rw [renamed_candidateOf inside, atRoot.2, candidateOf, neg_neg]

theorem ranked_map {B : Type*} (scan : PlainScan Row) (f : Candidate → B)
    (candidates : List Candidate) :
    (scan.ranked candidates).map (fun candidate => f candidate.toCandidate) = candidates.map f := by
  refine List.ext_getElem? fun position => ?_
  rw [ranked, List.getElem?_map, List.getElem?_mapIdx, List.getElem?_map, Option.map_map]
  rfl

theorem mem_ranked {candidates : List Candidate} {candidate : DenseCandidate}
    (member : candidate ∈ scan.ranked candidates) : candidate.toCandidate ∈ candidates := by
  have mapped := List.mem_map_of_mem (f := fun one => id one.toCandidate) member
  rwa [ranked_map, List.map_id] at mapped

theorem exists_ranked {candidates : List Candidate} {candidate : Candidate}
    (member : candidate ∈ candidates) :
    ∃ found ∈ scan.ranked candidates, found.toCandidate = candidate := by
  have mapped : candidate ∈ (scan.ranked candidates).map fun one => id one.toCandidate := by
    rwa [ranked_map, List.map_id]
  exact List.mem_map.mp mapped

theorem interchangeable_of_leading (leading : scan.Leading) :
    scan.Interchangeable
      (scan.ranked (TopK.best (docCandidateLimit scan.targetK) scan.candidates)) := by
  have selects := TopK.best_selects (docCandidateLimit scan.targetK) scan.coveredCandidates
  rw [best_covered leading] at selects
  obtain ⟨rest, perm, below⟩ := selects.split
  refine ⟨⟨rest.map scan.renamed, ?_, ?_⟩, ?_, ?_, ?_⟩
  · rw [covered_eq, ranked_map scan fun candidate => (candidate.heaptid, -candidate.distance),
      ← List.map_congr_left fun candidate member => renamed_best leading member, ← List.map_append]
    exact perm.map scan.renamed
  · intro candidate member other member'
    obtain ⟨left, inside, rfl⟩ := List.mem_map.mp member'
    have before := below candidate.toCandidate (mem_ranked member) left inside
    show -left.distance ≤ -candidate.distance
    exact Rat.neg_le_neg (distance_le_of_le before)
  · rw [covered_eq, List.length_map, ← selects.count, ranked, List.length_mapIdx]
  · have sorted : (TopK.best (docCandidateLimit scan.targetK) scan.candidates).Pairwise (· ≤ ·) :=
      (List.pairwise_insertionSort _ _).take
    rw [← List.map_id (TopK.best _ _), ← ranked_map, List.pairwise_map] at sorted
    exact sorted.imp fun before => distance_le_of_le before
  · intro candidate member
    obtain ⟨tuple, inside, doc, value, here, atRoot⟩ := atRoot_of_best leading (mem_ranked member)
    refine ⟨tuple, ?_, ?_⟩
    · rw [← here]
      show scan.indexFetch tuple.tid = some tuple
      rw [← atRoot.2, indexFetch_root inside]
    · rw [indexEntry, if_pos atRoot.1, value, ← here, atRoot.2, candidateOf, neg_neg]
      rfl

theorem leading_of_interchangeable
    (same : scan.Interchangeable
      (scan.ranked (TopK.best (docCandidateLimit scan.targetK) scan.candidates))) :
    scan.Leading := by
  intro tuple inside doc value misplaced
  rw [← length_before]
  refine TopK.le_before_of_not_mem_best (mem_candidates.mpr ⟨tuple, inside, doc, value, rfl⟩) ?_
  intro member
  obtain ⟨candidate, ranked, here⟩ := @exists_ranked _ scan _ _ member
  obtain ⟨other, found, entry⟩ := same.fetched candidate ranked
  have named : candidate.heaptid = tuple.tid := congrArg Candidate.heaptid here
  have root : other.root = tuple.tid := by
    rw [← named]
    simpa using List.find?_some found
  rw [← eq_of_tid_root inside (List.mem_of_find?_eq_some found) root.symm] at entry root
  rw [indexEntry] at entry
  split_ifs at entry with predicate
  exact misplaced ⟨predicate, root⟩

/-- **The fallback stands in for the index exactly when** the rows it would name wrongly, or that
the index does not cover, are behind as many others as it returns. -/
theorem fallback_interchangeable_iff (scan : PlainScan Row) :
    (∃ returned, scan.exactPlainFallback = .ok returned ∧ scan.Interchangeable returned) ↔
      scan.Served := by
  unfold Served
  split_ifs with plain
  · constructor
    · rintro ⟨returned, result, same⟩
      have fits (tuple : HeapTuple Row) (inside : tuple ∈ scan.tableScan) (doc : MultiVector)
          (value : scan.indexedValue tuple.row = some doc) : doc.dim = scan.query.dim :=
        exactPlainFallback_fits plain result inside value
      rw [exactPlainFallback_eq plain fits] at result
      cases result
      intro tuple inside doc value
      exact ⟨fits tuple inside doc value,
        leading_of_interchangeable same tuple inside doc value⟩
    · intro served
      refine ⟨_, exactPlainFallback_eq plain fun tuple inside doc value =>
        (served tuple inside doc value).1, interchangeable_of_leading ?_⟩
      intro tuple inside doc value
      exact (served tuple inside doc value).2
  · have result : scan.exactPlainFallback = .ok [] := if_neg plain
    constructor
    · rintro ⟨returned, result', same⟩
      rw [result] at result'
      cases result'
      have none : scan.covered.length = 0 := by
        have count := same.count
        have positive := docCandidateLimit_pos scan.targetK
        rw [List.length_nil] at count
        omega
      exact List.filterMap_eq_nil_iff.mp (List.length_eq_zero_iff.mp none)
    · intro uncovered
      have none : scan.covered = [] := List.filterMap_eq_nil_iff.mpr uncovered
      refine ⟨[], result, ⟨[], by rw [none]; exact List.Perm.refl _, by simp⟩, ?_, ?_, ?_⟩
      · rw [none]
        exact (Nat.min_zero _).symm
      · exact List.Pairwise.nil
      · simp

end PlainScan

/-! ### An updated row -/

theorem noContexts : ([] : List Nat) = [] ∨ ([] : List Nat).head? = some 0 := Or.inl rfl

theorem noOffsets_rising : ([] : List Nat).Pairwise (· < ·) := List.Pairwise.nil

def oneVector (value : Rat) : MultiVector where
  dim := 1
  values := [[value]]
  contextOffsets := []
  nonempty := List.cons_ne_nil _ _
  rows := fun _ here => congrArg List.length (List.mem_singleton.mp here)
  contexts := noContexts
  rising := noOffsets_rising
  inside := fun _ here => absurd here List.not_mem_nil

/-- A row updated in place: its chain starts at the first line pointer, the visible version is at
the second. -/
def updatedTuple : HeapTuple Unit := ⟨⟨0, 2⟩, ⟨0, 1⟩, ()⟩

def updatedTable : HeapRelation Unit where
  tuples := [updatedTuple]
  distinct := by simp
  rooted := by simp [updatedTuple]

def updatedScan : PlainScan Unit where
  desc := ⟨1, fun _ _ => some (oneVector 1)⟩
  index := ⟨1, fun _ => none, fun _ => true, false⟩
  heap := updatedTable
  snapshot := ⟨fun _ => true, by simp [updatedTable]⟩
  query := oneVector 1
  queryTokens := ⟨none, none, by simp⟩
  queryWeightSum := 1
  targetK := 10

/-- **The row of a HOT update** is returned under a pointer that no index fetch resolves. -/
theorem updated_not_interchangeable :
    ¬∃ returned, updatedScan.exactPlainFallback = .ok returned ∧
      updatedScan.Interchangeable returned := by
  rintro ⟨returned, result, same⟩
  have plain : updatedScan.PlainColumn := by decide
  have value : updatedScan.indexedValue () = some (oneVector 1) := if_pos plain
  rw [PlainScan.exactPlainFallback_eq plain fun tuple _ doc here => by
    rw [← Option.some.inj (value.symm.trans here)]
    rfl] at result
  cases result
  have few := PlainScan.leading_of_interchangeable same updatedTuple
    (List.mem_singleton.mpr rfl) (oneVector 1) value (by rintro ⟨-, here⟩; cases here)
  have one : updatedScan.tableScan.countP (updatedScan.ahead updatedTuple (oneVector 1)) ≤ 1 :=
    List.countP_le_length
  have limit : docCandidateLimit updatedScan.targetK = 10 := by decide
  omega

end TurboHybrid.PlainFallback
