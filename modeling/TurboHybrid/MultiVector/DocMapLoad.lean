/-
**The final checks of the document map's loader.**

After the last page the arrays must be full: every node and document seen once, every node inside
its document, and every section that the metapage's flags promise complete for every document.

* `finish_ok_iff`: the checks, as one predicate on the arrays.
-/
import TurboHybrid.MultiVector.DocMap

namespace TurboHybrid.DocMap

open TurboHybrid.Library

variable {F H Q : Type}

/-! ### What a load returns -/

/-- The loaded sidecar. A section that is not stored has no entries. -/
structure Sidecar (F : Type) where
  nodeMap : List NodeEntry
  docMap : List DocEntry
  documents : List (List F × Option ContextTable)
  centroids : List (Option (CentroidChunk F))
  centroidPostings : List (List PostingEntry)
  centroidDocCodes : List (List Nat)
  codebook : Option Codebook
  quantizedPostings : List (List PostingEntry)

section Storage

variable (meta' : DocMapMeta) (log : LoadLog F)

/-- The centroids of a document, put together from its tuples. -/
def LoadLog.centroidSet (docId : Nat) : Option (CentroidChunk F) :=
  (valuesAt log.centroids docId).head?.map fun first =>
    { first with values := log.centroidFloats docId }

/-- The posting lists, by codeword, each in the order of the tuples. -/
def postingLists (codewords : Nat) (postings : List (Nat × PostingEntry)) :
    List (List PostingEntry) :=
  (List.range codewords).map (valuesAt postings)

def docPostingCount (postings : List (Nat × PostingEntry)) (docId : Nat) : Nat :=
  postings.countP fun posting => posting.2.docId = docId

/-- The codes of a document in the order of its postings. -/
def postingCodes (postings : List (Nat × PostingEntry)) (docId : Nat) : List Nat :=
  (postings.filter fun posting => posting.2.docId = docId).map Prod.fst

def loadedDocCodes : List (List Nat) :=
  if meta'.hasCentroidDocCodes then (List.range meta'.docCount).map log.codes
  else if meta'.hasCentroidPostings then
    (List.range meta'.docCount).map (postingCodes log.centroidPostings)
  else []

def storage : Sidecar F where
  nodeMap := (List.range meta'.nodeCount).map log.nodeEntry
  docMap := (List.range meta'.docCount).map log.docEntry
  documents :=
    if meta'.hasDocVectors then
      (List.range meta'.docCount).map fun docId => (log.floats docId, log.context docId)
    else []
  centroids :=
    if meta'.hasCentroids then (List.range meta'.docCount).map log.centroidSet else []
  centroidPostings :=
    if meta'.hasCentroidPostings then postingLists meta'.codebookSize log.centroidPostings else []
  centroidDocCodes := loadedDocCodes meta' log
  codebook := if meta'.hasQuantizedPostings then log.codebooks.head? else none
  quantizedPostings :=
    if meta'.hasQuantizedPostings then
      postingLists (log.quantizedCodebookSize meta') log.quantizedPostings
    else []

/-! ### The final checks -/

def nodeMatches (nodeId : Nat) : Bool :=
  let node := log.nodeEntry nodeId
  let doc := log.docEntry node.docId
  decide (node.tokenOrdinal < doc.tokenCount) &&
    (if meta'.documentNodes then decide (nodeId = doc.firstNodeId)
      else decide (doc.firstNodeId ≤ nodeId ∧ nodeId < doc.firstNodeId + doc.tokenCount))

def vectorsCover (docId : Nat) : Bool :=
  (log.floats docId).length = (log.docEntry docId).tokenCount * meta'.dimensions

def expectedPostings (docId : Nat) : Nat := (log.docEntry docId).tokenCount * log.quantizedTopM

def quantizedPostingValid (posting : Nat × PostingEntry) : Bool :=
  posting.1 < log.quantizedCodebookSize meta' &&
    decide (posting.2.ordinal < (log.docEntry posting.2.docId).tokenCount)

def centroidsCover (docId : Nat) : Bool :=
  decide (docId ∈ log.centroids.map Prod.fst) &&
    decide ((log.centroidFloats docId).length = log.centroidCount docId * meta'.dimensions)

def centroidPostingValid (posting : Nat × PostingEntry) : Bool :=
  decide (posting.1 < meta'.codebookSize) &&
    decide (posting.2.docId ∈ log.centroids.map Prod.fst) &&
    decide (posting.2.ordinal < log.centroidCount posting.2.docId)

def checkQuantized : Except String Unit :=
  if meta'.hasQuantizedCodebook ∧ log.codebooks = [] then
    .error "quantized posting sidecar is missing codebook metadata"
  else if log.quantizedPostings.length ≠
      ((List.range meta'.docCount).map (expectedPostings log)).sum then
    .error "quantized posting sidecar does not cover every document token"
  else if log.quantizedPostings.all (quantizedPostingValid meta' log) = false then
    .error "quantized posting entry is invalid"
  else if (List.range meta'.docCount).all (fun docId =>
      docPostingCount log.quantizedPostings docId = expectedPostings log docId) = false then
    .error "quantized posting sidecar does not cover every document token"
  else .ok ()

def checkCentroids : Except String Unit :=
  if (List.range meta'.docCount).all (centroidsCover meta' log) = false then
    .error "document-node docmap does not cover every document centroid"
  else if meta'.hasCentroidPostings = false then .ok ()
  else if log.centroidPostings.length ≠
      ((List.range meta'.docCount).map log.centroidCount).sum then
    .error "centroid posting sidecar does not cover every document centroid"
  else if log.centroidPostings.all (centroidPostingValid meta' log) = false then
    .error "centroid posting entry is invalid"
  else if (List.range meta'.docCount).all (fun docId =>
      docPostingCount log.centroidPostings docId = log.centroidCount docId) = false then
    .error "centroid posting sidecar does not cover every document centroid"
  -- a sidecar without any code is left as not loaded
  else if meta'.hasCentroidDocCodes ∧ log.docCodes ≠ [] ∧
      (List.range meta'.docCount).all (fun docId => log.codes docId ≠ []) = false then
    .error "centroid doc-code sidecar does not cover every document"
  else .ok ()

/-- A check that is made only where its section is stored. -/
def checkWhen (stored : Bool) (check : Except String Unit) : Except String Unit :=
  if stored then check else .ok ()

/-- **The checks after the last page.** -/
def finish : Except String (Sidecar F) :=
  if log.nodes.length ≠ meta'.nodeCount ∨ log.docs.length ≠ meta'.docCount then
    .error "docmap sidecar does not cover every node and document"
  else if (List.range meta'.nodeCount).all (nodeMatches meta' log) = false then
    .error "node docmap entry does not match its document range"
  else if meta'.documentNodes = false then .ok (storage meta' log)
  else if meta'.hasDocVectors = false ∧ meta'.proxyOnlyDocMap = false ∧
      meta'.hasCentroids = false ∧ meta'.hasQuantizedPostings = false then
    .error "document-node docmap is missing document vector storage flag"
  else if meta'.hasDocVectors ∧
      (List.range meta'.docCount).all (vectorsCover meta' log) = false then
    .error "document-node docmap does not cover every document vector"
  else do
    checkWhen meta'.hasQuantizedPostings (checkQuantized meta' log)
    checkWhen meta'.hasCentroids (checkCentroids meta' log)
    .ok (storage meta' log)

/-- **The whole load.** -/
def loadDocMap (format : FloatFormat F H Q) (meta' : DocMapMeta)
    (pages : List (List (DocMapTuple F H Q))) : Except String (Sidecar F) :=
  if meta'.docMapStart = none then .error "multivector docmap sidecar is not available"
  else if meta'.docMapVersion ≠ docMapVersion then .error "unsupported docmap sidecar version"
  else if meta'.pageCount = 0 ∨ meta'.docCount = 0 then
    .error "docmap metapage counts are empty"
  else do
    let log ← loadPages format meta' meta'.pageCount {} pages
    finish meta' log

/-! ### The checks as one predicate -/

structure QuantizedComplete : Prop where
  codebook : meta'.hasQuantizedCodebook = true → log.codebooks ≠ []
  total : log.quantizedPostings.length =
    ((List.range meta'.docCount).map (expectedPostings log)).sum
  valid : ∀ posting ∈ log.quantizedPostings, posting.1 < log.quantizedCodebookSize meta' ∧
    posting.2.ordinal < (log.docEntry posting.2.docId).tokenCount
  each : ∀ docId < meta'.docCount,
    docPostingCount log.quantizedPostings docId = expectedPostings log docId

structure CentroidPostingsComplete : Prop where
  total : log.centroidPostings.length = ((List.range meta'.docCount).map log.centroidCount).sum
  valid : ∀ posting ∈ log.centroidPostings, posting.1 < meta'.codebookSize ∧
    posting.2.docId ∈ log.centroids.map Prod.fst ∧
    posting.2.ordinal < log.centroidCount posting.2.docId
  each : ∀ docId < meta'.docCount,
    docPostingCount log.centroidPostings docId = log.centroidCount docId
  codes : meta'.hasCentroidDocCodes = true → log.docCodes ≠ [] →
    ∀ docId < meta'.docCount, log.codes docId ≠ []

structure CentroidsComplete : Prop where
  each : ∀ docId < meta'.docCount, docId ∈ log.centroids.map Prod.fst ∧
    (log.centroidFloats docId).length = log.centroidCount docId * meta'.dimensions
  postings : meta'.hasCentroidPostings = true → CentroidPostingsComplete meta' log

structure Complete : Prop where
  nodes : log.nodes.length = meta'.nodeCount
  docs : log.docs.length = meta'.docCount
  matched : ∀ nodeId < meta'.nodeCount, nodeMatches meta' log nodeId = true
  sections : meta'.documentNodes = true → meta'.hasDocVectors = true ∨
    meta'.proxyOnlyDocMap = true ∨ meta'.hasCentroids = true ∨ meta'.hasQuantizedPostings = true
  vectors : meta'.hasDocVectors = true → ∀ docId < meta'.docCount,
    (log.floats docId).length = (log.docEntry docId).tokenCount * meta'.dimensions
  quantized : meta'.hasQuantizedPostings = true → QuantizedComplete meta' log
  centroids : meta'.hasCentroids = true → CentroidsComplete meta' log

variable {meta' log}

theorem all_range {n : Nat} {p : Nat → Bool} :
    (List.range n).all p = true ↔ ∀ i < n, p i = true := by
  simp [List.all_eq_true]

theorem checkQuantized_ok_iff : checkQuantized meta' log = .ok () ↔ QuantizedComplete meta' log := by
  constructor
  · intro passed
    unfold checkQuantized at passed
    split_ifs at passed with missing total valid each
    refine ⟨fun flag nil => missing ⟨flag, nil⟩, not_not.mp total, ?_, ?_⟩
    · rw [Bool.not_eq_false, List.all_eq_true] at valid
      intro posting member
      simpa [quantizedPostingValid] using valid posting member
    · rw [Bool.not_eq_false, all_range] at each
      intro docId below
      simpa using each docId below
  · intro complete
    unfold checkQuantized
    rw [if_neg (fun missing => complete.codebook missing.1 missing.2),
      if_neg (not_not.mpr complete.total), if_neg, if_neg]
    · rw [Bool.not_eq_false, all_range]
      intro docId below
      simpa using complete.each docId below
    · rw [Bool.not_eq_false, List.all_eq_true]
      intro posting member
      simpa [quantizedPostingValid] using complete.valid posting member

theorem checkCentroids_ok_iff :
    checkCentroids meta' log = .ok () ↔ CentroidsComplete meta' log := by
  have covered : (List.range meta'.docCount).all (centroidsCover meta' log) = true ↔
      ∀ docId < meta'.docCount, docId ∈ log.centroids.map Prod.fst ∧
        (log.centroidFloats docId).length = log.centroidCount docId * meta'.dimensions := by
    rw [all_range]
    simp [centroidsCover]
  have counted : (List.range meta'.docCount).all (fun docId =>
      decide (docPostingCount log.centroidPostings docId = log.centroidCount docId)) = true ↔
      ∀ docId < meta'.docCount,
        docPostingCount log.centroidPostings docId = log.centroidCount docId := by
    rw [all_range]
    simp
  have coded : (List.range meta'.docCount).all (fun docId => decide (log.codes docId ≠ [])) = true ↔
      ∀ docId < meta'.docCount, log.codes docId ≠ [] := by
    rw [all_range]
    simp
  constructor
  · intro passed
    unfold checkCentroids at passed
    split_ifs at passed with each plain total valid postings codes
    · rw [Bool.not_eq_false, covered] at each
      exact ⟨each, fun stored => by rw [plain] at stored; cases stored⟩
    · rw [Bool.not_eq_false, covered] at each
      rw [Bool.not_eq_false, List.all_eq_true] at valid
      rw [Bool.not_eq_false, counted] at postings
      refine ⟨each, fun _ => ⟨not_not.mp total, ?_, postings, ?_⟩⟩
      · intro posting member
        simpa [centroidPostingValid, and_assoc] using valid posting member
      · intro flag some
        rw [← coded]
        by_contra missing
        exact codes ⟨flag, some, by simpa using missing⟩
  · intro complete
    unfold checkCentroids
    rw [if_neg (by rw [Bool.not_eq_false, covered]; exact complete.each)]
    split_ifs with plain total valid each codes
    · rfl
    · exact absurd (complete.postings (by simpa using plain)).total total
    · exfalso
      refine absurd valid (Bool.not_eq_false _ ▸ List.all_eq_true.mpr ?_)
      intro posting member
      simpa [centroidPostingValid, and_assoc] using
        (complete.postings (by simpa using plain)).valid posting member
    · exfalso
      exact absurd each (Bool.not_eq_false _ ▸
        counted.mpr (complete.postings (by simpa using plain)).each)
    · exfalso
      obtain ⟨flag, some, missing⟩ := codes
      exact absurd missing (Bool.not_eq_false _ ▸
        coded.mpr ((complete.postings (by simpa using plain)).codes flag some))
    · rfl

theorem checkWhen_ok_iff {stored : Bool} {check : Except String Unit} {value : Unit} :
    checkWhen stored check = .ok value ↔ (stored = true → check = .ok ()) := by
  unfold checkWhen
  cases stored
  · simp
  · simp

/-- **The final checks.** -/
theorem finish_ok_iff {out : Sidecar F} :
    finish meta' log = .ok out ↔ Complete meta' log ∧ out = storage meta' log := by
  constructor
  · intro passed
    unfold finish at passed
    split_ifs at passed with counts matched tokens missing vectors
    · push Not at counts
      rw [Bool.not_eq_false, all_range] at matched
      have absent {flag : Prop} (implies : flag → meta'.documentNodes = true) : ¬flag := by
        intro holds
        rw [implies holds] at tokens
        cases tokens
      refine ⟨⟨counts.1, counts.2, matched, fun nodes => (absent id nodes).elim, ?_, ?_, ?_⟩,
        (Except.ok.inj passed).symm⟩
      · exact fun stored => (absent hasDocVectors_documentNodes stored).elim
      · exact fun stored => (absent hasQuantizedPostings_documentNodes stored).elim
      · exact fun stored => (absent hasCentroids_documentNodes stored).elim
    · push Not at counts
      rw [Bool.not_eq_false, all_range] at matched
      obtain ⟨_, quantized, passed⟩ := bind_ok passed
      obtain ⟨_, centroids, same⟩ := bind_ok passed
      rw [checkWhen_ok_iff] at quantized centroids
      refine ⟨⟨counts.1, counts.2, matched, ?_, ?_, ?_, ?_⟩, (Except.ok.inj same).symm⟩
      · intro _
        by_contra absent
        push Not at absent
        exact missing (by simpa using absent)
      · intro stored docId below
        by_contra short
        refine vectors ⟨stored, ?_⟩
        rw [← Bool.not_eq_true, all_range]
        exact fun all => short (by simpa [vectorsCover] using all docId below)
      · exact fun stored => checkQuantized_ok_iff.mp (quantized stored)
      · exact fun stored => checkCentroids_ok_iff.mp (centroids stored)
  · rintro ⟨complete, rfl⟩
    unfold finish
    rw [if_neg (by
        rintro (nodes | docs)
        · exact nodes complete.nodes
        · exact docs complete.docs),
      if_neg (by rw [Bool.not_eq_false, all_range]; exact complete.matched)]
    split_ifs with tokens missing vectors
    · rfl
    · exfalso
      rcases complete.sections (by simpa using tokens) with stored | stored | stored | stored
      · rw [missing.1] at stored
        cases stored
      · rw [missing.2.1] at stored
        cases stored
      · rw [missing.2.2.1] at stored
        cases stored
      · rw [missing.2.2.2] at stored
        cases stored
    · exfalso
      obtain ⟨stored, short⟩ := vectors
      rw [← Bool.not_eq_true, all_range] at short
      exact short fun docId below => by
        simpa [vectorsCover] using complete.vectors stored docId below
    · exact bind_ok_iff.mpr ⟨(), checkWhen_ok_iff.mpr fun stored =>
          checkQuantized_ok_iff.mpr (complete.quantized stored),
        bind_ok_iff.mpr ⟨(), checkWhen_ok_iff.mpr fun stored =>
          checkCentroids_ok_iff.mpr (complete.centroids stored), rfl⟩⟩

end Storage

end TurboHybrid.DocMap
