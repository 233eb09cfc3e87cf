/-
**The document map of a multi-vector index and its loader.**

The map is a chain of pages with tuples of twelve kinds: which document and token a graph node
stands for, the documents, and per document its vectors, contexts, centroids, codes and postings.
The loader reads the tuples in chain order into arrays, rejecting a tuple that does not fit what it
has read, and then checks that the arrays are complete.

* `loadTuple_ok_iff`: what the loader accepts, tuple by tuple, and what it has then written.
-/
import TurboHybrid.Library.KeyedLog
import TurboHybrid.Library.Results
import Mathlib.Algebra.BigOperators.Group.List.Basic
import Mathlib.Algebra.GroupWithZero.Nat

set_option linter.unusedSectionVars false

namespace TurboHybrid.DocMap

open TurboHybrid.Library

/-! ### Tuples -/

structure NodeEntry where
  docId : Nat
  tokenOrdinal : Nat
  deriving DecidableEq, Repr

structure DocEntry where
  heapTid : Nat × Nat
  firstNodeId : Nat
  tokenCount : Nat
  originalTokenCount : Nat
  pooledTokenCount : Nat
  deriving DecidableEq, Repr

/-- An entry of a centroid or a quantized posting list. -/
structure PostingEntry where
  docId : Nat
  ordinal : Nat
  scorePayload : Nat
  deriving DecidableEq, Repr

structure ContextTable where
  offsets : List Int
  fields : Option (List Int)
  deriving DecidableEq, Repr

structure Codebook where
  external : Bool
  dim : Nat
  codebookSize : Nat
  topM : Nat
  checksum : String
  deriving DecidableEq, Repr

/-- The three ways a float is stored: as itself, as a half, and as a byte under a scale. -/
structure FloatFormat (F H Q : Type) where
  isFinite : F → Bool
  isPositive : F → Bool
  floatToHalf : F → H
  halfToFloat : H → F
  docCompactSq8Scale : List F → F
  quantize : F → F → Q
  dequantize : F → Q → F

inductive DocMapTuple (F H Q : Type)
  | node (firstNodeId : Nat) (entries : List NodeEntry)
  | doc (firstDocId : Nat) (entries : List DocEntry)
  | vector (docId startFloat : Nat) (values : List F)
  | vectorF16 (docId startFloat : Nat) (values : List H)
  | vectorSq8 (docId startFloat : Nat) (scale : F) (values : List Q)
  | context (docId : Nat) (table : ContextTable)
  | centroid (docId centroidCount startFloat : Nat) (residualMean : F) (values : List F)
  | centroidF16 (docId centroidCount startFloat : Nat) (residualMean : F) (values : List H)
  | centroidDocCode (docId codebookSize startCode : Nat) (codes : List Nat)
  | centroidPosting (codeword startOffset : Nat) (entries : List PostingEntry)
  | quantizedCodebook (codebook : Codebook)
  | quantizedPosting (codeword startOffset : Nat) (entries : List PostingEntry)

/-! ### The metapage -/

structure DocMapFlags where
  docVectors : Bool
  centroids : Bool
  centroidsF16 : Bool
  centroidPostings : Bool
  centroidDocCodes : Bool
  quantizedPostings : Bool
  quantizedCodebook : Bool
  proxyOnly : Bool
  contexts : Bool
  deriving DecidableEq, Repr

/-- The fields of the metapage that the loader and the writers read. -/
structure DocMapMeta where
  documentNodes : Bool
  dimensions : Nat
  nodeCount : Nat
  docMapStart : Option Nat
  pageCount : Nat
  docCount : Nat
  docMapVersion : Nat
  flags : DocMapFlags
  deriving DecidableEq, Repr

def docMapVersion : Nat := 4

namespace DocMapMeta

variable (meta' : DocMapMeta)

def hasDocVectors : Bool := meta'.documentNodes && meta'.flags.docVectors

def hasCentroids : Bool := meta'.documentNodes && meta'.flags.centroids

def hasCentroidPostings : Bool := meta'.hasCentroids && meta'.flags.centroidPostings

def hasCentroidDocCodes : Bool := meta'.hasCentroidPostings && meta'.flags.centroidDocCodes

def hasQuantizedPostings : Bool := meta'.documentNodes && meta'.flags.quantizedPostings

def hasQuantizedCodebook : Bool := meta'.hasQuantizedPostings && meta'.flags.quantizedCodebook

def proxyOnlyDocMap : Bool := meta'.documentNodes && meta'.flags.proxyOnly

def codebookSize : Nat := meta'.dimensions * 2

end DocMapMeta

/-! ### The loader's arrays -/

structure CentroidChunk (F : Type) where
  centroidCount : Nat
  residualMean : F
  values : List F

/-- The loader's arrays, as the entries written to them in order. -/
structure LoadLog (F : Type) where
  nodes : List (Nat × NodeEntry) := []
  docs : List (Nat × DocEntry) := []
  vectors : List (Nat × List F) := []
  contexts : List (Nat × ContextTable) := []
  centroids : List (Nat × CentroidChunk F) := []
  docCodes : List (Nat × List Nat) := []
  centroidPostings : List (Nat × PostingEntry) := []
  codebooks : List Codebook := []
  quantizedPostings : List (Nat × PostingEntry) := []

variable {F H Q : Type}

namespace LoadLog

def append (one other : LoadLog F) : LoadLog F where
  nodes := one.nodes ++ other.nodes
  docs := one.docs ++ other.docs
  vectors := one.vectors ++ other.vectors
  contexts := one.contexts ++ other.contexts
  centroids := one.centroids ++ other.centroids
  docCodes := one.docCodes ++ other.docCodes
  centroidPostings := one.centroidPostings ++ other.centroidPostings
  codebooks := one.codebooks ++ other.codebooks
  quantizedPostings := one.quantizedPostings ++ other.quantizedPostings

instance : Append (LoadLog F) := ⟨append⟩

section Fields

variable (one other : LoadLog F)

@[simp] theorem append_nodes : (one ++ other).nodes = one.nodes ++ other.nodes := rfl
@[simp] theorem append_docs : (one ++ other).docs = one.docs ++ other.docs := rfl
@[simp] theorem append_vectors : (one ++ other).vectors = one.vectors ++ other.vectors := rfl
@[simp] theorem append_contexts : (one ++ other).contexts = one.contexts ++ other.contexts := rfl
@[simp] theorem append_centroids :
    (one ++ other).centroids = one.centroids ++ other.centroids := rfl
@[simp] theorem append_docCodes : (one ++ other).docCodes = one.docCodes ++ other.docCodes := rfl
@[simp] theorem append_centroidPostings :
    (one ++ other).centroidPostings = one.centroidPostings ++ other.centroidPostings := rfl
@[simp] theorem append_codebooks :
    (one ++ other).codebooks = one.codebooks ++ other.codebooks := rfl
@[simp] theorem append_quantizedPostings :
    (one ++ other).quantizedPostings = one.quantizedPostings ++ other.quantizedPostings := rfl

end Fields

theorem ext_fields {one other : LoadLog F} (nodes : one.nodes = other.nodes)
    (docs : one.docs = other.docs) (vectors : one.vectors = other.vectors)
    (contexts : one.contexts = other.contexts) (centroids : one.centroids = other.centroids)
    (docCodes : one.docCodes = other.docCodes)
    (centroidPostings : one.centroidPostings = other.centroidPostings)
    (codebooks : one.codebooks = other.codebooks)
    (quantizedPostings : one.quantizedPostings = other.quantizedPostings) : one = other := by
  cases one
  cases other
  simp_all

@[simp] theorem append_empty (log : LoadLog F) : log ++ ({} : LoadLog F) = log := by
  apply ext_fields <;> simp

@[simp] theorem empty_append (log : LoadLog F) : ({} : LoadLog F) ++ log = log := by
  apply ext_fields <;> simp

theorem append_assoc (one two three : LoadLog F) : one ++ two ++ three = one ++ (two ++ three) := by
  apply ext_fields <;> simp

/-- The node entry in the array, with the cleared entry where nothing was written. -/
def nodeEntry (log : LoadLog F) (nodeId : Nat) : NodeEntry :=
  ((valuesAt log.nodes nodeId).head?).getD ⟨0, 0⟩

def docEntry (log : LoadLog F) (docId : Nat) : DocEntry :=
  ((valuesAt log.docs docId).head?).getD ⟨(0, 0), 0, 0, 0, 0⟩

def floats (log : LoadLog F) (docId : Nat) : List F := (valuesAt log.vectors docId).flatten

def context (log : LoadLog F) (docId : Nat) : Option ContextTable :=
  (valuesAt log.contexts docId).head?

def centroidFloats (log : LoadLog F) (docId : Nat) : List F :=
  ((valuesAt log.centroids docId).map CentroidChunk.values).flatten

/-- The centroid count of a document's first centroid tuple, zero where there is none. -/
def centroidCount (log : LoadLog F) (docId : Nat) : Nat :=
  ((valuesAt log.centroids docId).head?.map CentroidChunk.centroidCount).getD 0

def codes (log : LoadLog F) (docId : Nat) : List Nat := (valuesAt log.docCodes docId).flatten

def quantizedCodebookSize (meta' : DocMapMeta) (log : LoadLog F) : Nat :=
  (log.codebooks.head?.map Codebook.codebookSize).getD meta'.codebookSize

def quantizedTopM (log : LoadLog F) : Nat :=
  max ((log.codebooks.head?.map Codebook.topM).getD 1) 1

end LoadLog

/-! ### Loading one tuple -/

/-- One loop over the entries of a node or a document tuple: each goes to a slot of its own. -/
def keepEntries {α : Type} (fits : α → Bool) (message : String) :
    List (Nat × α) → List (Nat × α) → Except String (List (Nat × α))
  | seen, [] => .ok seen
  | seen, (slot, entry) :: rest =>
    if slot ∈ seen.map Prod.fst ∨ fits entry = false then .error message
    else keepEntries fits message (seen ++ [(slot, entry)]) rest

/-- The checks of a context table against the document's vector count. -/
def validateContexts (count : Nat) (table : ContextTable) : Bool :=
  decide (table.offsets ≠ []) && decide (table.offsets.length ≤ count) &&
    decide (table.offsets.head? = some 0) &&
    table.offsets.all (fun offset => decide (0 ≤ offset ∧ offset < count)) &&
    decide (table.offsets.Pairwise (· < ·)) &&
    (match table.fields with
      | none => true
      | some fields =>
        decide (fields.length = table.offsets.length) && fields.all fun field => decide (0 ≤ field))

section Loader

variable (format : FloatFormat F H Q) (meta' : DocMapMeta)

def docEntryFits (entry : DocEntry) : Bool :=
  decide (entry.tokenCount ≠ 0 ∧ entry.firstNodeId < meta'.nodeCount) &&
    (meta'.documentNodes || decide (entry.firstNodeId + entry.tokenCount ≤ meta'.nodeCount))

def loadVector (log : LoadLog F) (docId startFloat : Nat) (wellFormed : Bool) (values : List F) :
    Except String (LoadLog F) :=
  if meta'.documentNodes = false then
    .error "document vector tuple found in token-node docmap"
  else if meta'.hasDocVectors = false then
    .error "document vector tuple found without document vector storage flag"
  else if values = [] ∨ wellFormed = false ∨ meta'.docCount ≤ docId then
    .error "malformed document vector tuple"
  else if docId ∉ log.docs.map Prod.fst then .error "document vector tuple range is invalid"
  else if (log.docEntry docId).tokenCount * meta'.dimensions < startFloat + values.length then
    .error "document vector tuple range is invalid"
  else if startFloat ≠ (log.floats docId).length then
    .error "document vector tuple chunks are not contiguous"
  else .ok { log with vectors := log.vectors ++ [(docId, values)] }

/-- `kind` is the name of the tuple in the messages. -/
def loadCentroid (kind : String) (log : LoadLog F) (docId centroidCount startFloat : Nat)
    (residualMean : F) (allowed : Bool) (values : List F) : Except String (LoadLog F) :=
  if meta'.documentNodes = false then .error (kind ++ " tuple found in token-node docmap")
  else if meta'.hasCentroids = false then
    .error (kind ++ " tuple found without centroid storage flag")
  else if allowed = false then .error (kind ++ " tuple found without f16 centroid storage flag")
  else if values = [] ∨ meta'.docCount ≤ docId ∨ centroidCount = 0 then
    .error ("malformed " ++ kind ++ " tuple")
  else if docId ∉ log.docs.map Prod.fst then .error (kind ++ " tuple range is invalid")
  else if centroidCount * meta'.dimensions < startFloat + values.length then
    .error (kind ++ " tuple range is invalid")
  else if valuesAt log.centroids docId ≠ [] ∧ log.centroidCount docId ≠ centroidCount then
    .error (kind ++ " tuple count changed across chunks")
  else if startFloat ≠ (log.centroidFloats docId).length then
    .error (kind ++ " tuple chunks are not contiguous")
  else .ok { log with centroids := log.centroids ++ [(docId, ⟨centroidCount, residualMean, values⟩)] }

def loadContext (log : LoadLog F) (docId : Nat) (table : ContextTable) :
    Except String (LoadLog F) :=
  if meta'.documentNodes = false then
    .error "document context tuple found in token-node docmap"
  else if meta'.hasDocVectors = false then
    .error "document context tuple found without document vector storage flag"
  else if table.offsets = [] ∨ meta'.docCount ≤ docId then
    .error "malformed document context tuple"
  else if docId ∉ log.docs.map Prod.fst then .error "document context tuple range is invalid"
  else if (log.docEntry docId).tokenCount < table.offsets.length then
    .error "document context tuple range is invalid"
  else if log.context docId ≠ none then .error "duplicate document context tuple"
  -- the check of the value that the table has been added to
  else if (log.floats docId).all format.isFinite = false then
    .error "multivector cannot contain NaN or infinite values"
  else if validateContexts (log.docEntry docId).tokenCount table = false then
    .error "malformed multivector value"
  else .ok { log with contexts := log.contexts ++ [(docId, table)] }

def loadCentroidDocCode (log : LoadLog F) (docId codebookSize startCode : Nat)
    (codes : List Nat) : Except String (LoadLog F) :=
  if meta'.documentNodes = false then
    .error "centroid doc-code tuple found in token-node docmap"
  else if meta'.hasCentroidDocCodes = false then
    .error "centroid doc-code tuple found without doc-code storage flag"
  else if codes = [] ∨ meta'.docCount ≤ docId ∨ codebookSize ≠ meta'.codebookSize ∨
      startCode ≠ (log.codes docId).length then
    .error "malformed centroid doc-code tuple"
  else if ∃ code ∈ codes, meta'.codebookSize ≤ code then
    .error "centroid doc-code tuple codeword is invalid"
  else .ok { log with docCodes := log.docCodes ++ [(docId, codes)] }

def loadCentroidPosting (log : LoadLog F) (codeword : Nat) (entries : List PostingEntry) :
    Except String (LoadLog F) :=
  if meta'.documentNodes = false then
    .error "centroid posting tuple found in token-node docmap"
  else if meta'.hasCentroidPostings = false then
    .error "centroid posting tuple found without posting storage flag"
  else if entries = [] ∨ meta'.codebookSize ≤ codeword then
    .error "malformed centroid posting tuple"
  else if ∃ entry ∈ entries, meta'.docCount ≤ entry.docId then
    .error "centroid posting entry is invalid"
  else
    .ok { log with
      centroidPostings := log.centroidPostings ++ entries.map fun entry => (codeword, entry) }

def loadQuantizedCodebook (log : LoadLog F) (codebook : Codebook) : Except String (LoadLog F) :=
  if meta'.documentNodes = false then
    .error "quantized codebook tuple found in token-node docmap"
  else if meta'.hasQuantizedCodebook = false then
    .error "quantized codebook tuple found without quantized posting metadata flag"
  else if log.codebooks ≠ [] then .error "duplicate quantized codebook metadata tuple"
  else if codebook.dim ≠ meta'.dimensions ∨ codebook.codebookSize = 0 ∨ codebook.topM = 0 then
    .error "malformed quantized codebook metadata tuple"
  else .ok { log with codebooks := log.codebooks ++ [codebook] }

def loadQuantizedPosting (log : LoadLog F) (codeword : Nat) (entries : List PostingEntry) :
    Except String (LoadLog F) :=
  if meta'.documentNodes = false then
    .error "quantized posting tuple found in token-node docmap"
  else if meta'.hasQuantizedPostings = false then
    .error "quantized posting tuple found without posting storage flag"
  else if meta'.hasQuantizedCodebook ∧ log.codebooks = [] then
    .error "quantized posting tuple found before codebook metadata"
  else if entries = [] ∨ log.quantizedCodebookSize meta' ≤ codeword then
    .error "malformed quantized posting tuple"
  else if ∃ entry ∈ entries, meta'.docCount ≤ entry.docId then
    .error "quantized posting entry is invalid"
  else
    .ok { log with
      quantizedPostings := log.quantizedPostings ++ entries.map fun entry => (codeword, entry) }

/-- **One tuple of the chain.** -/
def loadTuple (log : LoadLog F) : DocMapTuple F H Q → Except String (LoadLog F)
  | .node firstNodeId entries =>
    if entries = [] then .error "malformed node docmap tuple"
    else if meta'.nodeCount < firstNodeId + entries.length then
      .error "node docmap tuple range is invalid"
    else do
      let nodes ← keepEntries (fun entry => decide (entry.docId < meta'.docCount))
        "node docmap entry is invalid" log.nodes (numbered firstNodeId entries)
      .ok { log with nodes := nodes }
  | .doc firstDocId entries =>
    if entries = [] then .error "malformed document docmap tuple"
    else if meta'.docCount < firstDocId + entries.length then
      .error "document docmap tuple range is invalid"
    else do
      let docs ← keepEntries (docEntryFits meta') "document docmap entry is invalid" log.docs
        (numbered firstDocId entries)
      .ok { log with docs := docs }
  | .vector docId startFloat values => loadVector meta' log docId startFloat true values
  | .vectorF16 docId startFloat values =>
    loadVector meta' log docId startFloat true (values.map format.halfToFloat)
  | .vectorSq8 docId startFloat scale values =>
    loadVector meta' log docId startFloat (format.isFinite scale && format.isPositive scale)
      (values.map (format.dequantize scale))
  | .context docId table => loadContext format meta' log docId table
  | .centroid docId centroidCount startFloat residualMean values =>
    loadCentroid meta' "document centroid" log docId centroidCount startFloat residualMean true
      values
  | .centroidF16 docId centroidCount startFloat residualMean values =>
    loadCentroid meta' "document f16 centroid" log docId centroidCount startFloat residualMean
      meta'.flags.centroidsF16 (values.map format.halfToFloat)
  | .centroidDocCode docId codebookSize startCode codes =>
    loadCentroidDocCode meta' log docId codebookSize startCode codes
  | .centroidPosting codeword _ entries => loadCentroidPosting meta' log codeword entries
  | .quantizedCodebook codebook => loadQuantizedCodebook meta' log codebook
  | .quantizedPosting codeword _ entries => loadQuantizedPosting meta' log codeword entries

def loadTuples (log : LoadLog F) : List (DocMapTuple F H Q) → Except String (LoadLog F)
  | [] => .ok log
  | tuple :: rest => do
    let log ← loadTuple format meta' log tuple
    loadTuples log rest

def loadPages : Nat → LoadLog F → List (List (DocMapTuple F H Q)) → Except String (LoadLog F)
  | 0, log, _ => .ok log
  | _ + 1, _, [] => .error "docmap page chain ended early"
  | left + 1, log, page :: rest => do
    let log ← loadTuples format meta' log page
    loadPages left log rest

end Loader

/-! ### What one tuple needs, and what it adds -/

section Accepting

variable (format : FloatFormat F H Q) (meta' : DocMapMeta)

def vectorChunk (docId : Nat) (values : List F) : LoadLog F := { vectors := [(docId, values)] }

def centroidChunk (docId centroidCount : Nat) (residualMean : F) (values : List F) : LoadLog F :=
  { centroids := [(docId, ⟨centroidCount, residualMean, values⟩)] }

def contribution : DocMapTuple F H Q → LoadLog F
  | .node firstNodeId entries => { nodes := numbered firstNodeId entries }
  | .doc firstDocId entries => { docs := numbered firstDocId entries }
  | .vector docId _ values => vectorChunk docId values
  | .vectorF16 docId _ values => vectorChunk docId (values.map format.halfToFloat)
  | .vectorSq8 docId _ scale values => vectorChunk docId (values.map (format.dequantize scale))
  | .context docId table => { contexts := [(docId, table)] }
  | .centroid docId centroidCount _ residualMean values =>
    centroidChunk docId centroidCount residualMean values
  | .centroidF16 docId centroidCount _ residualMean values =>
    centroidChunk docId centroidCount residualMean (values.map format.halfToFloat)
  | .centroidDocCode docId _ _ codes => { docCodes := [(docId, codes)] }
  | .centroidPosting codeword _ entries =>
    { centroidPostings := entries.map fun entry => (codeword, entry) }
  | .quantizedCodebook codebook => { codebooks := [codebook] }
  | .quantizedPosting codeword _ entries =>
    { quantizedPostings := entries.map fun entry => (codeword, entry) }

structure AcceptsVector (log : LoadLog F) (docId startFloat : Nat) (wellFormed : Bool)
    (values : List F) : Prop where
  stored : meta'.hasDocVectors = true
  nonempty : values ≠ []
  wellFormed : wellFormed = true
  inRange : docId < meta'.docCount
  seen : docId ∈ log.docs.map Prod.fst
  fits : startFloat + values.length ≤ (log.docEntry docId).tokenCount * meta'.dimensions
  contiguous : startFloat = (log.floats docId).length

structure AcceptsCentroid (log : LoadLog F) (docId centroidCount startFloat : Nat)
    (allowed : Bool) (values : List F) : Prop where
  stored : meta'.hasCentroids = true
  allowed : allowed = true
  nonempty : values ≠ []
  inRange : docId < meta'.docCount
  positive : centroidCount ≠ 0
  seen : docId ∈ log.docs.map Prod.fst
  fits : startFloat + values.length ≤ centroidCount * meta'.dimensions
  same : valuesAt log.centroids docId = [] ∨ log.centroidCount docId = centroidCount
  contiguous : startFloat = (log.centroidFloats docId).length

structure AcceptsContext (log : LoadLog F) (docId : Nat) (table : ContextTable) : Prop where
  stored : meta'.hasDocVectors = true
  nonempty : table.offsets ≠ []
  inRange : docId < meta'.docCount
  seen : docId ∈ log.docs.map Prod.fst
  fits : table.offsets.length ≤ (log.docEntry docId).tokenCount
  single : log.context docId = none
  finite : (log.floats docId).all format.isFinite = true
  valid : validateContexts (log.docEntry docId).tokenCount table = true

structure AcceptsDocCode (log : LoadLog F) (docId codebookSize startCode : Nat)
    (codes : List Nat) : Prop where
  stored : meta'.hasCentroidDocCodes = true
  nonempty : codes ≠ []
  inRange : docId < meta'.docCount
  codebook : codebookSize = meta'.codebookSize
  contiguous : startCode = (log.codes docId).length
  below : ∀ code ∈ codes, code < meta'.codebookSize

structure AcceptsCentroidPosting (codeword : Nat) (entries : List PostingEntry) : Prop where
  stored : meta'.hasCentroidPostings = true
  nonempty : entries ≠ []
  below : codeword < meta'.codebookSize
  inRange : ∀ entry ∈ entries, entry.docId < meta'.docCount

structure AcceptsCodebook (log : LoadLog F) (codebook : Codebook) : Prop where
  stored : meta'.hasQuantizedCodebook = true
  single : log.codebooks = []
  sameDim : codebook.dim = meta'.dimensions
  sized : codebook.codebookSize ≠ 0
  topM : codebook.topM ≠ 0

structure AcceptsQuantizedPosting (log : LoadLog F) (codeword : Nat)
    (entries : List PostingEntry) : Prop where
  stored : meta'.hasQuantizedPostings = true
  codebook : meta'.hasQuantizedCodebook = true → log.codebooks ≠ []
  nonempty : entries ≠ []
  below : codeword < log.quantizedCodebookSize meta'
  inRange : ∀ entry ∈ entries, entry.docId < meta'.docCount

/-- Each entry has a slot of its own in a list, free so far. -/
structure AcceptsEntries {α : Type} (fits : α → Bool) (bound : Nat) (seen : List (Nat × α))
    (first : Nat) (entries : List α) : Prop where
  nonempty : entries ≠ []
  inRange : first + entries.length ≤ bound
  fits : ∀ entry ∈ entries, fits entry = true
  free : ∀ slot ∈ seen.map Prod.fst, slot < first ∨ first + entries.length ≤ slot

/-- What the loader needs of a tuple, given what it has read. -/
def Accepts (log : LoadLog F) : DocMapTuple F H Q → Prop
  | .node firstNodeId entries =>
    AcceptsEntries (fun entry => decide (entry.docId < meta'.docCount)) meta'.nodeCount log.nodes
      firstNodeId entries
  | .doc firstDocId entries =>
    AcceptsEntries (docEntryFits meta') meta'.docCount log.docs firstDocId entries
  | .vector docId startFloat values => AcceptsVector meta' log docId startFloat true values
  | .vectorF16 docId startFloat values =>
    AcceptsVector meta' log docId startFloat true (values.map format.halfToFloat)
  | .vectorSq8 docId startFloat scale values =>
    AcceptsVector meta' log docId startFloat (format.isFinite scale && format.isPositive scale)
      (values.map (format.dequantize scale))
  | .context docId table => AcceptsContext format meta' log docId table
  | .centroid docId centroidCount startFloat _ values =>
    AcceptsCentroid meta' log docId centroidCount startFloat true values
  | .centroidF16 docId centroidCount startFloat _ values =>
    AcceptsCentroid meta' log docId centroidCount startFloat meta'.flags.centroidsF16
      (values.map format.halfToFloat)
  | .centroidDocCode docId codebookSize startCode codes =>
    AcceptsDocCode meta' log docId codebookSize startCode codes
  | .centroidPosting codeword _ entries => AcceptsCentroidPosting meta' codeword entries
  | .quantizedCodebook codebook => AcceptsCodebook meta' log codebook
  | .quantizedPosting codeword _ entries => AcceptsQuantizedPosting meta' log codeword entries

theorem keepEntries_ok_iff {α : Type} {fits : α → Bool} {message : String} {first : Nat}
    {entries : List α} {seen out : List (Nat × α)} :
    keepEntries fits message seen (numbered first entries) = .ok out ↔
      (∀ entry ∈ entries, fits entry = true) ∧
      (∀ slot ∈ seen.map Prod.fst, slot < first ∨ first + entries.length ≤ slot) ∧
      out = seen ++ numbered first entries := by
  induction entries generalizing first seen with
  | nil =>
      simp only [numbered_nil, keepEntries, List.append_nil, Except.ok.injEq, List.length_nil]
      constructor
      · rintro rfl
        exact ⟨by simp, fun slot _ => by omega, rfl⟩
      · rintro ⟨-, -, rfl⟩
        rfl
  | cons entry rest ih =>
      rw [numbered_cons, keepEntries]
      split_ifs with rejected
      · simp only [false_iff]
        rintro ⟨fit, free, -⟩
        rcases rejected with taken | misfit
        · have := free first taken
          rw [List.length_cons] at this
          omega
        · rw [fit entry (List.mem_cons_self ..)] at misfit
          cases misfit
      · push Not at rejected
        obtain ⟨untaken, fit⟩ := rejected
        rw [ih, List.append_assoc, List.singleton_append]
        refine and_congr ?_ (and_congr ?_ Iff.rfl)
        · rw [List.forall_mem_cons]
          simp only [ne_eq, Bool.not_eq_false] at fit
          simp [fit]
        · simp only [List.map_append, List.map_cons, List.map_nil, List.mem_append,
            List.mem_singleton, List.length_cons]
          constructor
          · intro free slot member
            have apart := free slot (.inl member)
            have differs : slot ≠ first := fun same => untaken (same ▸ member)
            omega
          · rintro free slot (member | rfl)
            · have := free slot member
              omega
            · omega

variable {meta'}

theorem hasDocVectors_documentNodes (stored : meta'.hasDocVectors = true) :
    meta'.documentNodes = true := by
  simp only [DocMapMeta.hasDocVectors, Bool.and_eq_true] at stored
  exact stored.1

theorem hasCentroids_documentNodes (stored : meta'.hasCentroids = true) :
    meta'.documentNodes = true := by
  simp only [DocMapMeta.hasCentroids, Bool.and_eq_true] at stored
  exact stored.1

theorem hasCentroidPostings_documentNodes (stored : meta'.hasCentroidPostings = true) :
    meta'.documentNodes = true := by
  simp only [DocMapMeta.hasCentroidPostings, Bool.and_eq_true] at stored
  exact hasCentroids_documentNodes stored.1

theorem hasCentroidDocCodes_documentNodes (stored : meta'.hasCentroidDocCodes = true) :
    meta'.documentNodes = true := by
  simp only [DocMapMeta.hasCentroidDocCodes, Bool.and_eq_true] at stored
  exact hasCentroidPostings_documentNodes stored.1

theorem hasQuantizedPostings_documentNodes (stored : meta'.hasQuantizedPostings = true) :
    meta'.documentNodes = true := by
  simp only [DocMapMeta.hasQuantizedPostings, Bool.and_eq_true] at stored
  exact stored.1

theorem hasQuantizedCodebook_documentNodes (stored : meta'.hasQuantizedCodebook = true) :
    meta'.documentNodes = true := by
  simp only [DocMapMeta.hasQuantizedCodebook, Bool.and_eq_true] at stored
  exact hasQuantizedPostings_documentNodes stored.1

variable (meta')

theorem loadVector_ok_iff {log out : LoadLog F} {docId startFloat : Nat} {wellFormed : Bool}
    {values : List F} :
    loadVector meta' log docId startFloat wellFormed values = .ok out ↔
      AcceptsVector meta' log docId startFloat wellFormed values ∧
        out = log ++ vectorChunk docId values := by
  have added : ({ log with vectors := log.vectors ++ [(docId, values)] } : LoadLog F) =
      log ++ vectorChunk docId values := by apply LoadLog.ext_fields <;> simp [vectorChunk]
  constructor
  · intro loaded
    unfold loadVector at loaded
    split_ifs at loaded with nodes stored malformed unseen wide gap
    push Not at malformed
    refine ⟨⟨by simpa using stored, malformed.1, by simpa using malformed.2.1, malformed.2.2,
      unseen, by omega, not_not.mp gap⟩, ?_⟩
    rw [← added]
    exact (Except.ok.inj loaded).symm
  · rintro ⟨accepts, rfl⟩
    unfold loadVector
    rw [if_neg (by rw [hasDocVectors_documentNodes accepts.stored]; decide),
      if_neg (by rw [accepts.stored]; decide),
      if_neg (by
        rintro (nil | bad | outside)
        · exact accepts.nonempty nil
        · rw [accepts.wellFormed] at bad
          cases bad
        · exact absurd accepts.inRange (by omega)),
      if_neg (not_not.mpr accepts.seen), if_neg (by have := accepts.fits; omega),
      if_neg (not_not.mpr accepts.contiguous), added]

theorem loadCentroid_ok_iff {kind : String} {log out : LoadLog F}
    {docId centroidCount startFloat : Nat} {residualMean : F} {allowed : Bool} {values : List F} :
    loadCentroid meta' kind log docId centroidCount startFloat residualMean allowed values =
        .ok out ↔
      AcceptsCentroid meta' log docId centroidCount startFloat allowed values ∧
        out = log ++ centroidChunk docId centroidCount residualMean values := by
  have added : ({ log with
      centroids := log.centroids ++ [(docId, ⟨centroidCount, residualMean, values⟩)] } :
      LoadLog F) = log ++ centroidChunk docId centroidCount residualMean values := by
    apply LoadLog.ext_fields <;> simp [centroidChunk]
  constructor
  · intro loaded
    unfold loadCentroid at loaded
    split_ifs at loaded with nodes stored refused malformed unseen wide changed gap
    push Not at malformed
    refine ⟨⟨by simpa using stored, by simpa using refused, malformed.1, malformed.2.1,
      malformed.2.2, unseen, by omega, ?_, not_not.mp gap⟩, ?_⟩
    · by_cases first : valuesAt log.centroids docId = []
      · exact .inl first
      · exact .inr (by_contra fun differs => changed ⟨first, differs⟩)
    · rw [← added]
      exact (Except.ok.inj loaded).symm
  · rintro ⟨accepts, rfl⟩
    unfold loadCentroid
    rw [if_neg (by rw [hasCentroids_documentNodes accepts.stored]; decide),
      if_neg (by rw [accepts.stored]; decide), if_neg (by rw [accepts.allowed]; decide),
      if_neg (by
        rintro (nil | outside | zero)
        · exact accepts.nonempty nil
        · exact absurd accepts.inRange (by omega)
        · exact accepts.positive zero),
      if_neg (not_not.mpr accepts.seen), if_neg (by have := accepts.fits; omega),
      if_neg (by
        rintro ⟨later, differs⟩
        rcases accepts.same with first | same
        · exact later first
        · exact differs same),
      if_neg (not_not.mpr accepts.contiguous), added]

theorem loadContext_ok_iff {log out : LoadLog F} {docId : Nat} {table : ContextTable} :
    loadContext format meta' log docId table = .ok out ↔
      AcceptsContext format meta' log docId table ∧
        out = log ++ { contexts := [(docId, table)] } := by
  have added : ({ log with contexts := log.contexts ++ [(docId, table)] } : LoadLog F) =
      log ++ { contexts := [(docId, table)] } := by apply LoadLog.ext_fields <;> simp
  constructor
  · intro loaded
    unfold loadContext at loaded
    split_ifs at loaded with nodes stored malformed unseen wide duplicate infinite invalid
    push Not at malformed
    refine ⟨⟨by simpa using stored, malformed.1, malformed.2, unseen, by omega,
      not_not.mp duplicate, by simpa using infinite, by simpa using invalid⟩, ?_⟩
    rw [← added]
    exact (Except.ok.inj loaded).symm
  · rintro ⟨accepts, rfl⟩
    unfold loadContext
    rw [if_neg (by rw [hasDocVectors_documentNodes accepts.stored]; decide),
      if_neg (by rw [accepts.stored]; decide),
      if_neg (by
        rintro (nil | outside)
        · exact accepts.nonempty nil
        · exact absurd accepts.inRange (by omega)),
      if_neg (not_not.mpr accepts.seen), if_neg (by have := accepts.fits; omega),
      if_neg (not_not.mpr accepts.single), if_neg (by rw [accepts.finite]; decide),
      if_neg (by rw [accepts.valid]; decide), added]

theorem loadCentroidDocCode_ok_iff {log out : LoadLog F} {docId codebookSize startCode : Nat}
    {codes : List Nat} :
    loadCentroidDocCode meta' log docId codebookSize startCode codes = .ok out ↔
      AcceptsDocCode meta' log docId codebookSize startCode codes ∧
        out = log ++ { docCodes := [(docId, codes)] } := by
  have added : ({ log with docCodes := log.docCodes ++ [(docId, codes)] } : LoadLog F) =
      log ++ { docCodes := [(docId, codes)] } := by apply LoadLog.ext_fields <;> simp
  constructor
  · intro loaded
    unfold loadCentroidDocCode at loaded
    split_ifs at loaded with nodes stored malformed above
    push Not at malformed above
    refine ⟨⟨by simpa using stored, malformed.1, malformed.2.1, malformed.2.2.1,
      malformed.2.2.2, above⟩, ?_⟩
    rw [← added]
    exact (Except.ok.inj loaded).symm
  · rintro ⟨accepts, rfl⟩
    unfold loadCentroidDocCode
    rw [if_neg (by rw [hasCentroidDocCodes_documentNodes accepts.stored]; decide),
      if_neg (by rw [accepts.stored]; decide),
      if_neg (by
        rintro (nil | outside | other | gap)
        · exact accepts.nonempty nil
        · exact absurd accepts.inRange (by omega)
        · exact other accepts.codebook
        · exact gap accepts.contiguous),
      if_neg (by
        rintro ⟨code, member, above⟩
        exact absurd (accepts.below code member) (by omega)), added]

theorem loadCentroidPosting_ok_iff {log out : LoadLog F} {codeword : Nat}
    {entries : List PostingEntry} :
    loadCentroidPosting meta' log codeword entries = .ok out ↔
      AcceptsCentroidPosting meta' codeword entries ∧
        out = log ++ { centroidPostings := entries.map fun entry => (codeword, entry) } := by
  have added : ({ log with centroidPostings :=
      log.centroidPostings ++ entries.map fun entry => (codeword, entry) } : LoadLog F) =
      log ++ { centroidPostings := entries.map fun entry => (codeword, entry) } := by
    apply LoadLog.ext_fields <;> simp
  constructor
  · intro loaded
    unfold loadCentroidPosting at loaded
    split_ifs at loaded with nodes stored malformed outside
    push Not at malformed outside
    refine ⟨⟨by simpa using stored, malformed.1, malformed.2, outside⟩, ?_⟩
    rw [← added]
    exact (Except.ok.inj loaded).symm
  · rintro ⟨accepts, rfl⟩
    unfold loadCentroidPosting
    rw [if_neg (by rw [hasCentroidPostings_documentNodes accepts.stored]; decide),
      if_neg (by rw [accepts.stored]; decide),
      if_neg (by
        rintro (nil | above)
        · exact accepts.nonempty nil
        · exact absurd accepts.below (by omega)),
      if_neg (by
        rintro ⟨entry, member, outside⟩
        exact absurd (accepts.inRange entry member) (by omega)), added]

theorem loadQuantizedCodebook_ok_iff {log out : LoadLog F} {codebook : Codebook} :
    loadQuantizedCodebook meta' log codebook = .ok out ↔
      AcceptsCodebook meta' log codebook ∧ out = log ++ { codebooks := [codebook] } := by
  have added : ({ log with codebooks := log.codebooks ++ [codebook] } : LoadLog F) =
      log ++ { codebooks := [codebook] } := by apply LoadLog.ext_fields <;> simp
  constructor
  · intro loaded
    unfold loadQuantizedCodebook at loaded
    split_ifs at loaded with nodes stored duplicate malformed
    push Not at malformed
    refine ⟨⟨by simpa using stored, not_not.mp duplicate, malformed.1, malformed.2.1,
      malformed.2.2⟩, ?_⟩
    rw [← added]
    exact (Except.ok.inj loaded).symm
  · rintro ⟨accepts, rfl⟩
    unfold loadQuantizedCodebook
    rw [if_neg (by rw [hasQuantizedCodebook_documentNodes accepts.stored]; decide),
      if_neg (by rw [accepts.stored]; decide), if_neg (not_not.mpr accepts.single),
      if_neg (by
        rintro (other | zero | zero)
        · exact other accepts.sameDim
        · exact accepts.sized zero
        · exact accepts.topM zero), added]

theorem loadQuantizedPosting_ok_iff {log out : LoadLog F} {codeword : Nat}
    {entries : List PostingEntry} :
    loadQuantizedPosting meta' log codeword entries = .ok out ↔
      AcceptsQuantizedPosting meta' log codeword entries ∧
        out = log ++ { quantizedPostings := entries.map fun entry => (codeword, entry) } := by
  have added : ({ log with quantizedPostings :=
      log.quantizedPostings ++ entries.map fun entry => (codeword, entry) } : LoadLog F) =
      log ++ { quantizedPostings := entries.map fun entry => (codeword, entry) } := by
    apply LoadLog.ext_fields <;> simp
  constructor
  · intro loaded
    unfold loadQuantizedPosting at loaded
    split_ifs at loaded with nodes stored early malformed outside
    push Not at malformed outside
    refine ⟨⟨by simpa using stored, fun flag nil => early ⟨flag, nil⟩, malformed.1, malformed.2,
      outside⟩, ?_⟩
    rw [← added]
    exact (Except.ok.inj loaded).symm
  · rintro ⟨accepts, rfl⟩
    unfold loadQuantizedPosting
    rw [if_neg (by rw [hasQuantizedPostings_documentNodes accepts.stored]; decide),
      if_neg (by rw [accepts.stored]; decide),
      if_neg (by
        rintro ⟨flag, nil⟩
        exact accepts.codebook flag nil),
      if_neg (by
        rintro (nil | above)
        · exact accepts.nonempty nil
        · exact absurd accepts.below (by omega)),
      if_neg (by
        rintro ⟨entry, member, outside⟩
        exact absurd (accepts.inRange entry member) (by omega)), added]

/-- **One tuple.** It is taken exactly when the loader's checks hold, and adds its entries. -/
theorem loadTuple_ok_iff {log out : LoadLog F} {tuple : DocMapTuple F H Q} :
    loadTuple format meta' log tuple = .ok out ↔
      Accepts format meta' log tuple ∧ out = log ++ contribution format tuple := by
  cases tuple with
  | node firstNodeId entries =>
      have added : ({ log with nodes := log.nodes ++ numbered firstNodeId entries } :
          LoadLog F) = log ++ { nodes := numbered firstNodeId entries } := by
        apply LoadLog.ext_fields <;> simp
      simp only [loadTuple, Accepts, contribution]
      split_ifs with nil wide
      · simp only [false_iff, not_and]
        exact fun accepts => absurd nil accepts.nonempty
      · simp only [false_iff, not_and]
        exact fun accepts => absurd accepts.inRange (by omega)
      · rw [bind_ok_iff]
        constructor
        · rintro ⟨nodes, kept, same⟩
          obtain ⟨fits, free, rfl⟩ := keepEntries_ok_iff.mp kept
          exact ⟨⟨nil, by omega, fits, free⟩, by rw [← added]; exact (Except.ok.inj same).symm⟩
        · rintro ⟨accepts, rfl⟩
          exact ⟨_, keepEntries_ok_iff.mpr ⟨accepts.fits, accepts.free, rfl⟩, by rw [added]⟩
  | doc firstDocId entries =>
      have added : ({ log with docs := log.docs ++ numbered firstDocId entries } :
          LoadLog F) = log ++ { docs := numbered firstDocId entries } := by
        apply LoadLog.ext_fields <;> simp
      simp only [loadTuple, Accepts, contribution]
      split_ifs with nil wide
      · simp only [false_iff, not_and]
        exact fun accepts => absurd nil accepts.nonempty
      · simp only [false_iff, not_and]
        exact fun accepts => absurd accepts.inRange (by omega)
      · rw [bind_ok_iff]
        constructor
        · rintro ⟨docs, kept, same⟩
          obtain ⟨fits, free, rfl⟩ := keepEntries_ok_iff.mp kept
          exact ⟨⟨nil, by omega, fits, free⟩, by rw [← added]; exact (Except.ok.inj same).symm⟩
        · rintro ⟨accepts, rfl⟩
          exact ⟨_, keepEntries_ok_iff.mpr ⟨accepts.fits, accepts.free, rfl⟩, by rw [added]⟩
  | vector docId startFloat values => exact loadVector_ok_iff meta'
  | vectorF16 docId startFloat values => exact loadVector_ok_iff meta'
  | vectorSq8 docId startFloat scale values => exact loadVector_ok_iff meta'
  | context docId table => exact loadContext_ok_iff format meta'
  | centroid docId centroidCount startFloat residualMean values => exact loadCentroid_ok_iff meta'
  | centroidF16 docId centroidCount startFloat residualMean values =>
      exact loadCentroid_ok_iff meta'
  | centroidDocCode docId codebookSize startCode codes => exact loadCentroidDocCode_ok_iff meta'
  | centroidPosting codeword startOffset entries => exact loadCentroidPosting_ok_iff meta'
  | quantizedCodebook codebook => exact loadQuantizedCodebook_ok_iff meta'
  | quantizedPosting codeword startOffset entries => exact loadQuantizedPosting_ok_iff meta'

end Accepting

end TurboHybrid.DocMap
