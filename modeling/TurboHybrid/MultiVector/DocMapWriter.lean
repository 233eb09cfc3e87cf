/-
**The writers of the document map.**

A build lays out the map of a whole corpus section by section and sorts the posting lists. Long
sections are cut into tuples of at most half a page.
-/
import TurboHybrid.MultiVector.Codewords
import TurboHybrid.MultiVector.DocMapLoad
import Mathlib.Data.List.Sort

namespace TurboHybrid.DocMap

open TurboHybrid.Library

variable {F H Q : Type}

/-! ### Tuple sizes and pages -/

def maxAlign (size : Nat) : Nat := (size + 7) / 8 * 8

def usableSpace : Nat := 8192 - 24 - 8

def docMapMaxItemSize : Nat := (usableSpace - 4) / 2 / 8 * 8

def tupleMaxCount (header entrySize : Nat) : Nat :=
  max 1 (min 65535 ((docMapMaxItemSize - maxAlign header) / entrySize))

def postingTupleMaxCount : Nat := tupleMaxCount 16 8

/-! ### Documents and options -/

/-- A multi-vector value of an indexed row, as its checks let it through. -/
structure Document (format : FloatFormat F H Q) (dimensions : Nat) where
  heapTid : Nat × Nat
  tokenCount : Nat
  values : List F
  contexts : Option ContextTable
  dimensional : 0 < dimensions
  positive : 0 < tokenCount
  bounded : tokenCount ≤ 256
  sized : values.length = tokenCount * dimensions
  finite : values.all format.isFinite = true
  contextsValid : ∀ table ∈ contexts, validateContexts tokenCount table = true

structure Centroids (F : Type) (dimensions : Nat) where
  count : Nat
  values : List F
  positive : 0 < count
  sized : values.length = count * dimensions

structure ExternalCodebook (F : Type) where
  codebookSize : Nat
  topM : Nat
  checksum : String
  score : List F → Nat → Rat
  sized : 0 < codebookSize
  topMPositive : 0 < topM

inductive DocStorage
  | f32 | f16 | sq8 | proxyOnly | centroidOnly
  deriving DecidableEq, Repr

def validateBuildOptions (documentNodes : Bool) (docStorage : DocStorage)
    (kmeansCentroids external : Bool) : Bool :=
  if docStorage = .proxyOnly ∧ documentNodes = false then false
  else if docStorage = .centroidOnly ∧ documentNodes = false then false
  else if documentNodes = false then true
  else if docStorage = .centroidOnly ∧ kmeansCentroids = false ∧ external = false then false
  else if docStorage = .proxyOnly ∧ kmeansCentroids then false
  else true

/-- The options of an index and the fixed policies that the writers read. -/
structure DocMapOptions (F : Type) where
  documentNodes : Bool
  docStorage : DocStorage
  kmeansCentroids : Bool
  centroidLiteCodewordTopM : Nat
  externalCodebook : Option (ExternalCodebook F)
  valid :
    validateBuildOptions documentNodes docStorage kmeansCentroids externalCodebook.isSome = true

/-- The numerical parts of the writers: clustering, pooling, and the scaling of scores. -/
structure DocMapEncoders (format : FloatFormat F H Q) (dimensions : Nat) where
  value : F → Rat
  pooledTokenCount : Document format dimensions → Nat
  kmeans : Document format dimensions → Centroids F dimensions
  residualMean : Document format dimensions → Centroids F dimensions → F
  quantizedScorePayload : List F → Nat
  compactScorePayload : Rat → Nat

namespace DocMapOptions

variable (options : DocMapOptions F)

def storesDocVectors : Bool :=
  options.documentNodes && options.docStorage != .proxyOnly && options.docStorage != .centroidOnly

def storesCentroids : Bool :=
  options.documentNodes && options.docStorage != .proxyOnly && options.kmeansCentroids

def storesQuantizedInvertedPostings : Bool :=
  if options.documentNodes = false || options.docStorage == .proxyOnly then false
  else if options.storesDocVectors then true
  else options.docStorage == .centroidOnly && options.externalCodebook.isSome

end DocMapOptions

/-! ### The parts of a document -/

section Parts

variable {format : FloatFormat F H Q} {dimensions : Nat}

def subvector (dimensions : Nat) (values : List F) (ordinal : Nat) : List F :=
  (values.drop (ordinal * dimensions)).take dimensions

variable (encoders : DocMapEncoders format dimensions)

/-- The values of a vector, for comparing codewords. -/
def DocMapEncoders.vectorOf (values : List F) (ordinal : Nat) : List Rat :=
  (subvector dimensions values ordinal).map encoders.value

def configurableCodewords (external : Option (ExternalCodebook F)) (values : List F)
    (ordinal : Nat) : List Nat :=
  match external with
  | none => deterministicCodewords (encoders.vectorOf values ordinal) 1
  | some codebook =>
    selectCodewords (min codebook.topM codebook.codebookSize)
      ((List.range codebook.codebookSize).map fun codeword =>
        ⟨codeword, codebook.score (subvector dimensions values ordinal) codeword⟩)

/-- The payload that a build gives a quantized posting. -/
def buildQuantizedPayload (external : Option (ExternalCodebook F)) (values : List F)
    (ordinal codeword : Nat) : Nat :=
  match external with
  | none => encoders.quantizedScorePayload (subvector dimensions values ordinal)
  | some codebook =>
    encoders.compactScorePayload (codebook.score (subvector dimensions values ordinal) codeword)

def quantizedPostings (external : Option (ExternalCodebook F)) (docId : Nat)
    (doc : Document format dimensions) : List (Nat × PostingEntry) :=
  (List.range doc.tokenCount).flatMap fun ordinal =>
    (configurableCodewords encoders external doc.values ordinal).map fun codeword =>
      (codeword, ⟨docId, ordinal, buildQuantizedPayload encoders external doc.values ordinal codeword⟩)

/-! ### Sorting posting lists -/

def signedCompactPayload (payload : Nat) : Int :=
  if payload < 32768 then payload else (payload : Int) - 65536

/-- The order of a posting list: the payload from high to low, then document and ordinal. -/
def postingBefore (key : Nat → Int) (one other : PostingEntry) : Bool :=
  if key other.scorePayload < key one.scorePayload then true
  else if key one.scorePayload < key other.scorePayload then false
  else if one.docId < other.docId then true
  else if other.docId < one.docId then false
  else one.ordinal ≤ other.ordinal

def sortPostings (key : Nat → Int) (entries : List PostingEntry) : List PostingEntry :=
  entries.mergeSort (postingBefore key)

def quantizedKey (external : Option (ExternalCodebook F)) : Nat → Int :=
  if external.isSome then signedCompactPayload else fun payload => payload

/-! ### The posting tuples -/

/-- The posting lists of a build, codeword by codeword, each sorted. -/
def postingTuples (tuple : Nat → Nat → List PostingEntry → DocMapTuple F H Q) (codebookSize : Nat)
    (key : Nat → Int) (postings : List (Nat × PostingEntry)) : List (DocMapTuple F H Q) :=
  (List.range codebookSize).flatMap fun codeword =>
    (placed 0 (chunks postingTupleMaxCount (sortPostings key (valuesAt postings codeword)))).map
      fun part => tuple codeword part.1 part.2

/-! ### The build -/

variable (options : DocMapOptions F)

variable (dimensions) in
def buildCodebook : Codebook :=
  match options.externalCodebook with
  | none => ⟨false, dimensions, dimensions * 2, 1, "deterministic"⟩
  | some codebook =>
    ⟨true, dimensions, codebook.codebookSize, codebook.topM, codebook.checksum⟩

def quantizedSectionTuples (docs : List (Document format dimensions)) :
    List (DocMapTuple F H Q) :=
  .quantizedCodebook (buildCodebook dimensions options) ::
  postingTuples .quantizedPosting (buildCodebook dimensions options).codebookSize
    (quantizedKey options.externalCodebook)
    ((numbered 0 docs).flatMap fun entry =>
      quantizedPostings encoders options.externalCodebook entry.1 entry.2)

end Parts

/-! ### Sections of plain indexes -/

section Plain

variable {options : DocMapOptions F}

theorem storesDocVectors_of_plain (plain : options.documentNodes = false) :
    options.storesDocVectors = false := by
  simp [DocMapOptions.storesDocVectors, plain]

theorem storesCentroids_of_plain (plain : options.documentNodes = false) :
    options.storesCentroids = false := by
  simp [DocMapOptions.storesCentroids, plain]

theorem storesQuantized_of_plain (plain : options.documentNodes = false) :
    options.storesQuantizedInvertedPostings = false := by
  simp [DocMapOptions.storesQuantizedInvertedPostings, plain]

variable (options) in
theorem documentNodes_of_stores (stored : options.storesDocVectors = true ∨
    options.storesCentroids = true ∨ options.storesQuantizedInvertedPostings = true) :
    options.documentNodes = true := by
  by_contra plain
  rw [Bool.not_eq_true] at plain
  rcases stored with vectors | centroids | quantized
  · rw [storesDocVectors_of_plain plain] at vectors
    cases vectors
  · rw [storesCentroids_of_plain plain] at centroids
    cases centroids
  · rw [storesQuantized_of_plain plain] at quantized
    cases quantized

end Plain

/-! ### Whole numbers as floats -/

abbrev wholeFormat : FloatFormat Int Int Int where
  isFinite _ := true
  isPositive value := decide (0 < value)
  floatToHalf := id
  halfToFloat := id
  docCompactSq8Scale _ := 1
  quantize _ := id
  dequantize _ := id

/-- Clustering that keeps every token, over vectors of norm one. -/
def wholeEncoders (dimensions : Nat) : DocMapEncoders wholeFormat dimensions where
  value := fun value => value
  pooledTokenCount := Document.tokenCount
  kmeans doc := ⟨doc.tokenCount, doc.values, doc.positive, doc.sized⟩
  residualMean _ _ := 0
  quantizedScorePayload _ := 65535
  compactScorePayload _ := 0

end TurboHybrid.DocMap
