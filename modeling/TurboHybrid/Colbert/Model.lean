/-
**A fresh load of a ColBERT model.**

A load checks the metadata of the model's file and the projection profile of the request, lets the
llama library load the file, reads the chain of projections the profile names, from the file or from
the sidecar beside it, and creates a context. What the library and the files answer is a `World`.

* `loadProjection`: the chain of projections, with the errors of the profile and of the files;
* `freshLoad`: the model a request without a cache gets;
* `freshLoad_congr`: what of a request that a load that succeeds depends on.
-/
import Mathlib.Algebra.Order.Ring.Int
import TurboHybrid.Library.Results

namespace TurboHybrid.Colbert

open Library

/-! ### Requests -/

inductive OutputMode where
  | tokens
  | dense
  deriving DecidableEq

inductive Pooling where
  | none
  | mean
  | cls
  | last
  | rank
  deriving DecidableEq

structure ProjectionModuleProfile where
  type : String
  activation : String
  weightTensor : String
  biasTensor : String
  outputDim : Int
  hasBias : Bool
  p : Int
  deriving DecidableEq

structure RuntimeProfile where
  loaded : Bool
  tokenizerSource : String
  projectionModules : List ProjectionModuleProfile
  deriving DecidableEq

structure ModelSpec where
  modelAlias : String
  outputMode : OutputMode
  pooling : Pooling
  expectedDim : Int
  threads : Int
  nCtx : Int
  nBatch : Int
  nGpuLayers : Int
  cacheSize : Int
  profile : RuntimeProfile
  deriving DecidableEq

/-- The modules of a profile that is loaded and names some. -/
def ModelSpec.profileModules (spec : ModelSpec) : Option (List ProjectionModuleProfile) :=
  if spec.profile.loaded ∧ 0 < spec.profile.projectionModules.length then
    some spec.profile.projectionModules
  else none

/-! ### Files and the llama library -/

variable {Number : Type}

inductive GgufValue (Number : Type) where
  | uint32 (value : Nat)
  | int32 (value : Int)
  | uint64 (value : Nat)
  | int64 (value : Int)
  | float (value : Number)
  | other

/-- A tensor of the directory; the name of a tensor whose name fills the buffer is read as empty. -/
structure TensorInfo where
  name : String := ""
  type : Nat := 0
  dims : List Nat := []
  offset : Nat := 0

/-- A GGUF file: its keys and its tensors, where they can be read, the end of the directory, and the
data behind it. -/
structure GgufFile (Number : Type) where
  metadata : Option (List (String × GgufValue Number))
  tensors : Option (List TensorInfo)
  headerEnd : Nat
  seeks : Nat → Bool
  data : (position type elements : Nat) → Option (List Number)

/-- The sidecar of a projection: the type and the dimensions of its header, and the data. -/
structure SidecarFile (Number : Type) where
  header : Option (Nat × Nat × Nat)
  data : (type elements : Nat) → Option (List Number)

inductive KvOverride (Number : Type) where
  | int (key : String) (value : Int)
  | float (key : String) (value : Number)

inductive LlamaPoolingType where
  | none
  | mean
  | cls
  | last
  | rank
  deriving DecidableEq

structure ContextParams where
  embeddings : Bool
  poolingType : LlamaPoolingType
  nonCausal : Bool
  nCtx : Nat
  nBatch : Nat
  nUbatch : Nat
  nSeqMax : Nat
  nThreads : Int
  nThreadsBatch : Int
  swaFull : Bool
  kvUnified : Bool
  deriving DecidableEq

/-- What the library tells of a model it has loaded. -/
structure Backbone where
  nCtxTrain : Nat
  nEmbdModel : Nat
  nLayer : Nat
  nHead : Nat
  deriving DecidableEq

/-- The files of the model directory, an error saying why one cannot be opened, and the library. -/
structure World (Number : Type) where
  gguf : String → Except String (GgufFile Number)
  sidecar : String → Option (SidecarFile Number)
  defaultSwaFull : Bool
  defaultKvUnified : Bool
  loadModel : String → List (KvOverride Number) → Int → Option Backbone
  initContext : String → Backbone → ContextParams → Bool

/-! ### The metadata of the file -/

structure LegacyBertMetadata (Number : Type) where
  hiddenSize : Option Int := none
  intermediateSize : Option Int := none
  numHiddenLayers : Option Int := none
  numAttentionHeads : Option Int := none
  maxPositionEmbeddings : Option Int := none
  layerNormEps : Option Number := none
  typeVocabSize : Option Int := none
  hasContextLength : Bool := false
  hasEmbeddingLength : Bool := false
  hasFeedForwardLength : Bool := false
  hasBlockCount : Bool := false
  hasAttentionHeadCount : Bool := false
  hasAttentionLayerNormEps : Bool := false
  hasTokenizerTokenTypeCount : Bool := false
  hasTokenizerModel : Bool := false
  hasTokenizerList : Bool := false
  hasHuggingFaceTokenizer : Bool := false
  hasPgColbertSchema : Bool := false

def markLegacyBertKey (metadata : LegacyBertMetadata Number) (key : String) :
    LegacyBertMetadata Number :=
  match key with
  | "tokenizer.ggml.model" => { metadata with hasTokenizerModel := true }
  | "tokenizer.ggml.tokens" => { metadata with hasTokenizerList := true }
  | "tokenizer.huggingface.json" => { metadata with hasHuggingFaceTokenizer := true }
  | "pg_colbert.gguf_schema" => { metadata with hasPgColbertSchema := true }
  | _ => metadata

def setLegacyBertInt (metadata : LegacyBertMetadata Number) (key : String) (value : Int) :
    LegacyBertMetadata Number :=
  match key with
  | "bert.hidden_size" => { metadata with hiddenSize := some value }
  | "bert.intermediate_size" => { metadata with intermediateSize := some value }
  | "bert.num_hidden_layers" => { metadata with numHiddenLayers := some value }
  | "bert.num_attention_heads" => { metadata with numAttentionHeads := some value }
  | "bert.max_position_embeddings" => { metadata with maxPositionEmbeddings := some value }
  | "bert.type_vocab_size" => { metadata with typeVocabSize := some value }
  | "bert.context_length" => { metadata with hasContextLength := true }
  | "bert.embedding_length" => { metadata with hasEmbeddingLength := true }
  | "bert.feed_forward_length" => { metadata with hasFeedForwardLength := true }
  | "bert.block_count" => { metadata with hasBlockCount := true }
  | "bert.attention.head_count" => { metadata with hasAttentionHeadCount := true }
  | "tokenizer.ggml.token_type_count" => { metadata with hasTokenizerTokenTypeCount := true }
  | _ => metadata

def setLegacyBertFloat (metadata : LegacyBertMetadata Number) (key : String) (value : Number) :
    LegacyBertMetadata Number :=
  match key with
  | "bert.layer_norm_eps" => { metadata with layerNormEps := some value }
  | "bert.attention.layer_norm_epsilon" => { metadata with hasAttentionLayerNormEps := true }
  | _ => metadata

def readLegacyBertPair (metadata : LegacyBertMetadata Number)
    (pair : String × GgufValue Number) : LegacyBertMetadata Number :=
  let marked := markLegacyBertKey metadata pair.1
  match pair.2 with
  | .uint32 value => setLegacyBertInt marked pair.1 value
  | .int32 value => setLegacyBertInt marked pair.1 value
  | .uint64 value => if value ≤ 2 ^ 63 - 1 then setLegacyBertInt marked pair.1 value else marked
  | .int64 value => setLegacyBertInt marked pair.1 value
  | .float value => setLegacyBertFloat marked pair.1 value
  | .other => marked

def readLegacyBertMetadata (world : World Number) (path : String) :
    Option (LegacyBertMetadata Number) :=
  match world.gguf path with
  | .error _ => none
  | .ok file => file.metadata.map fun pairs => pairs.foldl readLegacyBertPair {}

/-- The reason why the tokenizer of the file is not supported. -/
def checkTokenizerCapability (world : World Number) (spec : ModelSpec) (path : String) :
    Option String :=
  match readLegacyBertMetadata world path with
  | none => none
  | some metadata =>
    if metadata.hasHuggingFaceTokenizer ∧
        (!metadata.hasTokenizerModel ∨ !metadata.hasTokenizerList) then
      if spec.profile.loaded ∧ spec.profile.tokenizerSource = "hf_json" then
        some ("unsupported_tokenizer: prepare this GGUF with tokenizer.ggml metadata using " ++
          "colbert-gguf-converter --target-runtime llama_cpp")
      else if metadata.hasPgColbertSchema then
        some ("unsupported_tokenizer: the GGUF uses the pg_colbert schema with embedded Hugging " ++
          "Face tokenizer JSON, but this llama.cpp engine currently requires canonical " ++
          "tokenizer.ggml metadata and tensors")
      else
        some ("unsupported_tokenizer: the GGUF embeds Hugging Face tokenizer JSON but does not " ++
          "provide canonical tokenizer.ggml metadata required by this llama.cpp engine")
    else none

def LegacyBertMetadata.legacyBert (metadata : LegacyBertMetadata Number) : Bool :=
  metadata.hiddenSize.isSome || metadata.intermediateSize.isSome ||
    metadata.numHiddenLayers.isSome || metadata.numAttentionHeads.isSome ||
    metadata.maxPositionEmbeddings.isSome || metadata.layerNormEps.isSome ||
    metadata.typeVocabSize.isSome

def LegacyBertMetadata.missing (metadata : LegacyBertMetadata Number) : List String :=
  (if !metadata.hasContextLength && metadata.maxPositionEmbeddings.isNone
    then ["bert.context_length"] else []) ++
  (if !metadata.hasEmbeddingLength && metadata.hiddenSize.isNone
    then ["bert.embedding_length"] else []) ++
  (if !metadata.hasFeedForwardLength && metadata.intermediateSize.isNone
    then ["bert.feed_forward_length"] else []) ++
  (if !metadata.hasBlockCount && metadata.numHiddenLayers.isNone
    then ["bert.block_count"] else []) ++
  (if !metadata.hasAttentionHeadCount && metadata.numAttentionHeads.isNone
    then ["bert.attention.head_count"] else []) ++
  (if !metadata.hasAttentionLayerNormEps && metadata.layerNormEps.isNone
    then ["bert.attention.layer_norm_epsilon"] else []) ++
  (if !metadata.hasTokenizerTokenTypeCount && metadata.typeVocabSize.isNone
    then ["tokenizer.ggml.token_type_count"] else [])

def checkCanonicalBertMetadata (world : World Number) (path : String) : Except String Unit :=
  match readLegacyBertMetadata world path with
  | none => .ok ()
  | some metadata =>
    if !metadata.legacyBert then .ok ()
    else if metadata.missing = [] then .ok ()
    else
      .error (s!"unsupported GGUF model \"{path}\": missing llama.cpp BERT metadata keys: " ++
        String.intercalate ", " metadata.missing ++
        "; re-export with canonical llama.cpp BERT hparams")

def maxOverrides : Nat := 16

def addOverride (override : KvOverride Number) (overrides : List (KvOverride Number)) :
    List (KvOverride Number) :=
  if maxOverrides - 1 ≤ overrides.length then overrides else overrides ++ [override]

/-- An override of a key that the file lacks, with the value of the legacy key that it has. -/
def addLegacyInt (applies : Bool) (key : String) (value : Option Int)
    (overrides : List (KvOverride Number)) : List (KvOverride Number) :=
  match applies, value with
  | true, some value => addOverride (.int key value) overrides
  | _, _ => overrides

def addLegacyFloat (applies : Bool) (key : String) (value : Option Number)
    (overrides : List (KvOverride Number)) : List (KvOverride Number) :=
  match applies, value with
  | true, some value => addOverride (.float key value) overrides
  | _, _ => overrides

def buildLegacyBertOverrides (world : World Number) (path : String) : List (KvOverride Number) :=
  match readLegacyBertMetadata world path with
  | none => []
  | some metadata =>
    let overrides := addLegacyInt (!metadata.hasContextLength) "bert.context_length"
      metadata.maxPositionEmbeddings []
    let overrides := addLegacyInt (!metadata.hasEmbeddingLength) "bert.embedding_length"
      metadata.hiddenSize overrides
    -- these two keys are overridden also where the file has them
    let overrides := addLegacyInt true "bert.feed_forward_length"
      metadata.intermediateSize overrides
    let overrides := addLegacyInt (!metadata.hasBlockCount) "bert.block_count"
      metadata.numHiddenLayers overrides
    let overrides := addLegacyInt true "bert.attention.head_count"
      metadata.numAttentionHeads overrides
    let overrides := addLegacyFloat (!metadata.hasAttentionLayerNormEps)
      "bert.attention.layer_norm_epsilon" metadata.layerNormEps overrides
    addLegacyInt (!metadata.hasTokenizerTokenTypeCount) "tokenizer.ggml.token_type_count"
      metadata.typeVocabSize overrides

/-! ### The projection profile -/

def isDense (type : String) : Bool :=
  type == "dense" || type == "linear"

def validateProjectionModule (expectedDim : Int) (module : ProjectionModuleProfile) :
    Except String Unit :=
  if isDense module.type then
    if module.activation ≠ "" ∧ module.activation ≠ "identity" then
      .error s!"ColBERT projection profile uses unsupported activation \"{module.activation}\""
    else .ok ()
  else if module.type = "normalize" then .ok ()
  else if module.type = "truncate" then
    if 0 < module.outputDim ∧ module.outputDim ≠ expectedDim then
      .error (s!"ColBERT truncate module output_dim {module.outputDim} does not match expected " ++
        s!"dimension {expectedDim}")
    else .ok ()
  else .error s!"ColBERT projection profile uses unsupported module type \"{module.type}\""

def validateProjectionProfile (spec : ModelSpec) : Except String Unit :=
  if !spec.profile.loaded ∨ spec.profile.projectionModules.length = 0 then .ok ()
  else spec.profile.projectionModules.forM (validateProjectionModule spec.expectedDim)

/-! ### Projections -/

inductive ProjectionKind where
  | dense
  | normalize
  | truncate
  deriving DecidableEq

structure ProjectionModule (Number : Type) where
  kind : ProjectionKind
  inputDim : Int := 0
  outputDim : Int := 0
  transposed : Bool := false
  weight : Option (List Number) := none
  bias : Option (List Number) := none
  p : Int := 0
  deriving DecidableEq

/-- The projections of a model while they are loaded. -/
structure Chain (Number : Type) where
  nEmbdOut : Int
  hasProjection : Bool := false
  projectionModules : List (ProjectionModule Number) := []
  maxProjectionDim : Int := 0
  deriving DecidableEq

def maxProjectionElements : Nat := 256 * 1024 * 1024

def ggmlTypeSize (type : Nat) : Nat :=
  match type with
  | 0 => 4
  | 1 => 2
  | _ => 0

def align (value alignment : Nat) : Nat :=
  (value + alignment - 1) / alignment * alignment

def boundedElementCount (dims : List Nat) : Except String Nat :=
  dims.foldlM (fun elements dim =>
    if dim = 0 ∨ maxProjectionElements < dim ∨ maxProjectionElements / dim < elements then
      .error "ColBERT projection tensor dimensions are out of range"
    else .ok (elements * dim)) 1

def readFloatTensor (file : GgufFile Number) (dataStart : Nat) (tensor : TensorInfo) :
    Except String (List Number) := do
  if ggmlTypeSize tensor.type = 0 then
    .error s!"GGUF ColBERT projection tensor uses unsupported type {tensor.type}"
  else
    let elements ← boundedElementCount tensor.dims
    if !file.seeks (dataStart + tensor.offset) then
      .error "could not seek to ColBERT projection tensor data"
    else
      match file.data (dataStart + tensor.offset) tensor.type elements with
      | none => .error "could not read ColBERT projection tensor data"
      | some values => .ok values

/-- The module of a weight with these dimensions, in one orientation or the other. -/
def configureDenseProjection (dims : List Nat) (currentDim : Int) :
    Except String (ProjectionModule Number) :=
  match dims with
  | [dim0, dim1] =>
    if (dim0 : Int) = currentDim then
      if dim1 = 0 ∨ maxProjectionElements < dim1 then
        .error s!"GGUF ColBERT dense projection output dimension {dim1} is out of range"
      else .ok { kind := .dense, inputDim := currentDim, outputDim := dim1, transposed := false }
    else if (dim1 : Int) = currentDim then
      if dim0 = 0 ∨ maxProjectionElements < dim0 then
        .error s!"GGUF ColBERT dense projection output dimension {dim0} is out of range"
      else .ok { kind := .dense, inputDim := currentDim, outputDim := dim0, transposed := true }
    else
      .error (s!"GGUF ColBERT dense projection shape is {dim0} x {dim1}, but current " ++
        s!"projection dimension is {currentDim}")
  | _ => .error "GGUF ColBERT dense projection tensor must be 2-dimensional"

def validateBiasTensor (bias : TensorInfo) (outputDim : Int) : Except String Unit :=
  match bias.dims with
  | [dim] =>
    if (dim : Int) ≠ outputDim then
      .error s!"GGUF ColBERT dense bias has dimension {dim}, expected {outputDim}"
    else .ok ()
  | _ => .error "GGUF ColBERT dense bias tensor must be 1-dimensional"

def defaultWeightName (denseOrdinal : Nat) : String :=
  if denseOrdinal = 0 then "colbert.proj.weight" else s!"colbert.proj.weight.{denseOrdinal}"

def defaultBiasName (denseOrdinal : Nat) : String :=
  if denseOrdinal = 0 then "colbert.proj.bias" else s!"colbert.proj.bias.{denseOrdinal}"

/-- A module to load: its profile, where there is one, and the names of its tensors, empty where it
has none. -/
structure ModuleRequest where
  profile : Option ProjectionModuleProfile
  weightName : String
  biasName : String

def ModuleRequest.type (request : ModuleRequest) : String :=
  match request.profile with
  | none => "dense"
  | some profile => profile.type

def requestModule (denseOrdinal : Nat) (profile : Option ProjectionModuleProfile) :
    ModuleRequest :=
  match profile with
  | none => ⟨none, defaultWeightName denseOrdinal, ""⟩
  | some module =>
    if isDense module.type then
      ⟨some module,
        if module.weightTensor ≠ "" then module.weightTensor else defaultWeightName denseOrdinal,
        if module.biasTensor ≠ "" then module.biasTensor
        else if module.hasBias then defaultBiasName denseOrdinal else ""⟩
    else ⟨some module, "", ""⟩

def requestModules : Nat → List (Option ProjectionModuleProfile) → List ModuleRequest
  | _, [] => []
  | denseOrdinal, profile :: rest =>
    let request := requestModule denseOrdinal profile
    request ::
      requestModules (if isDense request.type then denseOrdinal + 1 else denseOrdinal) rest

/-- The modules of the profile, or one dense module where it has none. -/
def moduleRequests (spec : ModelSpec) : List ModuleRequest :=
  match spec.profileModules with
  | some modules => requestModules 0 (modules.map some)
  | none => requestModules 0 [none]

def findTensor (tensors : List TensorInfo) (name : String) : Option TensorInfo :=
  if name = "" then none else (tensors.filter fun tensor => tensor.name == name).getLast?

def readAlignment (alignment : Nat) (pair : String × GgufValue Number) : Nat :=
  if pair.1 = "general.alignment" then
    match pair.2 with
    | .uint32 value => if 0 < value then value else alignment
    | .uint64 value => if 0 < value then value else alignment
    | _ => alignment
  else alignment

def normalizeModule (p currentDim : Int) : ProjectionModule Number :=
  { kind := .normalize, inputDim := currentDim, outputDim := currentDim,
    p := if 0 < p then p else 2 }

def truncateModule (outputDim currentDim : Int) : Except String (ProjectionModule Number) :=
  if outputDim ≤ 0 ∨ currentDim < outputDim then
    .error (s!"ColBERT truncate projection output_dim {outputDim} is invalid for input_dim " ++
      s!"{currentDim}")
  else .ok { kind := .truncate, inputDim := currentDim, outputDim := outputDim }

def loadModule (file : GgufFile Number) (dataStart : Nat) (tensors : List TensorInfo)
    (currentDim : Int) (request : ModuleRequest) : Except String (ProjectionModule Number) := do
  let p := (request.profile.map fun profile => profile.p).getD 0
  let outputDim := (request.profile.map fun profile => profile.outputDim).getD 0
  if isDense request.type then
    let weightInfo := (findTensor tensors request.weightName).getD {}
    let module ← configureDenseProjection weightInfo.dims currentDim
    let weight ← readFloatTensor file dataStart weightInfo
    if request.biasName = "" then .ok { module with weight := some weight }
    else
      let biasInfo := (findTensor tensors request.biasName).getD {}
      validateBiasTensor biasInfo module.outputDim
      let bias ← readFloatTensor file dataStart biasInfo
      .ok { module with
        weight := some weight
        bias := some bias }
  else if request.type = "normalize" then .ok (normalizeModule p currentDim)
  else if request.type = "truncate" then truncateModule outputDim currentDim
  else .error s!"ColBERT projection profile uses unsupported module type \"{request.type}\""

def Chain.append (chain : Chain Number) (module : ProjectionModule Number) : Chain Number :=
  { nEmbdOut := module.outputDim
    hasProjection := true
    projectionModules := chain.projectionModules ++ [module]
    maxProjectionDim := max chain.maxProjectionDim module.outputDim }

/-- The modules of the profile behind the first, which the sidecar gives. -/
def loadSidecarExtra (chain : Chain Number) (indexed : ProjectionModuleProfile × Nat) :
    Except String (Chain Number) := do
  if indexed.1.type = "normalize" then
    .ok (chain.append (normalizeModule indexed.1.p chain.nEmbdOut))
  else if indexed.1.type = "truncate" then
    let module ← truncateModule indexed.1.outputDim chain.nEmbdOut
    .ok (chain.append module)
  else
    .error ("ColBERT projection sidecar can only satisfy the first dense module; module " ++
      s!"{indexed.2} requires GGUF tensors")

def loadProjectionSidecar (world : World Number) (spec : ModelSpec) (path : String)
    (chain : Chain Number) : Except String (Chain Number) :=
  match world.sidecar (path ++ ".colbert_proj") with
  | none => .ok chain
  | some file =>
    match file.header with
    | none => .error s!"could not parse ColBERT projection sidecar \"{path}.colbert_proj\""
    | some (projType, dim0, dim1) => do
      let modules := spec.profileModules.getD []
      if ggmlTypeSize projType = 0 then
        .error s!"ColBERT projection sidecar uses unsupported tensor type {projType}"
      else
        let biased := modules.head?.filter fun module => module.hasBias
        if let some module := biased then
          let bias := if module.biasTensor ≠ "" then module.biasTensor else "colbert.proj.bias"
          .error (s!"ColBERT projection sidecar cannot satisfy dense bias tensor \"{bias}\"; " ++
            "store the bias in GGUF metadata")
        else
          let module ← configureDenseProjection [dim0, dim1] chain.nEmbdOut
          let elements ← boundedElementCount [dim0, dim1]
          match file.data projType elements with
          | none => .error "could not read ColBERT projection sidecar data"
          | some weight =>
            (modules.zipIdx.drop 1).foldlM loadSidecarExtra
              (chain.append { module with weight := some weight })

def malformedProjection (path : String) : String :=
  s!"could not parse GGUF ColBERT projection metadata from \"{path}\""

/-- The bias tensor that a module names and the file lacks. -/
def missingBias (tensors : List TensorInfo) (request : ModuleRequest) : Option String :=
  if request.biasName ≠ "" ∧ (findTensor tensors request.biasName).isNone then
    some request.biasName
  else none

def missingWeight (tensors : List TensorInfo) (request : ModuleRequest) : Bool :=
  request.weightName ≠ "" && (findTensor tensors request.weightName).isNone

def loadProjection (world : World Number) (spec : ModelSpec) (path : String) (nEmbdModel : Nat) :
    Except String (Chain Number) :=
  match world.gguf path with
  | .error reason => .error s!"could not read GGUF projection from \"{path}\": {reason}"
  | .ok file =>
    match file.metadata, file.tensors with
    | some pairs, some tensors =>
      let requests := moduleRequests spec
      let dataStart := align file.headerEnd (pairs.foldl readAlignment 32)
      match requests.findSome? (missingBias tensors) with
      | some bias => .error s!"GGUF ColBERT projection bias tensor \"{bias}\" was not found"
      | none =>
        if requests.any (missingWeight tensors) then
          loadProjectionSidecar world spec path { nEmbdOut := nEmbdModel }
        else
          requests.foldlM
            (fun chain request => chain.append <$>
              loadModule file dataStart tensors chain.nEmbdOut request)
            { nEmbdOut := nEmbdModel, maxProjectionDim := nEmbdModel }
    | _, _ => .error (malformedProjection path)

/-! ### The load -/

structure CachedModel (Number : Type) where
  modelAlias : String
  path : String
  nCtx : Int
  nBatch : Int
  nSeqMax : Int
  nGpuLayers : Int
  outputMode : OutputMode
  pooling : Pooling
  model : Backbone
  ctx : ContextParams
  chain : Chain Number
  deriving DecidableEq

def llamaPoolingType : Pooling → LlamaPoolingType
  | .none => .none
  | .mean => .mean
  | .cls => .cls
  | .last => .last
  | .rank => .rank

def uint32 (value : Int) : Nat :=
  (value % 2 ^ 32).toNat

def contextParams (world : World Number) (spec : ModelSpec) (nSeqMax : Int) : ContextParams where
  embeddings := true
  poolingType := llamaPoolingType spec.pooling
  nonCausal := true
  nCtx := uint32 spec.nCtx
  nBatch := uint32 spec.nBatch
  nUbatch := uint32 spec.nBatch
  nSeqMax := uint32 nSeqMax
  nThreads := spec.threads
  nThreadsBatch := spec.threads
  swaFull := if 1 < nSeqMax then true else world.defaultSwaFull
  kvUnified := if 1 < nSeqMax then false else world.defaultKvUnified

def checkRequest (world : World Number) (spec : ModelSpec) (path : String) : Except String Unit :=
  match checkTokenizerCapability world spec path with
  | some reason => .error s!"unsupported GGUF model \"{path}\": {reason}"
  | none => do
    checkCanonicalBertMetadata world path
    validateProjectionProfile spec

/-- **What a load gives that finds nothing in a cache.** -/
def freshLoad (world : World Number) (spec : ModelSpec) (path : String) (nSeqMax : Int) :
    Except String (CachedModel Number) := do
  checkRequest world spec path
  match world.loadModel path (buildLegacyBertOverrides world path) spec.nGpuLayers with
  | none => .error s!"could not load GGUF model \"{path}\""
  | some model =>
    let chain ← loadProjection world spec path model.nEmbdModel
    if !world.initContext path model (contextParams world spec nSeqMax) then
      .error s!"could not create llama context for \"{path}\""
    else
      .ok {
        modelAlias := spec.modelAlias
        path := path
        nCtx := spec.nCtx
        nBatch := spec.nBatch
        nSeqMax := nSeqMax
        nGpuLayers := spec.nGpuLayers
        outputMode := spec.outputMode
        pooling := spec.pooling
        model := model
        ctx := contextParams world spec nSeqMax
        chain := chain }

/-! ### What a load depends on -/

/-- What of a request a load uses that the key of the cache leaves out: the threads, the projection
profile, and the dimension its truncations are checked against. -/
structure SameBeyondKey (first second : ModelSpec) : Prop where
  threads : first.threads = second.threads
  profileModules : first.profileModules = second.profileModules
  expectedDim : (∃ module ∈ second.profileModules.getD [],
    module.type = "truncate" ∧ 0 < module.outputDim) → first.expectedDim = second.expectedDim

/-- The fields of a request that are part of the key of the cache. -/
structure SameKey (first second : ModelSpec) : Prop where
  modelAlias : first.modelAlias = second.modelAlias
  nCtx : first.nCtx = second.nCtx
  nBatch : first.nBatch = second.nBatch
  nGpuLayers : first.nGpuLayers = second.nGpuLayers
  outputMode : first.outputMode = second.outputMode
  pooling : first.pooling = second.pooling

variable {world : World Number} {first second spec : ModelSpec} {path : String} {nSeqMax : Int}
  {model : CachedModel Number}

theorem moduleRequests_congr (same : first.profileModules = second.profileModules) :
    moduleRequests first = moduleRequests second := by
  unfold moduleRequests
  rw [same]

theorem loadProjection_congr (same : first.profileModules = second.profileModules)
    (nEmbdModel : Nat) :
    loadProjection world first path nEmbdModel = loadProjection world second path nEmbdModel := by
  have sidecar (chain : Chain Number) :
      loadProjectionSidecar world first path chain =
        loadProjectionSidecar world second path chain := by
    unfold loadProjectionSidecar
    rw [same]
  unfold loadProjection
  rw [moduleRequests_congr same]
  simp only [sidecar]

theorem contextParams_congr (key : SameKey first second) (same : SameBeyondKey first second) :
    contextParams world first nSeqMax = contextParams world second nSeqMax := by
  simp only [contextParams, key.pooling, key.nCtx, key.nBatch, same.threads]

theorem checkTokenizerCapability_none (supported : checkTokenizerCapability world first path = none)
    (second : ModelSpec) : checkTokenizerCapability world second path = none := by
  unfold checkTokenizerCapability at supported ⊢
  cases found : readLegacyBertMetadata world path with
  | none => rfl
  | some metadata =>
    rw [found] at supported
    dsimp only at supported ⊢
    split at supported
    · split_ifs at supported
    · rename_i canonical
      rw [if_neg canonical]

theorem validateProjectionProfile_eq (spec : ModelSpec) :
    validateProjectionProfile spec =
      (spec.profileModules.getD []).forM (validateProjectionModule spec.expectedDim) := by
  unfold validateProjectionProfile ModelSpec.profileModules
  by_cases loaded : spec.profile.loaded <;>
    by_cases empty : spec.profile.projectionModules.length = 0 <;>
    simp [loaded, empty, Nat.pos_iff_ne_zero] <;> rfl

theorem validateProjectionModule_congr {module : ProjectionModuleProfile} {firstDim secondDim : Int}
    (same : module.type = "truncate" ∧ 0 < module.outputDim → firstDim = secondDim) :
    validateProjectionModule firstDim module = validateProjectionModule secondDim module := by
  unfold validateProjectionModule
  by_cases truncates : module.type = "truncate" ∧ 0 < module.outputDim
  · rw [same truncates]
  · by_cases truncate : module.type = "truncate"
    · have shown : ¬0 < module.outputDim := fun positive => truncates ⟨truncate, positive⟩
      simp only [shown, false_and, if_false]
    · simp only [if_neg truncate]

theorem validateProjectionProfile_congr (same : SameBeyondKey first second) :
    validateProjectionProfile first = validateProjectionProfile second := by
  rw [validateProjectionProfile_eq, validateProjectionProfile_eq, same.profileModules]
  have agree : ∀ module ∈ second.profileModules.getD [],
      validateProjectionModule first.expectedDim module =
        validateProjectionModule second.expectedDim module := fun module member =>
    validateProjectionModule_congr fun truncates => same.expectedDim ⟨module, member, truncates⟩
  generalize second.profileModules.getD [] = modules at agree
  induction modules with
  | nil => rfl
  | cons module rest ih =>
    show (do validateProjectionModule first.expectedDim module
             rest.forM (validateProjectionModule first.expectedDim)) =
      (do validateProjectionModule second.expectedDim module
          rest.forM (validateProjectionModule second.expectedDim))
    rw [agree module List.mem_cons_self, ih fun module member => agree module (.tail _ member)]

theorem checkRequest_congr (same : SameBeyondKey first second)
    (passed : checkRequest world first path = .ok ()) :
    checkRequest world second path = .ok () := by
  unfold checkRequest at passed ⊢
  cases reason : checkTokenizerCapability world first path with
  | some reason' =>
    rw [reason] at passed
    cases passed
  | none =>
    rw [reason] at passed
    rw [checkTokenizerCapability_none reason second, ← validateProjectionProfile_congr same]
    exact passed

theorem freshLoad_eq_ok : freshLoad world spec path nSeqMax = .ok model ↔
    checkRequest world spec path = .ok () ∧
      ∃ backbone chain,
        world.loadModel path (buildLegacyBertOverrides world path) spec.nGpuLayers =
          some backbone ∧
        loadProjection world spec path backbone.nEmbdModel = .ok chain ∧
        world.initContext path backbone (contextParams world spec nSeqMax) = true ∧
        model = {
          modelAlias := spec.modelAlias
          path := path
          nCtx := spec.nCtx
          nBatch := spec.nBatch
          nSeqMax := nSeqMax
          nGpuLayers := spec.nGpuLayers
          outputMode := spec.outputMode
          pooling := spec.pooling
          model := backbone
          ctx := contextParams world spec nSeqMax
          chain := chain } := by
  unfold freshLoad
  rw [bind_ok_iff]
  refine ⟨?_, ?_⟩
  · rintro ⟨⟨⟩, passed, done⟩
    refine ⟨passed, ?_⟩
    split at done
    · cases done
    · rename_i backbone loaded
      obtain ⟨chain, projected, done⟩ := bind_ok done
      split_ifs at done with failed
      refine ⟨backbone, chain, loaded, projected, ?_, (Except.ok.inj done).symm⟩
      simpa using failed
  · rintro ⟨passed, backbone, chain, loaded, projected, created, rfl⟩
    refine ⟨(), passed, ?_⟩
    simp only [loaded]
    rw [bind_ok_iff]
    refine ⟨chain, projected, ?_⟩
    rw [created]
    rfl

/-- **A load that succeeds does so the same way for every request that agrees with it.** -/
theorem freshLoad_congr (key : SameKey first second) (same : SameBeyondKey first second)
    (loaded : freshLoad world first path nSeqMax = .ok model) :
    freshLoad world second path nSeqMax = .ok model := by
  rw [freshLoad_eq_ok] at loaded ⊢
  obtain ⟨passed, backbone, chain, found, projected, created, rfl⟩ := loaded
  refine ⟨checkRequest_congr same passed, backbone, chain, ?_, ?_, ?_, ?_⟩
  · rw [← key.nGpuLayers, found]
  · rw [← loadProjection_congr same.profileModules, projected]
  · rw [← contextParams_congr key same, created]
  · rw [contextParams_congr key same, key.modelAlias, key.nCtx, key.nBatch, key.nGpuLayers,
      key.outputMode, key.pooling]

end TurboHybrid.Colbert
