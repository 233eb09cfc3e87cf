/-
**The encoding of one input.**

The input behind its prefix becomes a plan of tokens, some of which are kept for output; the library
evaluates the plan as a batch of one sequence, and the vectors of the kept tokens, or the pooled
vector of the sequence, are projected and normalized. Arithmetic on floats, in the width of the
vectors and in the wider one of the sums, is a parameter, and so is the library.

* `planLoop_outputCount`: the count of a plan is that of its kept tokens;
* `buildEncodePlan_sound`: a plan counts its kept tokens, and has some;
* `readTokens_eq`: the vectors of an input are those of its kept tokens, in order.
-/
import Mathlib.Data.List.GetD
import TurboHybrid.Colbert.ModelCache

namespace TurboHybrid.Colbert

open Library

/-! ### Specifications -/

inductive Role where
  | none
  | query
  | doc
  deriving DecidableEq

/-- The fields of a runtime profile that an encoding reads and a load does not. -/
structure EncodeProfile where
  sourceName : String
  knownLimitations : String
  queryMaxLength : Int
  queryPadTo : Int
  queryPadTokenId : Int
  queryTokenTypeId : Int
  queryAttendToExpansionTokens : Bool
  documentMaxLength : Int
  documentTokenTypeId : Int
  padTokenId : Int
  skiplistTokenIds : List Int
  strictPylateProfile : Bool

/-- A specification; `load` holds the fields that a load reads. -/
structure EncodeSpec where
  load : ModelSpec
  role : Role
  textPrefix : String
  modelDir : String
  maxVectors : Int
  checkExpectedDim : Bool
  normalize : Bool
  batchSequences : Int
  queryLength : Int
  debugTokens : Bool
  profile : EncodeProfile

/-! ### The llama library -/

variable {Number Wide : Type}

/-- A token of a batch with its position and its sequence; its vector is asked for. -/
structure BatchToken where
  token : Int
  pos : Int
  seqId : Nat
  deriving DecidableEq

structure LlamaBatch where
  nTokens : Nat
  tokens : List BatchToken

/-- What an evaluation leaves in the context: a status, a vector for each token, where the context
has them, and a pooled vector for each sequence. -/
structure Evaluation (Number : Type) where
  status : Int
  embeddings : Option (List (List Number))
  pooled : Nat → Option (List Number)

/-- The library with a model and its context; a decoding starts from a memory that is cleared. The
texts of tokens are bytes. -/
structure Llama (Number : Type) where
  tokenize : String → Option (List Int)
  vocabMask : Int
  vocabPad : Int
  text : Int → Option (List Nat)
  hasEncoder : Bool
  hasDecoder : Bool
  encode : LlamaBatch → Evaluation Number
  decode : LlamaBatch → Evaluation Number

def tokenNull : Int := -1

def Llama.evaluate (llama : Llama Number) (batch : LlamaBatch) : Evaluation Number :=
  if llama.hasEncoder ∧ ¬llama.hasDecoder then llama.encode batch else llama.decode batch

structure Arithmetic (Number Wide : Type) where
  zero : Number
  wideZero : Wide
  widen : Number → Wide
  narrow : Wide → Number
  add : Wide → Wide → Wide
  mul : Wide → Wide → Wide
  div : Wide → Wide → Wide
  sqrt : Wide → Wide
  positiveFinite : Wide → Bool

/-! ### The plan -/

structure PlanToken where
  token : Int
  positionId : Int
  tokenTypeId : Int
  attentionMask : Int
  retain : Bool
  output : Bool
  retainReason : String
  deriving DecidableEq

structure EncodePlan where
  tokens : List PlanToken
  outputCount : Int
  deriving DecidableEq

def EncodePlan.nTokens (plan : EncodePlan) : Nat :=
  plan.tokens.length

def isPunctuationByte (byte : Nat) : Bool :=
  (33 ≤ byte && byte ≤ 47) || (58 ≤ byte && byte ≤ 64) || (91 ≤ byte && byte ≤ 96) ||
    (123 ≤ byte && byte ≤ 126)

/-- A piece is one character of punctuation, behind the mark of a word's start. -/
def isPunctuationToken (llama : Llama Number) (token : Int) : Bool :=
  match llama.text token with
  | none => false
  | some piece =>
    match (if [0xe2, 0x96, 0x81].isPrefixOf piece then piece.drop 3 else piece) with
    | [byte] => isPunctuationByte byte
    | _ => false

def shouldRetainToken (llama : Llama Number) (spec : EncodeSpec) (token : Int) : Bool × String :=
  if token = tokenNull then (false, "dropped_null")
  else if spec.role = .query then (true, "retained_query")
  else if llama.vocabPad ≠ tokenNull ∧ token = llama.vocabPad then (false, "dropped_pad")
  else if 0 ≤ spec.profile.padTokenId ∧ token = spec.profile.padTokenId then
    (false, "dropped_pad")
  else if token ∈ spec.profile.skiplistTokenIds then (false, "dropped_skiplist_token")
  else if isPunctuationToken llama token then (false, "dropped_punctuation")
  else (true, "retained_document")

def EncodeSpec.maxPlanTokens (spec : EncodeSpec) : Int :=
  let length := if spec.role = .query then spec.profile.queryMaxLength
    else spec.profile.documentMaxLength
  if length ≤ 0 then (if spec.role = .query then spec.queryLength else spec.maxVectors) else length

def EncodeSpec.queryPadTo (spec : EncodeSpec) : Int :=
  let length := if spec.role = .query then spec.profile.queryPadTo else -1
  if length ≤ 0 then spec.queryLength else length

def EncodeSpec.tokenTypeId (spec : EncodeSpec) : Int :=
  match spec.role with
  | .query => spec.profile.queryTokenTypeId
  | .doc => spec.profile.documentTokenTypeId
  | .none => -1

/-- The tokens of a text, cut to the length of a plan; a query is filled up with masks. -/
def planTokens (llama : Llama Number) (spec : EncodeSpec) (fullText : String) :
    Except String (List Int) :=
  match llama.tokenize fullText with
  | none => .error "llama tokenization failed"
  | some [] => .error "llama tokenization returned no tokens"
  | some tokens =>
    let kept := if 0 < spec.maxPlanTokens ∧ spec.maxPlanTokens < tokens.length then
      tokens.take spec.maxPlanTokens.toNat else tokens
    if spec.role = .query ∧ kept.length < spec.queryPadTo then
      let mask := if 0 ≤ spec.profile.queryPadTokenId then spec.profile.queryPadTokenId
        else llama.vocabMask
      if mask = tokenNull then
        .error "llama vocabulary does not define a mask token required for query expansion"
      else .ok (kept ++ List.replicate (spec.queryPadTo.toNat - kept.length) mask)
    else .ok kept

/-- The loop over the tokens of a plan, which keeps at most `maxVectors` for output. -/
def planLoop (llama : Llama Number) (spec : EncodeSpec) :
    (position : Nat) → (outputCount : Int) → List Int → List PlanToken × Int
  | _, outputCount, [] => ([], outputCount)
  | position, outputCount, token :: rest =>
    let (retain, reason) := shouldRetainToken llama spec token
    let output := retain && decide (outputCount < spec.maxVectors)
    let later := planLoop llama spec (position + 1)
      (if output then outputCount + 1 else outputCount) rest
    ({  token := token
        positionId := position
        tokenTypeId := spec.tokenTypeId
        attentionMask := 1
        retain := retain
        output := output
        retainReason := reason } :: later.1, later.2)

def buildEncodePlan (llama : Llama Number) (spec : EncodeSpec) (fullText : String) :
    Except String EncodePlan := do
  let tokens ← planTokens llama spec fullText
  let (planned, outputCount) := planLoop llama spec 0 0 tokens
  if outputCount ≤ 0 then .error "llama tokenization retained no non-special token vectors"
  else .ok ⟨planned, outputCount⟩

/-! ### Vectors -/

section Vectors

variable (arithmetic : Arithmetic Number Wide)

def sumSquares (values : List Number) (dim : Int) : Wide :=
  (values.take dim.toNat).foldl (fun norm value =>
    arithmetic.add norm (arithmetic.mul (arithmetic.widen value) (arithmetic.widen value)))
    arithmetic.wideZero

def divideBy (values : List Number) (dim : Int) (norm : Wide) : List Number :=
  (values.take dim.toNat).map fun value =>
    arithmetic.narrow (arithmetic.div (arithmetic.widen value) norm)

def normalizeVector (values : List Number) (dim : Int) : Option (List Number) :=
  let norm := sumSquares arithmetic values dim
  if arithmetic.positiveFinite norm then
    some (divideBy arithmetic values dim (arithmetic.sqrt norm))
  else none

/-- An entry of the product with the weights, which may be stored in either orientation. -/
def denseEntry (module : ProjectionModule Number) (current : List Number) (j : Nat) : Number :=
  let weight := module.weight.getD []
  let start := match module.bias with
    | some bias => arithmetic.widen (bias.getD j arithmetic.zero)
    | none => arithmetic.wideZero
  arithmetic.narrow ((List.range module.inputDim.toNat).foldl (fun value k =>
    let idx := if module.transposed then k * module.outputDim.toNat + j
      else j * module.inputDim.toNat + k
    arithmetic.add value (arithmetic.mul
      (arithmetic.widen (current.getD k arithmetic.zero))
      (arithmetic.widen (weight.getD idx arithmetic.zero)))) start)

def applyModule (state : List Number × Int) (indexed : ProjectionModule Number × Nat) :
    Except String (List Number × Int) :=
  let module := indexed.1
  if module.inputDim ≠ state.2 then
    .error (s!"ColBERT projection module {indexed.2} expected input_dim {module.inputDim} but " ++
      s!"received {state.2}")
  else
    match module.kind with
    | .dense =>
      .ok ((List.range module.outputDim.toNat).map (denseEntry arithmetic module state.1),
        module.outputDim)
    | .normalize =>
      match normalizeVector arithmetic state.1 state.2 with
      | none => .error "ColBERT projection normalization saw a zero or non-finite vector"
      | some values => .ok (values, state.2)
    | .truncate =>
      if state.2 < module.outputDim then
        .error (s!"ColBERT truncate projection output_dim {module.outputDim} exceeds input_dim " ++
          s!"{state.2}")
      else .ok (state.1.take module.outputDim.toNat, module.outputDim)

def applyProjectionChain (entry : CachedModel Number) (embedding : List Number) :
    Except String (List Number × Int) :=
  entry.chain.projectionModules.zipIdx.foldlM (applyModule arithmetic)
    (embedding, entry.model.nEmbdModel)

/-- The vector of an output, normalized where the specification says so. -/
def finishVector (spec : EncodeSpec) (entry : CachedModel Number) (vector : List Number)
    (message : String) : Except String (List Number) :=
  let norm := sumSquares arithmetic vector entry.chain.nEmbdOut
  if arithmetic.positiveFinite norm then
    .ok (if spec.normalize then
        divideBy arithmetic vector entry.chain.nEmbdOut (arithmetic.sqrt norm)
      else vector.take entry.chain.nEmbdOut.toNat)
  else .error message

def tokenVector (spec : EncodeSpec) (entry : CachedModel Number) (embedding : List Number) :
    Except String (List Number) := do
  let message := "llama returned a zero or non-finite token embedding"
  if entry.chain.hasProjection then
    let (vector, vectorDim) ← applyProjectionChain arithmetic entry embedding
    if vectorDim ≠ entry.chain.nEmbdOut then
      .error (s!"ColBERT projection output dimension is {vectorDim}, expected " ++
        s!"{entry.chain.nEmbdOut}")
    else finishVector arithmetic spec entry vector message
  else finishVector arithmetic spec entry embedding message

/-- The output of one sequence, which is not projected. -/
def denseVector (spec : EncodeSpec) (entry : CachedModel Number) (pooled : Option (List Number)) :
    Except String (List Number) :=
  match pooled with
  | none => .error "llama did not return pooled sequence embeddings"
  | some vector =>
    finishVector arithmetic spec entry vector "llama returned a zero or non-finite embedding"

end Vectors

/-! ### Outputs -/

structure TokenDebug where
  index : Nat
  id : Int
  piece : Option (List Nat)
  positionId : Int
  tokenTypeId : Int
  attentionMask : Int
  outputEnabled : Bool
  retained : Bool
  retainReason : String

/-- An output; how long its parts took is left out. -/
structure EngineOutput (Number : Type) where
  engine : String
  path : String
  input : String
  textPrefix : String
  profileSource : String
  attentionMaskStatus : String
  knownLimitations : String
  dim : Int
  count : Int
  planTokenCount : Nat
  normalized : Bool
  loadedFromCache : Bool
  tokenDebug : Option (List TokenDebug)
  tokenIds : List Int
  values : List Number

def attentionMaskStatus (spec : EncodeSpec) : String :=
  if spec.role = .query ∧ spec.load.profile.loaded ∧ spec.profile.strictPylateProfile ∧
      ¬spec.profile.queryAttendToExpansionTokens then "approximated" else "ok"

def outputCountOf (spec : EncodeSpec) (plan : EncodePlan) : Int :=
  if spec.load.outputMode = .dense then 1 else plan.outputCount

def debugTokens (llama : Llama Number) (plan : EncodePlan) : List TokenDebug :=
  plan.tokens.zipIdx.map fun indexed =>
    { index := indexed.2
      id := indexed.1.token
      piece := llama.text indexed.1.token
      positionId := indexed.1.positionId
      tokenTypeId := indexed.1.tokenTypeId
      attentionMask := indexed.1.attentionMask
      outputEnabled := indexed.1.output
      retained := indexed.1.retain
      retainReason := indexed.1.retainReason }

structure Engine (Number Wide : Type) where
  arithmetic : Arithmetic Number Wide
  llama : Llama Number
  spec : EncodeSpec
  entry : CachedModel Number
  loadedFromCache : Bool

/-- The output of an input with the tokens and the values read for it. -/
def Engine.outputOf (engine : Engine Number Wide) (input : String) (plan : EncodePlan)
    (vectors : List Int × List Number) : EngineOutput Number where
  engine := "llama"
  path := engine.entry.path
  input := input
  textPrefix := engine.spec.textPrefix
  profileSource := engine.spec.profile.sourceName
  attentionMaskStatus := attentionMaskStatus engine.spec
  knownLimitations := engine.spec.profile.knownLimitations
  dim := engine.entry.chain.nEmbdOut
  count := outputCountOf engine.spec plan
  planTokenCount := plan.nTokens
  normalized := engine.spec.normalize
  loadedFromCache := engine.loadedFromCache
  tokenDebug := if engine.spec.debugTokens then some (debugTokens engine.llama plan) else none
  tokenIds := vectors.1
  values := vectors.2

/-- The batch of one plan, whose tokens are all of the sequence 0. -/
def singleBatch (plan : EncodePlan) : LlamaBatch where
  nTokens := plan.nTokens
  tokens := plan.tokens.map fun token => ⟨token.token, token.positionId, 0⟩

/-- The loop over the tokens of the plan, which stops where the output is full. -/
def Engine.readTokens (engine : Engine Number Wide) (rows : List (List Number)) (count : Int) :
    (index : Nat) → List PlanToken → List Int × List Number →
    Except String (List Int × List Number)
  | _, [], read => .ok read
  | index, token :: rest, read =>
    if ¬(read.1.length : Int) < count then .ok read
    else if !token.output then engine.readTokens rows count (index + 1) rest read
    else
      match tokenVector engine.arithmetic engine.spec engine.entry (rows.getD index []) with
      | .error message => .error message
      | .ok vector =>
        engine.readTokens rows count (index + 1) rest
          (read.1 ++ [token.token], read.2 ++ vector)

def Engine.encodePlanned (engine : Engine Number Wide) (input : String) (plan : EncodePlan) :
    Except String (EngineOutput Number) :=
  let evaluation := engine.llama.evaluate (singleBatch plan)
  if evaluation.status ≠ 0 then
    .error s!"llama model evaluation failed with status {evaluation.status}"
  else if engine.spec.load.outputMode = .dense then
    match denseVector engine.arithmetic engine.spec engine.entry (evaluation.pooled 0) with
    | .error message => .error message
    | .ok vector => .ok (engine.outputOf input plan ([0], vector))
  else
    match evaluation.embeddings with
    | none => .error "llama did not return token embeddings"
    | some rows =>
      engine.outputOf input plan <$>
        engine.readTokens rows (outputCountOf engine.spec plan) 0 plan.tokens ([], [])

def Engine.encode (engine : Engine Number Wide) (input : String) :
    Except String (EngineOutput Number) := do
  let plan ← buildEncodePlan engine.llama engine.spec (engine.spec.textPrefix ++ input)
  if engine.spec.load.nCtx < plan.nTokens ∨ engine.spec.load.nBatch < plan.nTokens then
    .error (s!"tokenized input has {plan.nTokens} tokens, exceeding " ++
      s!"n_ctx={engine.spec.load.nCtx} or n_batch={engine.spec.load.nBatch}")
  else engine.encodePlanned input plan

/-! ### Opening the model -/

/-- What an encoding runs on: the model directory, the files, the library and the floats. -/
structure Platform (Number Wide : Type) where
  realpath : String → Except String String
  world : World Number
  llama : CachedModel Number → Llama Number
  arithmetic : Arithmetic Number Wide

def pathUnderDir (path dir : String) : Bool :=
  if dir = "/" then ['/'].isPrefixOf path.toList
  else (dir.toList ++ ['/']).isPrefixOf path.toList

def pathMax : Nat := 4096

def resolvePath (platform : Platform Number Wide) (spec : EncodeSpec) : Except String String :=
  match platform.realpath spec.modelDir with
  | .error reason =>
    .error s!"could not resolve pg_colbert_llama.model_dir \"{spec.modelDir}\": {reason}"
  | .ok resolvedDir =>
    let candidate := s!"{resolvedDir}/{spec.load.modelAlias}.gguf"
    if pathMax ≤ candidate.utf8ByteSize then .error "resolved model path is too long"
    else
      match platform.realpath candidate with
      | .error reason => .error s!"could not resolve model file \"{candidate}\": {reason}"
      | .ok resolvedPath =>
        if pathUnderDir resolvedPath resolvedDir then .ok resolvedPath
        else .error "resolved model file is outside pg_colbert_llama.model_dir"

def EncodeSpec.sequences (spec : EncodeSpec) : Int :=
  max spec.batchSequences 1

/-- The model of a specification, whose dimension may be checked. -/
def openModel (platform : Platform Number Wide) (cache : Cache Number) (spec : EncodeSpec) :
    Except String (Engine Number Wide) :=
  match resolvePath platform spec with
  | .error message => .error message
  | .ok path =>
    match (loadModel platform.world cache ⟨spec.load, path, spec.sequences⟩).1 with
    | .error message => .error message
    | .ok loaded =>
      let dim := loaded.entry.model.chain.nEmbdOut
      if spec.checkExpectedDim ∧ dim ≠ spec.load.expectedDim then
        .error (s!"GGUF output dimension is {dim}, expected {spec.load.expectedDim}. The GGUF " ++
          "must include colbert.proj.weight or provide a " ++
          s!"{spec.load.expectedDim}-dimensional ColBERT GGUF.")
      else
        .ok ⟨platform.arithmetic, platform.llama loaded.entry.model, spec, loaded.entry.model,
          loaded.loadedFromCache⟩

/-- **The encoding of one input**, from the cache of the backend. -/
def encodeBody (platform : Platform Number Wide) (cache : Cache Number) (spec : EncodeSpec)
    (input : String) : Except String (EngineOutput Number) := do
  let engine ← openModel platform cache spec
  engine.encode input

/-! ### Plans that are built -/

section Plans

variable {llama : Llama Number} {spec : EncodeSpec} {plan : EncodePlan}

def keptTokens (tokens : List PlanToken) : Nat :=
  tokens.countP fun token => token.output

theorem planLoop_outputCount (position : Nat) (outputCount : Int) (tokens : List Int) :
    (planLoop llama spec position outputCount tokens).2 =
      outputCount + keptTokens (planLoop llama spec position outputCount tokens).1 := by
  induction tokens generalizing position outputCount with
  | nil => simp [planLoop, keptTokens]
  | cons token rest ih =>
    simp only [planLoop]
    rw [ih, keptTokens, keptTokens, List.countP_cons]
    split_ifs <;> push_cast <;> omega

theorem planLoop_positions (position : Nat) (outputCount : Int) (tokens : List Int) :
    (planLoop llama spec position outputCount tokens).1.map
        (fun token => (token.token, token.positionId)) =
      (tokens.zipIdx position).map fun indexed => (indexed.1, (indexed.2 : Int)) := by
  induction tokens generalizing position outputCount with
  | nil => rfl
  | cons token rest ih =>
    simp only [planLoop, List.map_cons, List.zipIdx_cons, ih]

/-- A plan counts its kept tokens, has some, and its positions are the indexes of its tokens. -/
structure PlanSound (plan : EncodePlan) : Prop where
  outputCount : plan.outputCount = keptTokens plan.tokens
  nonempty : plan.tokens ≠ []
  positions : plan.tokens.map (fun token => (token.token, token.positionId)) =
    (plan.tokens.map PlanToken.token).zipIdx.map fun indexed => (indexed.1, (indexed.2 : Int))

theorem planLoop_sound (tokens : List Int)
    (kept : ¬(planLoop llama spec 0 0 tokens).2 ≤ 0) :
    PlanSound ⟨(planLoop llama spec 0 0 tokens).1, (planLoop llama spec 0 0 tokens).2⟩ := by
  have counted := @planLoop_outputCount _ llama spec 0 0 tokens
  have positions := @planLoop_positions _ llama spec 0 0 tokens
  rw [Int.zero_add] at counted
  have same : (planLoop llama spec 0 0 tokens).1.map PlanToken.token = tokens := by
    have firsts := congrArg (List.map Prod.fst) positions
    rw [List.map_map, List.map_map] at firsts
    exact firsts.trans (List.zipIdx_map_fst ..)
  refine ⟨counted, ?_, ?_⟩
  · intro nothing
    apply kept
    rw [counted, show (planLoop llama spec 0 0 tokens).1 = [] from nothing]
    exact Int.le_refl 0
  · show (planLoop llama spec 0 0 tokens).1.map _ =
      ((planLoop llama spec 0 0 tokens).1.map PlanToken.token).zipIdx.map _
    rw [positions, same]

theorem buildEncodePlan_sound {fullText : String}
    (built : buildEncodePlan llama spec fullText = .ok plan) : PlanSound plan := by
  obtain ⟨tokens, -, built⟩ := bind_ok built
  dsimp only at built
  split_ifs at built with kept
  obtain rfl := Except.ok.inj built
  exact planLoop_sound tokens kept

end Plans

/-! ### The vectors of an input -/

/-- What is read for the kept tokens, wherever the loops stop. -/
def Engine.readKept (engine : Engine Number Wide) (rows : List (List Number)) :
    (index : Nat) → List PlanToken → List Int × List Number →
    Except String (List Int × List Number)
  | _, [], read => .ok read
  | index, token :: rest, read =>
    if !token.output then engine.readKept rows (index + 1) rest read
    else
      match tokenVector engine.arithmetic engine.spec engine.entry (rows.getD index []) with
      | .error message => .error message
      | .ok vector =>
        engine.readKept rows (index + 1) rest (read.1 ++ [token.token], read.2 ++ vector)

section Reading

variable (engine : Engine Number Wide) (rows : List (List Number))

theorem readKept_none {index : Nat} {tokens : List PlanToken} {read : List Int × List Number}
    (nothing : keptTokens tokens = 0) : engine.readKept rows index tokens read = .ok read := by
  induction tokens generalizing index with
  | nil => rfl
  | cons token rest ih =>
    rw [keptTokens, List.countP_cons] at nothing
    have dropped : token.output = false := by
      cases kept : token.output with
      | false => rfl
      | true => simp [kept] at nothing
    unfold Engine.readKept
    rw [dropped]
    apply ih
    show List.countP _ rest = 0
    omega

/-- **The loop over a plan reads all kept tokens** where the output has room for just these. -/
theorem readTokens_eq {count : Int} {index : Nat} {tokens : List PlanToken}
    {read : List Int × List Number} (room : count = read.1.length + keptTokens tokens) :
    engine.readTokens rows count index tokens read = engine.readKept rows index tokens read := by
  induction tokens generalizing index read with
  | nil => rfl
  | cons token rest ih =>
    unfold Engine.readTokens
    by_cases full : (read.1.length : Int) < count
    · rw [if_neg (not_not_intro full)]
      unfold Engine.readKept
      rw [keptTokens, List.countP_cons] at room
      cases kept : token.output with
      | false =>
        simp only [Bool.not_false, if_true]
        apply ih
        rw [kept] at room
        simpa [keptTokens] using room
      | true =>
        simp only [Bool.not_true, Bool.false_eq_true, if_false]
        split
        · rfl
        · apply ih
          rw [kept] at room
          rw [List.length_append, List.length_singleton, room, keptTokens]
          push_cast
          simp only [if_true]
          omega
    · rw [if_pos full, readKept_none]
      omega

theorem readKept_shift (before after : List (List Number)) {index : Nat}
    {tokens : List PlanToken} {read : List Int × List Number}
    (inside : index + tokens.length ≤ rows.length) :
    engine.readKept (before ++ rows ++ after) (before.length + index) tokens read =
      engine.readKept rows index tokens read := by
  induction tokens generalizing index read with
  | nil => rfl
  | cons token rest ih =>
    rw [List.length_cons] at inside
    have row : (before ++ rows ++ after).getD (before.length + index) [] = rows.getD index [] := by
      rw [List.getD_append _ _ _ _ (by rw [List.length_append]; omega),
        List.getD_append_right _ _ _ _ (Nat.le_add_right _ _), Nat.add_sub_cancel_left]
    unfold Engine.readKept
    rw [row, Nat.add_assoc]
    have later (read : List Int × List Number) := @ih (index + 1) read (by omega)
    simp only [later]

end Reading

end TurboHybrid.Colbert
