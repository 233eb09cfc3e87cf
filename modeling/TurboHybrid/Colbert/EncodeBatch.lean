/-
**The encoding of many inputs in batches.**

All inputs are planned first. Then they are grouped, once to find how many tokens the largest batch
has and once more to run: a group takes inputs while it has fewer than the configured sequences and
their tokens fit a batch. A group is one batch, with a sequence for each input; its vectors are read
behind a token counter that runs on over the inputs of the group.

* `takeGroup_fits`: a group has an input, and fits a batch;
* `readGroup_eq`: with a library that evaluates sequences independently, a group reads what its
  inputs alone would;
* `encodeBatch_right`: so does the whole run, within the batch that was allocated.
-/
import Mathlib.Tactic.Push
import TurboHybrid.Colbert.Encode

namespace TurboHybrid.Colbert

open Library

variable {Number Wide : Type}

/-! ### The run -/

structure PlannedInput where
  input : String
  plan : EncodePlan

def Engine.planInputs (engine : Engine Number Wide) : (index : Nat) → List String →
    Except String (List PlannedInput)
  | _, [] => .ok []
  | index, input :: rest =>
    match buildEncodePlan engine.llama engine.spec (engine.spec.textPrefix ++ input) with
    | .error message => .error message
    | .ok plan =>
      if engine.spec.load.nCtx < plan.nTokens ∨ engine.spec.load.nBatch < plan.nTokens then
        .error (s!"tokenized input {index + 1} has {plan.nTokens} tokens, exceeding " ++
          s!"n_ctx={engine.spec.load.nCtx} or n_batch={engine.spec.load.nBatch}")
      else
        match engine.planInputs (index + 1) rest with
        | .error message => .error message
        | .ok planned => .ok (⟨input, plan⟩ :: planned)

/-- The next group, from how many inputs and tokens it has already, and the inputs behind it. -/
def takeGroup (sequences nBatch : Int) : (taken totalTokens : Int) → List PlannedInput →
    List PlannedInput × List PlannedInput
  | _, _, [] => ([], [])
  | taken, totalTokens, planned :: rest =>
    if taken < sequences then
      if 0 < totalTokens ∧ nBatch < totalTokens + planned.plan.nTokens then ([], planned :: rest)
      else
        let later := takeGroup sequences nBatch (taken + 1) (totalTokens + planned.plan.nTokens) rest
        (planned :: later.1, later.2)
    else ([], planned :: rest)

def totalTokens (group : List PlannedInput) : Nat :=
  (group.map fun planned => planned.plan.nTokens).sum

def totalOutputs (group : List PlannedInput) : Int :=
  (group.map fun planned => planned.plan.outputCount).sum

theorem takeGroup_append {sequences nBatch taken total : Int} {plans : List PlannedInput} :
    (takeGroup sequences nBatch taken total plans).1 ++
      (takeGroup sequences nBatch taken total plans).2 = plans := by
  induction plans generalizing taken total with
  | nil => rfl
  | cons planned rest ih =>
    unfold takeGroup
    split
    · split
      · rfl
      · simp only [List.cons_append, ih]
    · rfl

theorem takeGroup_shorter {sequences nBatch taken total : Int} {plans : List PlannedInput}
    (some' : (takeGroup sequences nBatch taken total plans).1 ≠ []) :
    (takeGroup sequences nBatch taken total plans).2.length < plans.length := by
  have parts := congrArg List.length (@takeGroup_append sequences nBatch taken total plans)
  rw [List.length_append] at parts
  have positive := List.length_pos_iff.mpr some'
  omega

def groupTooLong (nBatch : Int) (start : Nat) (plans : List PlannedInput) : String :=
  let tokens := (plans.head?.map fun planned => planned.plan.nTokens).getD 0
  s!"tokenized input {start + 1} has {tokens} tokens, exceeding n_batch={nBatch}"

def maxBatchTokens (sequences nBatch : Int) (start largest : Nat) (plans : List PlannedInput) :
    Except String Nat :=
  if plans = [] then .ok largest
  else if _ : (takeGroup sequences nBatch 0 0 plans).1 = [] then
    .error (groupTooLong nBatch start plans)
  else
    maxBatchTokens sequences nBatch
      (start + (takeGroup sequences nBatch 0 0 plans).1.length)
      (max largest (totalTokens (takeGroup sequences nBatch 0 0 plans).1))
      (takeGroup sequences nBatch 0 0 plans).2
termination_by plans.length
decreasing_by exact takeGroup_shorter ‹_›

/-- The batch of a group: the sequence of an input is its place in the group. -/
def groupBatch (group : List PlannedInput) : LlamaBatch where
  nTokens := totalTokens group
  tokens := group.zipIdx.flatMap fun indexed =>
    indexed.1.plan.tokens.map fun token => ⟨token.token, token.positionId, indexed.2⟩

/-- The counters that run on over the inputs of a group. -/
structure ReadState where
  readToken : Nat
  outputOrdinal : Nat

def Engine.readPlan (engine : Engine Number Wide) (rows : List (List Number)) :
    ReadState → List PlanToken → List Int × List Number →
    Except String ((List Int × List Number) × ReadState)
  | state, [], read => .ok (read, state)
  | state, token :: rest, read =>
    if !token.output then
      engine.readPlan rows ⟨state.readToken + 1, state.outputOrdinal⟩ rest read
    else
      match tokenVector engine.arithmetic engine.spec engine.entry
          (rows.getD state.readToken []) with
      | .error message => .error message
      | .ok vector =>
        engine.readPlan rows ⟨state.readToken + 1, state.outputOrdinal + 1⟩ rest
          (read.1 ++ [token.token], read.2 ++ vector)

def Engine.readInput (engine : Engine Number Wide) (rows : List (List Number))
    (pooled : Nat → Option (List Number)) (seqId : Nat) (state : ReadState)
    (planned : PlannedInput) : Except String (EngineOutput Number × ReadState) :=
  if engine.spec.load.outputMode = .dense then
    match denseVector engine.arithmetic engine.spec engine.entry (pooled seqId) with
    | .error message => .error message
    | .ok vector => .ok (engine.outputOf planned.input planned.plan ([0], vector), state)
  else
    match engine.readPlan rows state planned.plan.tokens ([], []) with
    | .error message => .error message
    | .ok (vectors, state) => .ok (engine.outputOf planned.input planned.plan vectors, state)

def Engine.readInputs (engine : Engine Number Wide) (rows : List (List Number))
    (pooled : Nat → Option (List Number)) : (seqId : Nat) → ReadState → List PlannedInput →
    Except String (List (EngineOutput Number) × ReadState)
  | _, state, [] => .ok ([], state)
  | seqId, state, planned :: rest =>
    match engine.readInput rows pooled seqId state planned with
    | .error message => .error message
    | .ok (output, state) =>
      match engine.readInputs rows pooled (seqId + 1) state rest with
      | .error message => .error message
      | .ok (outputs, state) => .ok (output :: outputs, state)

/-- The outputs of a group, where the counters end as they should. -/
def Engine.readGroup (engine : Engine Number Wide) (evaluation : Evaluation Number)
    (group : List PlannedInput) : Except String (List (EngineOutput Number)) :=
  let rows := if engine.spec.load.outputMode = .tokens then evaluation.embeddings else some []
  match rows with
  | none => .error "llama did not return token embeddings"
  | some rows =>
    match engine.readInputs rows evaluation.pooled 0 ⟨0, 0⟩ group with
    | .error message => .error message
    | .ok (outputs, state) =>
      if engine.spec.load.outputMode = .tokens ∧
          ((state.outputOrdinal : Int) ≠ totalOutputs group ∨
            state.readToken ≠ totalTokens group) then
        .error (s!"llama returned {state.outputOrdinal} embeddings for {totalOutputs group} " ++
          s!"requested outputs across {totalTokens group} tokens")
      else .ok outputs

structure BatchRun (Number : Type) where
  allocated : Nat
  submitted : List LlamaBatch
  result : Except String (List (EngineOutput Number))

def Engine.runGroups (engine : Engine Number Wide) (start : Nat) (plans : List PlannedInput) :
    List LlamaBatch × Except String (List (EngineOutput Number)) :=
  if plans = [] then ([], .ok [])
  else if _ : (takeGroup engine.spec.sequences engine.spec.load.nBatch 0 0 plans).1 = [] then
    ([], .error (groupTooLong engine.spec.load.nBatch start plans))
  else
    let group := (takeGroup engine.spec.sequences engine.spec.load.nBatch 0 0 plans).1
    let evaluation := engine.llama.evaluate (groupBatch group)
    if evaluation.status ≠ 0 then
      ([groupBatch group],
        .error s!"llama model evaluation failed with status {evaluation.status}")
    else
      match engine.readGroup evaluation group with
      | .error message => ([groupBatch group], .error message)
      | .ok outputs =>
        let later := engine.runGroups (start + group.length)
          (takeGroup engine.spec.sequences engine.spec.load.nBatch 0 0 plans).2
        (groupBatch group :: later.1, (fun rest => outputs ++ rest) <$> later.2)
termination_by plans.length
decreasing_by exact takeGroup_shorter ‹_›

def Engine.encodeBatch (engine : Engine Number Wide) (inputs : List String) : BatchRun Number :=
  match engine.planInputs 0 inputs with
  | .error message => ⟨0, [], .error message⟩
  | .ok plans =>
    match maxBatchTokens engine.spec.sequences engine.spec.load.nBatch 0 0 plans with
    | .error message => ⟨0, [], .error message⟩
    | .ok allocated =>
      let run := engine.runGroups 0 plans
      ⟨allocated, run.1, run.2⟩

/-- **The encoding of many inputs**, from the cache of the backend. -/
def encodeBatchBody (platform : Platform Number Wide) (cache : Cache Number) (spec : EncodeSpec)
    (inputs : List String) : BatchRun Number :=
  if inputs = [] then ⟨0, [], .ok []⟩
  else
    match openModel platform cache spec with
    | .error message => ⟨0, [], .error message⟩
    | .ok engine => engine.encodeBatch inputs

/-! ### What the library does -/

/-- The batch of some sequences of tokens, each from position 0. -/
def batchOf (sequences : List (List Int)) : LlamaBatch where
  nTokens := (sequences.map List.length).sum
  tokens := sequences.zipIdx.flatMap fun indexed =>
    indexed.1.zipIdx.map fun token => ⟨token.1, token.2, indexed.2⟩

/-- Sequences that a context of these limits evaluates in one batch. -/
structure Fits (nBatch nSeqMax : Int) (sequences : List (List Int)) : Prop where
  nonempty : sequences ≠ []
  tokens : ∀ sequence ∈ sequences, sequence ≠ []
  batch : ((sequences.map List.length).sum : Int) ≤ nBatch
  count : (sequences.length : Int) ≤ nSeqMax

/-- **The sequences of a batch are evaluated independently of each other**: the evaluation succeeds
where that of each sequence alone does, its vectors are those of the sequences one behind the other,
and the pooled vector of a sequence is that of the sequence alone. -/
structure Independent (evaluate : LlamaBatch → Evaluation Number) (nBatch nSeqMax : Int) :
    Prop where
  status : ∀ sequences, Fits nBatch nSeqMax sequences →
    ((evaluate (batchOf sequences)).status = 0 ↔
      ∀ sequence ∈ sequences, (evaluate (batchOf [sequence])).status = 0)
  embeddings : ∀ sequences, Fits nBatch nSeqMax sequences →
    (evaluate (batchOf sequences)).status = 0 →
    (evaluate (batchOf sequences)).embeddings =
      (sequences.mapM fun sequence => (evaluate (batchOf [sequence])).embeddings).map List.flatten
  rows : ∀ sequence rows, (evaluate (batchOf [sequence])).status = 0 →
    (evaluate (batchOf [sequence])).embeddings = some rows → rows.length = sequence.length
  pooled : ∀ sequences, Fits nBatch nSeqMax sequences →
    (evaluate (batchOf sequences)).status = 0 → ∀ seqId sequence, sequences[seqId]? = some sequence →
    (evaluate (batchOf sequences)).pooled seqId = (evaluate (batchOf [sequence])).pooled 0

/-- **A run is right**: its outputs are those of the inputs alone, it fails where one of these does,
and no batch has more tokens than allocated or more sequences than configured. -/
structure BatchRight (single : String → Except String (EngineOutput Number)) (sequences : Int)
    (inputs : List String) (run : BatchRun Number) : Prop where
  outputs : run.result.toOption = inputs.mapM fun input => (single input).toOption
  tokens : ∀ batch ∈ run.submitted,
    batch.nTokens = batch.tokens.length ∧ batch.tokens.length ≤ run.allocated
  sequences : ∀ batch ∈ run.submitted, ∀ token ∈ batch.tokens, (token.seqId : Int) < sequences

/-! ### Groups -/

section Groups

variable {sequences nBatch : Int} {plans group : List PlannedInput}

theorem takeGroup_bounds {taken total : Int} (below : taken ≤ sequences) (within : total ≤ nBatch)
    (started : 0 < total ∨ total = 0)
    (each : ∀ planned ∈ plans, 0 < planned.plan.nTokens ∧ (planned.plan.nTokens : Int) ≤ nBatch) :
    total + totalTokens (takeGroup sequences nBatch taken total plans).1 ≤ nBatch ∧
      taken + (takeGroup sequences nBatch taken total plans).1.length ≤ sequences := by
  induction plans generalizing taken total with
  | nil => exact ⟨by simpa [takeGroup, totalTokens] using within, by simpa [takeGroup] using below⟩
  | cons planned rest ih =>
    obtain ⟨positive, fits⟩ := each planned List.mem_cons_self
    unfold takeGroup
    split
    · rename_i room
      split
      · exact ⟨by simpa [totalTokens] using within, by simpa using below⟩
      · rename_i open'
        have within' : total + planned.plan.nTokens ≤ nBatch := by
          by_contra exceeds
          rcases started with positive' | rfl
          · exact open' ⟨positive', by omega⟩
          · omega
        obtain ⟨tokens, length⟩ := @ih (taken + 1) (total + planned.plan.nTokens) (by omega)
          within' (.inl (by omega)) fun planned member => each planned (.tail _ member)
        constructor
        · show total + ((planned.plan.nTokens + totalTokens _ : Nat) : Int) ≤ nBatch
          push_cast
          omega
        · rw [List.length_cons]
          push_cast
          omega
    · exact ⟨by simpa [totalTokens] using within, by simpa using below⟩

theorem takeGroup_nonempty (nBatch : Int) (positive : 0 < sequences) (some' : plans ≠ []) :
    (takeGroup sequences nBatch 0 0 plans).1 ≠ [] := by
  obtain ⟨planned, rest, rfl⟩ := List.exists_cons_of_ne_nil some'
  unfold takeGroup
  rw [if_pos positive, if_neg fun busy => Int.lt_irrefl 0 busy.1]
  exact List.cons_ne_nil _ _

theorem maxBatchTokens_ok (positive : 0 < sequences) (nBatch : Int) (start largest : Nat)
    (plans : List PlannedInput) :
    ∃ allocated, maxBatchTokens sequences nBatch start largest plans = .ok allocated ∧
      largest ≤ allocated := by
  induction fewer : plans.length using Nat.strongRecOn
    generalizing plans start largest with
  | ind count ih =>
    unfold maxBatchTokens
    split
    · exact ⟨largest, rfl, Nat.le_refl _⟩
    · rename_i some'
      have found := takeGroup_nonempty nBatch positive some'
      rw [dif_neg found]
      obtain ⟨allocated, done, bound⟩ := ih _ (fewer ▸ takeGroup_shorter found) _
        (max largest (totalTokens (takeGroup sequences nBatch 0 0 plans).1)) _ rfl
      exact ⟨allocated, done, Nat.le_trans (Nat.le_max_left _ _) bound⟩

theorem maxBatchTokens_group {start largest allocated : Nat} (positive : 0 < sequences)
    (some' : plans ≠ []) (done : maxBatchTokens sequences nBatch start largest plans = .ok allocated) :
    totalTokens (takeGroup sequences nBatch 0 0 plans).1 ≤ allocated ∧
      maxBatchTokens sequences nBatch (start + (takeGroup sequences nBatch 0 0 plans).1.length)
        (max largest (totalTokens (takeGroup sequences nBatch 0 0 plans).1))
        (takeGroup sequences nBatch 0 0 plans).2 = .ok allocated := by
  have found := takeGroup_nonempty nBatch positive some'
  rw [maxBatchTokens, if_neg some', dif_neg found] at done
  refine ⟨?_, done⟩
  obtain ⟨allocated', done', bound⟩ := maxBatchTokens_ok positive nBatch
    (start + (takeGroup sequences nBatch 0 0 plans).1.length)
    (max largest (totalTokens (takeGroup sequences nBatch 0 0 plans).1))
    (takeGroup sequences nBatch 0 0 plans).2
  rw [done] at done'
  obtain rfl := Except.ok.inj done'
  exact Nat.le_trans (Nat.le_max_right _ _) bound

/-! ### Batches -/

def sequencesOf (group : List PlannedInput) : List (List Int) :=
  group.map fun planned => planned.plan.tokens.map PlanToken.token

theorem planBatch_eq {plan : EncodePlan} (sound : PlanSound plan) (seqId : Nat) :
    (plan.tokens.map fun token => (⟨token.token, token.positionId, seqId⟩ : BatchToken)) =
      (plan.tokens.map PlanToken.token).zipIdx.map fun token => ⟨token.1, token.2, seqId⟩ := by
  have positions := congrArg
    (List.map fun pair : Int × Int => (⟨pair.1, pair.2, seqId⟩ : BatchToken)) sound.positions
  rw [List.map_map, List.map_map] at positions
  exact positions

theorem singleBatch_eq {plan : EncodePlan} (sound : PlanSound plan) :
    singleBatch plan = batchOf [plan.tokens.map PlanToken.token] := by
  unfold singleBatch batchOf
  rw [planBatch_eq sound]
  simp [EncodePlan.nTokens]

theorem groupBatch_eq (sound : ∀ planned ∈ group, PlanSound planned.plan) :
    groupBatch group = batchOf (sequencesOf group) := by
  unfold groupBatch batchOf sequencesOf
  congr 1
  · rw [List.map_map]
    exact congrArg List.sum (List.map_congr_left fun planned _ => (List.length_map _).symm)
  · rw [List.zipIdx_map, List.flatMap_map]
    refine List.flatMap_congr fun indexed member => ?_
    obtain ⟨planned, seqId⟩ := indexed
    exact planBatch_eq (sound planned (List.fst_mem_of_mem_zipIdx member)) seqId

/-- **The batch of a group has its tokens, each of a sequence of the group.** -/
theorem groupBatch_tokens (group : List PlannedInput) :
    (groupBatch group).tokens.length = totalTokens group ∧
      ∀ token ∈ (groupBatch group).tokens, token.seqId < group.length := by
  constructor
  · show (group.zipIdx.flatMap _).length = _
    rw [List.length_flatMap]
    have lengths : (fun indexed : PlannedInput × Nat =>
        (indexed.1.plan.tokens.map fun token =>
          (⟨token.token, token.positionId, indexed.2⟩ : BatchToken)).length) =
        (fun planned : PlannedInput => planned.plan.nTokens) ∘ Prod.fst := by
      funext indexed
      exact List.length_map _
    rw [lengths, ← List.map_map, List.zipIdx_map_fst]
    rfl
  · intro token member
    obtain ⟨indexed, inside, here⟩ := List.mem_flatMap.mp member
    obtain ⟨planned, -, rfl⟩ := List.mem_map.mp here
    exact List.snd_lt_of_mem_zipIdx inside

end Groups

/-! ### The vectors of a group -/

section Reading

variable {engine : Engine Number Wide} {rows before after : List (List Number)}
  {pooled : Nat → Option (List Number)} {planned : PlannedInput} {group : List PlannedInput}

def Engine.alone (engine : Engine Number Wide) (planned : PlannedInput) :
    Except String (EngineOutput Number) :=
  engine.encodePlanned planned.input planned.plan

/-- What the library leaves for an input of a group alone. -/
def Engine.evaluation (engine : Engine Number Wide) (planned : PlannedInput) : Evaluation Number :=
  engine.llama.evaluate (singleBatch planned.plan)

theorem alone_failed (failed : (engine.evaluation planned).status ≠ 0) :
    (engine.alone planned).toOption = none := by
  have chosen : engine.alone planned =
      .error s!"llama model evaluation failed with status {(engine.evaluation planned).status}" :=
    if_pos failed
  rw [chosen]
  rfl

theorem alone_dense (succeeded : (engine.evaluation planned).status = 0)
    (dense : engine.spec.load.outputMode = .dense) :
    engine.alone planned =
      (fun vector => engine.outputOf planned.input planned.plan ([0], vector)) <$>
        denseVector engine.arithmetic engine.spec engine.entry
          ((engine.evaluation planned).pooled 0) := by
  refine (if_neg (not_not_intro succeeded)).trans ((if_pos dense).trans ?_)
  show (match denseVector engine.arithmetic engine.spec engine.entry
    ((engine.evaluation planned).pooled 0) with | .error message => _ | .ok vector => _) = _
  cases denseVector engine.arithmetic engine.spec engine.entry
    ((engine.evaluation planned).pooled 0) <;> rfl

theorem not_dense (tokens : engine.spec.load.outputMode = .tokens) :
    ¬engine.spec.load.outputMode = .dense := by
  rw [tokens]
  decide

theorem alone_eq_tokens (succeeded : (engine.evaluation planned).status = 0)
    (tokens : engine.spec.load.outputMode = .tokens) :
    engine.alone planned =
      match (engine.evaluation planned).embeddings with
      | none => .error "llama did not return token embeddings"
      | some rows =>
        engine.outputOf planned.input planned.plan <$>
          engine.readTokens rows (outputCountOf engine.spec planned.plan) 0 planned.plan.tokens
            ([], []) :=
  (if_neg (not_not_intro succeeded)).trans (if_neg (not_dense tokens))

theorem alone_tokens (succeeded : (engine.evaluation planned).status = 0)
    (tokens : engine.spec.load.outputMode = .tokens) (sound : PlanSound planned.plan)
    (found : (engine.evaluation planned).embeddings = some rows) :
    engine.alone planned =
      engine.outputOf planned.input planned.plan <$>
        engine.readKept rows 0 planned.plan.tokens ([], []) := by
  rw [alone_eq_tokens succeeded tokens, found]
  dsimp only
  rw [readTokens_eq]
  unfold outputCountOf
  rw [if_neg (not_dense tokens), sound.outputCount]
  exact (Int.zero_add _).symm

theorem alone_missing (succeeded : (engine.evaluation planned).status = 0)
    (tokens : engine.spec.load.outputMode = .tokens)
    (missing : (engine.evaluation planned).embeddings = none) :
    (engine.alone planned).toOption = none := by
  rw [alone_eq_tokens succeeded tokens, missing]
  rfl

theorem readPlan_eq (state : ReadState) (tokens : List PlanToken) (read : List Int × List Number) :
    engine.readPlan rows state tokens read =
      (fun vectors => (vectors,
        ⟨state.readToken + tokens.length, state.outputOrdinal + keptTokens tokens⟩)) <$>
        engine.readKept rows state.readToken tokens read := by
  induction tokens generalizing state read with
  | nil => rfl
  | cons token rest ih =>
    have counter : state.readToken + (rest.length + 1) = state.readToken + 1 + rest.length := by
      omega
    unfold Engine.readPlan Engine.readKept
    rw [keptTokens, List.countP_cons, List.length_cons, counter]
    cases kept : token.output with
    | false =>
      simp only [Bool.not_false, if_true, Bool.false_eq_true, if_false]
      rw [ih]
      rfl
    | true =>
      have ordinal : state.outputOrdinal + (keptTokens rest + 1) =
          state.outputOrdinal + 1 + keptTokens rest := by
        omega
      simp only [Bool.not_true, Bool.false_eq_true, if_false, if_true]
      rw [show List.countP (fun token => token.output) rest = keptTokens rest from rfl, ordinal]
      cases tokenVector engine.arithmetic engine.spec engine.entry
        (rows.getD state.readToken []) with
      | error message => rfl
      | ok vector => exact ih _ _

theorem readInput_dense {seqId : Nat} {state : ReadState}
    (succeeded : (engine.evaluation planned).status = 0)
    (dense : engine.spec.load.outputMode = .dense)
    (own : pooled seqId = (engine.evaluation planned).pooled 0) :
    engine.readInput rows pooled seqId state planned =
      (fun output => (output, state)) <$> engine.alone planned := by
  rw [alone_dense succeeded dense]
  unfold Engine.readInput
  rw [if_pos dense, own]
  cases denseVector engine.arithmetic engine.spec engine.entry
    ((engine.evaluation planned).pooled 0) <;> rfl

theorem readInput_tokens {seqId outputOrdinal : Nat}
    (succeeded : (engine.evaluation planned).status = 0)
    (tokens : engine.spec.load.outputMode = .tokens) (sound : PlanSound planned.plan)
    (found : (engine.evaluation planned).embeddings = some rows)
    (length : rows.length = planned.plan.nTokens) :
    engine.readInput (before ++ rows ++ after) pooled seqId ⟨before.length, outputOrdinal⟩ planned =
      (fun output => (output, ⟨before.length + planned.plan.nTokens,
        outputOrdinal + keptTokens planned.plan.tokens⟩)) <$> engine.alone planned := by
  have shifted : engine.readKept (before ++ rows ++ after) before.length planned.plan.tokens
      ([], []) = engine.readKept rows 0 planned.plan.tokens ([], []) := by
    refine @readKept_shift _ _ engine rows before after 0 _ _ ?_
    rw [length, Nat.zero_add]
    exact Nat.le_refl _
  rw [alone_tokens succeeded tokens sound found]
  unfold Engine.readInput
  rw [if_neg (not_dense tokens), readPlan_eq, shifted]
  cases engine.readKept rows 0 planned.plan.tokens ([], []) <;> rfl

theorem readInputs_dense {seqId : Nat} {state : ReadState}
    (succeeded : ∀ planned ∈ group, (engine.evaluation planned).status = 0)
    (dense : engine.spec.load.outputMode = .dense)
    (own : ∀ place planned, group[place]? = some planned →
      pooled (seqId + place) = (engine.evaluation planned).pooled 0) :
    engine.readInputs rows pooled seqId state group =
      (fun outputs => (outputs, state)) <$> group.mapM engine.alone := by
  induction group generalizing seqId with
  | nil => rfl
  | cons planned rest ih =>
    have later := @ih (seqId + 1) (fun planned member => succeeded planned (.tail _ member))
      fun place planned found => by
        rw [Nat.add_assoc, Nat.add_comm 1 place]
        exact own (place + 1) planned found
    have here : pooled seqId = (engine.evaluation planned).pooled 0 := own 0 planned rfl
    unfold Engine.readInputs
    rw [readInput_dense (succeeded planned List.mem_cons_self) dense here, List.mapM_cons]
    cases engine.alone planned with
    | error message => rfl
    | ok output =>
      show (match engine.readInputs rows pooled (seqId + 1) state rest with
        | .error message => _ | .ok (outputs, state) => _) = _
      rw [later]
      cases rest.mapM engine.alone <;> rfl

def totalKept (group : List PlannedInput) : Nat :=
  (group.map fun planned => keptTokens planned.plan.tokens).sum

/-- An input of a group has a plan that is sound and a row for each of its tokens. -/
structure HasRows (engine : Engine Number Wide) (planned : PlannedInput)
    (rows : List (List Number)) : Prop where
  sound : PlanSound planned.plan
  succeeded : (engine.evaluation planned).status = 0
  found : (engine.evaluation planned).embeddings = some rows
  length : rows.length = planned.plan.nTokens

theorem readInputs_tokens {rowsOf : PlannedInput → List (List Number)} {seqId outputOrdinal : Nat}
    (tokens : engine.spec.load.outputMode = .tokens)
    (each : ∀ planned ∈ group, HasRows engine planned (rowsOf planned)) :
    engine.readInputs (before ++ (group.map rowsOf).flatten) pooled seqId
        ⟨before.length, outputOrdinal⟩ group =
      (fun outputs => (outputs, ⟨before.length + totalTokens group,
        outputOrdinal + totalKept group⟩)) <$> group.mapM engine.alone := by
  induction group generalizing before seqId outputOrdinal with
  | nil => rfl
  | cons planned rest ih =>
    have has := each planned List.mem_cons_self
    have later := @ih (before ++ rowsOf planned) (seqId + 1)
      (outputOrdinal + keptTokens planned.plan.tokens)
      fun planned member => each planned (.tail _ member)
    rw [List.length_append, has.length] at later
    unfold Engine.readInputs
    rw [List.map_cons, List.flatten_cons, ← List.append_assoc,
      readInput_tokens has.succeeded tokens has.sound has.found has.length, List.mapM_cons]
    cases engine.alone planned with
    | error message => rfl
    | ok output =>
      show (match engine.readInputs (before ++ rowsOf planned ++ (rest.map rowsOf).flatten) pooled
          (seqId + 1) ⟨before.length + planned.plan.nTokens,
            outputOrdinal + keptTokens planned.plan.tokens⟩ rest with
        | .error message => _ | .ok (outputs, state) => _) = _
      rw [later]
      cases rest.mapM engine.alone with
      | error message => rfl
      | ok outputs =>
        show Except.ok (output :: outputs, ReadState.mk _ _) = .ok (output :: outputs, ⟨_, _⟩)
        simp only [totalTokens, totalKept, List.map_cons, List.sum_cons, Nat.add_assoc]

theorem totalOutputs_eq (sound : ∀ planned ∈ group, PlanSound planned.plan) :
    totalOutputs group = totalKept group := by
  induction group with
  | nil => rfl
  | cons planned rest ih =>
    have later := ih fun planned member => sound planned (.tail _ member)
    simp only [totalOutputs, totalKept, List.map_cons, List.sum_cons] at later ⊢
    rw [later, (sound planned List.mem_cons_self).outputCount]
    push_cast
    rfl

theorem readGroup_tokens {rowsOf : PlannedInput → List (List Number)} {status : Int}
    (tokens : engine.spec.load.outputMode = .tokens)
    (each : ∀ planned ∈ group, HasRows engine planned (rowsOf planned)) :
    engine.readGroup ⟨status, some (group.map rowsOf).flatten, pooled⟩ group =
      group.mapM engine.alone := by
  have read := @readInputs_tokens _ _ engine [] pooled group rowsOf 0 0 tokens each
  unfold Engine.readGroup
  rw [if_pos tokens]
  dsimp only
  rw [List.nil_append, List.length_nil, Nat.zero_add, Nat.zero_add] at read
  rw [read]
  cases group.mapM engine.alone with
  | error message => rfl
  | ok outputs =>
    refine if_neg ?_
    rintro ⟨-, wrong | wrong⟩
    · exact wrong (totalOutputs_eq fun planned member => (each planned member).sound).symm
    · exact wrong rfl

theorem readGroup_dense {evaluation : Evaluation Number}
    (succeeded : ∀ planned ∈ group, (engine.evaluation planned).status = 0)
    (dense : engine.spec.load.outputMode = .dense)
    (own : ∀ place planned, group[place]? = some planned →
      evaluation.pooled place = (engine.evaluation planned).pooled 0) :
    engine.readGroup evaluation group = group.mapM engine.alone := by
  have notTokens : ¬engine.spec.load.outputMode = .tokens := by
    rw [dense]
    decide
  have read := @readInputs_dense _ _ engine [] evaluation.pooled group 0 ⟨0, 0⟩ succeeded dense
    fun place planned found => by
      rw [Nat.zero_add]
      exact own place planned found
  unfold Engine.readGroup
  rw [if_neg notTokens]
  dsimp only
  rw [read]
  cases group.mapM engine.alone with
  | error message => rfl
  | ok outputs => exact if_neg fun wrong => notTokens wrong.1

end Reading

/-! ### The whole run -/

section Running

variable {engine : Engine Number Wide} {group plans : List PlannedInput}

/-- The plans of a run: sound, and each within a batch. -/
structure Planned (engine : Engine Number Wide) (plans : List PlannedInput) : Prop where
  sound : ∀ planned ∈ plans, PlanSound planned.plan
  fits : ∀ planned ∈ plans, (planned.plan.nTokens : Int) ≤ engine.spec.load.nBatch

theorem Planned.positive (all : Planned engine plans) :
    ∀ planned ∈ plans,
      0 < planned.plan.nTokens ∧ (planned.plan.nTokens : Int) ≤ engine.spec.load.nBatch :=
  fun planned member =>
    ⟨List.length_pos_iff.mpr (all.sound planned member).nonempty, all.fits planned member⟩

theorem sequences_positive (spec : EncodeSpec) : 0 < spec.sequences := by
  unfold EncodeSpec.sequences
  omega

theorem Planned.append_left {front back : List PlannedInput} (all : Planned engine (front ++ back)) :
    Planned engine front where
  sound planned member := all.sound planned (List.mem_append_left _ member)
  fits planned member := all.fits planned (List.mem_append_left _ member)

theorem Planned.append_right {front back : List PlannedInput}
    (all : Planned engine (front ++ back)) : Planned engine back where
  sound planned member := all.sound planned (List.mem_append_right _ member)
  fits planned member := all.fits planned (List.mem_append_right _ member)

/-- **A group fits a batch of the context.** -/
theorem takeGroup_fits (all : Planned engine plans) (some' : plans ≠ []) :
    Fits engine.spec.load.nBatch engine.spec.sequences
      (sequencesOf (takeGroup engine.spec.sequences engine.spec.load.nBatch 0 0 plans).1) := by
  have positive := sequences_positive engine.spec
  have batch : 0 ≤ engine.spec.load.nBatch := by
    obtain ⟨planned, member⟩ := List.exists_mem_of_ne_nil plans some'
    have bounds := all.positive planned member
    omega
  obtain ⟨tokens, count⟩ := @takeGroup_bounds engine.spec.sequences engine.spec.load.nBatch plans
    0 0 (by omega) batch (.inr rfl) all.positive
  have whole := @takeGroup_append engine.spec.sequences engine.spec.load.nBatch 0 0 plans
  refine ⟨?_, ?_, ?_, ?_⟩
  · intro nothing
    exact takeGroup_nonempty _ positive some' (List.map_eq_nil_iff.mp nothing)
  · intro sequence member
    obtain ⟨planned, inside, rfl⟩ := List.mem_map.mp member
    have present : planned ∈ plans := by
      rw [← whole]
      exact List.mem_append_left _ inside
    intro nothing
    exact (all.sound planned present).nonempty (List.map_eq_nil_iff.mp nothing)
  · have same : ((sequencesOf (takeGroup engine.spec.sequences engine.spec.load.nBatch 0 0
        plans).1).map List.length).sum =
        totalTokens (takeGroup engine.spec.sequences engine.spec.load.nBatch 0 0 plans).1 := by
      unfold sequencesOf totalTokens
      rw [List.map_map]
      exact congrArg List.sum (List.map_congr_left fun planned _ => List.length_map _)
    rw [same]
    omega
  · unfold sequencesOf
    rw [List.length_map]
    omega

theorem evaluation_eq {planned : PlannedInput} (sound : PlanSound planned.plan) :
    engine.evaluation planned =
      engine.llama.evaluate (batchOf [planned.plan.tokens.map PlanToken.token]) := by
  unfold Engine.evaluation
  rw [singleBatch_eq sound]

section Group

variable {nBatch nSeqMax : Int}
  (independent : Independent engine.llama.evaluate nBatch nSeqMax)
  (sound : ∀ planned ∈ group, PlanSound planned.plan)
  (fits : Fits nBatch nSeqMax (sequencesOf group))

include independent sound fits

theorem group_succeeds :
    (engine.llama.evaluate (groupBatch group)).status = 0 ↔
      ∀ planned ∈ group, (engine.evaluation planned).status = 0 := by
  rw [groupBatch_eq sound, independent.status _ fits]
  constructor
  · intro each planned member
    rw [evaluation_eq (sound planned member)]
    exact each _ (List.mem_map_of_mem member)
  · intro each sequence member
    obtain ⟨planned, inside, rfl⟩ := List.mem_map.mp member
    rw [← evaluation_eq (sound planned inside)]
    exact each planned inside

theorem group_pooled (succeeded : (engine.llama.evaluate (groupBatch group)).status = 0)
    (place : Nat) (planned : PlannedInput) (found : group[place]? = some planned) :
    (engine.llama.evaluate (groupBatch group)).pooled place =
      (engine.evaluation planned).pooled 0 := by
  rw [evaluation_eq (sound planned (List.mem_of_getElem? found))]
  rw [groupBatch_eq sound] at succeeded ⊢
  refine independent.pooled _ fits succeeded place _ ?_
  rw [sequencesOf, List.getElem?_map, found]
  rfl

theorem group_embeddings (succeeded : (engine.llama.evaluate (groupBatch group)).status = 0) :
    (engine.llama.evaluate (groupBatch group)).embeddings =
      (group.mapM fun planned => (engine.evaluation planned).embeddings).map List.flatten := by
  rw [groupBatch_eq sound] at succeeded ⊢
  rw [independent.embeddings _ fits succeeded, sequencesOf, List.mapM_map]
  congr 1
  refine mapM_option_congr fun planned member => ?_
  rw [evaluation_eq (sound planned member)]
  rfl

/-- **A group reads what its inputs alone would**, or fails where one of these does. -/
theorem readGroup_eq (succeeded : (engine.llama.evaluate (groupBatch group)).status = 0) :
    (engine.readGroup (engine.llama.evaluate (groupBatch group)) group).toOption =
      group.mapM fun planned => (engine.alone planned).toOption := by
  have each := (group_succeeds independent sound fits).mp succeeded
  cases mode : engine.spec.load.outputMode with
  | dense =>
    rw [readGroup_dense each mode (group_pooled independent sound fits succeeded),
      mapM_toOption]
  | tokens =>
    have embeddings := group_embeddings independent sound fits succeeded
    cases found : group.mapM fun planned => (engine.evaluation planned).embeddings with
    | none =>
      rw [found] at embeddings
      obtain ⟨planned, member, missing⟩ := exists_none_of_mapM found
      rw [mapM_eq_none_of_mem member (alone_missing (each planned member) mode missing)]
      unfold Engine.readGroup
      rw [if_pos mode, embeddings]
      rfl
    | some values =>
      rw [found] at embeddings
      obtain ⟨same, present⟩ := mapM_option_some [] found
      have has : ∀ planned ∈ group,
          HasRows engine planned ((engine.evaluation planned).embeddings.getD []) := by
        intro planned member
        refine ⟨sound planned member, each planned member, present planned member, ?_⟩
        have length := independent.rows (planned.plan.tokens.map PlanToken.token)
          ((engine.evaluation planned).embeddings.getD [])
        rw [← evaluation_eq (sound planned member)] at length
        rw [length (each planned member) (present planned member), List.length_map]
        rfl
      have shape : engine.llama.evaluate (groupBatch group) =
          ⟨(engine.llama.evaluate (groupBatch group)).status,
            some (group.map fun planned =>
              (engine.evaluation planned).embeddings.getD []).flatten,
            (engine.llama.evaluate (groupBatch group)).pooled⟩ := by
        rw [← same]
        show _ = Evaluation.mk _ ((some values).map List.flatten) _
        rw [← embeddings]
      rw [shape, readGroup_tokens mode has, mapM_toOption]

theorem group_fails (failed : (engine.llama.evaluate (groupBatch group)).status ≠ 0) :
    (group.mapM fun planned => (engine.alone planned).toOption) = none := by
  have some' : ¬∀ planned ∈ group, (engine.evaluation planned).status = 0 := fun each =>
    failed ((group_succeeds independent sound fits).mpr each)
  push Not at some'
  obtain ⟨planned, member, wrong⟩ := some'
  exact mapM_eq_none_of_mem member (alone_failed wrong)

end Group

theorem runGroups_group (start : Nat) (some' : plans ≠ []) :
    engine.runGroups start plans =
      let group := (takeGroup engine.spec.sequences engine.spec.load.nBatch 0 0 plans).1
      let evaluation := engine.llama.evaluate (groupBatch group)
      if evaluation.status ≠ 0 then
        ([groupBatch group],
          .error s!"llama model evaluation failed with status {evaluation.status}")
      else
        match engine.readGroup evaluation group with
        | .error message => ([groupBatch group], .error message)
        | .ok outputs =>
          let later := engine.runGroups (start + group.length)
            (takeGroup engine.spec.sequences engine.spec.load.nBatch 0 0 plans).2
          (groupBatch group :: later.1, (fun rest => outputs ++ rest) <$> later.2) := by
  rw [Engine.runGroups, if_neg some',
    dif_neg (takeGroup_nonempty _ (sequences_positive engine.spec) some')]

/-- A batch within what was allocated and what is configured. -/
structure Submittable (allocated : Nat) (sequences : Int) (batch : LlamaBatch) : Prop where
  counted : batch.nTokens = batch.tokens.length
  allocated : batch.tokens.length ≤ allocated
  sequences : ∀ token ∈ batch.tokens, (token.seqId : Int) < sequences

theorem groupBatch_submittable {allocated : Nat} {sequences : Int}
    (within : totalTokens group ≤ allocated) (count : (group.length : Int) ≤ sequences) :
    Submittable allocated sequences (groupBatch group) := by
  obtain ⟨length, each⟩ := groupBatch_tokens group
  refine ⟨length.symm, length ▸ within, fun token member => ?_⟩
  have below := each token member
  omega

/-- **The groups of a run**: their outputs are those of the inputs alone, their batches are within
what was allocated. -/
theorem runGroups_right
    (independent : Independent engine.llama.evaluate engine.spec.load.nBatch engine.spec.sequences)
    (all : Planned engine plans) {start largest allocated : Nat}
    (done : maxBatchTokens engine.spec.sequences engine.spec.load.nBatch start largest plans =
      .ok allocated) :
    (engine.runGroups start plans).2.toOption =
        plans.mapM (fun planned => (engine.alone planned).toOption) ∧
      ∀ batch ∈ (engine.runGroups start plans).1,
        Submittable allocated engine.spec.sequences batch := by
  induction fewer : plans.length using Nat.strongRecOn generalizing plans start largest with
  | ind count ih =>
    by_cases empty : plans = []
    · subst empty
      rw [Engine.runGroups, if_pos rfl]
      exact ⟨rfl, fun batch member => nomatch member⟩
    · have positive := sequences_positive engine.spec
      have fits := takeGroup_fits all empty
      obtain ⟨within, later⟩ := maxBatchTokens_group positive empty done
      have shorter := takeGroup_shorter
        (takeGroup_nonempty engine.spec.load.nBatch positive empty)
      have whole :=
        @takeGroup_append engine.spec.sequences engine.spec.load.nBatch 0 0 plans
      rw [runGroups_group start empty]
      generalize takeGroup engine.spec.sequences engine.spec.load.nBatch 0 0 plans = parts
        at fits within later shorter whole
      obtain ⟨group, rest⟩ := parts
      dsimp only at fits within later shorter whole ⊢
      subst whole
      have sound := all.append_left.sound
      have submittable : Submittable allocated engine.spec.sequences (groupBatch group) := by
        refine groupBatch_submittable within ?_
        have count := fits.count
        rwa [sequencesOf, List.length_map] at count
      obtain ⟨result, batches⟩ := ih rest.length (fewer ▸ shorter) all.append_right later rfl
      rw [mapM_append_option]
      split
      · rename_i failed
        rw [group_fails independent sound fits failed]
        exact ⟨rfl, fun batch member => List.mem_singleton.mp member ▸ submittable⟩
      · rename_i succeeded
        rw [← readGroup_eq independent sound fits (not_not.mp succeeded), ← result]
        cases engine.readGroup (engine.llama.evaluate (groupBatch group)) group with
        | error message =>
          exact ⟨rfl, fun batch member => List.mem_singleton.mp member ▸ submittable⟩
        | ok outputs =>
          constructor
          · show ((fun rest => outputs ++ rest) <$>
              (engine.runGroups (start + group.length) rest).2).toOption = _
            cases (engine.runGroups (start + group.length) rest).2 <;> rfl
          · intro batch member
            rcases List.mem_cons.mp member with rfl | member
            · exact submittable
            · exact batches batch member

theorem planInputs_right (index : Nat) (inputs : List String) :
    match engine.planInputs index inputs with
    | .error _ => (inputs.mapM fun input => (engine.encode input).toOption) = none
    | .ok plans => Planned engine plans ∧
      (inputs.mapM fun input => (engine.encode input).toOption) =
        plans.mapM fun planned => (engine.alone planned).toOption := by
  induction inputs generalizing index with
  | nil => exact ⟨⟨fun _ member => (nomatch member), fun _ member => (nomatch member)⟩, rfl⟩
  | cons input rest ih =>
    have later := ih (index + 1)
    unfold Engine.planInputs
    cases built : buildEncodePlan engine.llama engine.spec (engine.spec.textPrefix ++ input) with
    | error message =>
      refine mapM_eq_none_of_mem List.mem_cons_self ?_
      unfold Engine.encode
      rw [built]
      rfl
    | ok plan =>
      have encoded : engine.encode input =
          if engine.spec.load.nCtx < plan.nTokens ∨ engine.spec.load.nBatch < plan.nTokens then
            .error (s!"tokenized input has {plan.nTokens} tokens, exceeding " ++
              s!"n_ctx={engine.spec.load.nCtx} or n_batch={engine.spec.load.nBatch}")
          else engine.alone ⟨input, plan⟩ := by
        unfold Engine.encode
        rw [built]
        rfl
      dsimp only
      by_cases long : engine.spec.load.nCtx < plan.nTokens ∨ engine.spec.load.nBatch < plan.nTokens
      · rw [if_pos long] at encoded ⊢
        refine mapM_eq_none_of_mem List.mem_cons_self ?_
        rw [encoded]
        rfl
      · rw [if_neg long] at encoded ⊢
        cases planned : engine.planInputs (index + 1) rest with
        | error message =>
          rw [planned] at later
          show ((input :: rest).mapM fun input => (engine.encode input).toOption) = none
          rw [List.mapM_cons, show (rest.mapM fun input => (engine.encode input).toOption) = none
            from later]
          cases (engine.encode input).toOption <;> rfl
        | ok plans =>
          rw [planned] at later
          obtain ⟨all, same⟩ := later
          refine ⟨⟨?_, ?_⟩, ?_⟩
          · intro each member
            rcases List.mem_cons.mp member with rfl | member
            · exact buildEncodePlan_sound built
            · exact all.sound each member
          · intro each member
            rcases List.mem_cons.mp member with rfl | member
            · show (plan.nTokens : Int) ≤ _
              omega
            · exact all.fits each member
          · rw [List.mapM_cons, List.mapM_cons, same, encoded]

/-- **A run is right** for a library that evaluates sequences independently. -/
theorem encodeBatch_right
    (independent : Independent engine.llama.evaluate engine.spec.load.nBatch engine.spec.sequences)
    (inputs : List String) :
    BatchRight engine.encode engine.spec.sequences inputs (engine.encodeBatch inputs) := by
  have planned := @planInputs_right _ _ engine 0 inputs
  unfold Engine.encodeBatch
  cases found : engine.planInputs 0 inputs with
  | error message =>
    rw [found] at planned
    exact ⟨planned.symm, fun batch member => (nomatch member), fun batch member => (nomatch member)⟩
  | ok plans =>
    rw [found] at planned
    obtain ⟨all, same⟩ := planned
    obtain ⟨allocated, done, -⟩ := maxBatchTokens_ok (sequences_positive engine.spec)
      engine.spec.load.nBatch 0 0 plans
    obtain ⟨result, batches⟩ := runGroups_right independent all done
    dsimp only
    rw [done]
    exact ⟨result.trans same.symm,
      fun batch member => ⟨(batches batch member).counted, (batches batch member).allocated⟩,
      fun batch member => (batches batch member).sequences⟩

end Running

/-! ### From the cache of the backend -/

section Body

variable {platform : Platform Number Wide} {cache : Cache Number} {spec : EncodeSpec}

theorem loadModel_limits {world : World Number} {request : LoadRequest}
    {loaded : LoadResult Number} (done : (loadModel world cache request).1 = .ok loaded) :
    loaded.entry.model.nBatch = request.spec.nBatch ∧
      loaded.entry.model.nSeqMax = request.nSeqMax := by
  cases found : lookup cache request with
  | some pair =>
    rw [loadModel_found found] at done
    obtain rfl := Except.ok.inj done
    obtain ⟨stored, -, key, shape, -⟩ := lookup_eq_some found
    simp only [Entry.hasKey, Bool.and_eq_true, beq_iff_eq] at key
    obtain ⟨⟨⟨⟨⟨-, sameBatch⟩, sameSeq⟩, -⟩, -⟩, -⟩ := key
    show pair.1.model.nBatch = _ ∧ pair.1.model.nSeqMax = _
    rw [shape]
    exact ⟨sameBatch, sameSeq⟩
  | none =>
    cases fresh : freshLoad world request.spec request.path request.nSeqMax with
    | error message =>
      rw [loadModel_error found fresh] at done
      cases done
    | ok model =>
      rw [loadModel_loaded found fresh] at done
      obtain ⟨-, backbone, chain, -, -, -, rfl⟩ := freshLoad_eq_ok.mp fresh
      by_cases caches : 0 < request.spec.cacheSize
      · rw [addModel_caches caches] at done
        obtain rfl := Except.ok.inj done
        exact ⟨rfl, rfl⟩
      · rw [addModel_caller caches] at done
        obtain rfl := Except.ok.inj done
        exact ⟨rfl, rfl⟩

theorem openModel_limits {engine : Engine Number Wide}
    (opened : openModel platform cache spec = .ok engine) :
    engine.spec = spec ∧ engine.llama = platform.llama engine.entry ∧
      engine.entry.nBatch = spec.load.nBatch ∧ engine.entry.nSeqMax = spec.sequences := by
  unfold openModel at opened
  cases resolved : resolvePath platform spec with
  | error message =>
    rw [resolved] at opened
    cases opened
  | ok path =>
    rw [resolved] at opened
    dsimp only at opened
    split at opened
    · cases opened
    · rename_i loaded done
      split_ifs at opened
      obtain rfl := Except.ok.inj opened
      exact ⟨rfl, rfl, loadModel_limits done⟩

/-- **Batch encoding refines encoding one by one**, for every cache, specification and list of
inputs, with a library that evaluates the sequences of a batch independently. -/
theorem encodeBatchBody_right (platform : Platform Number Wide)
    (independent : ∀ model,
      Independent (platform.llama model).evaluate model.nBatch model.nSeqMax)
    (cache : Cache Number) (spec : EncodeSpec) (inputs : List String) :
    BatchRight (encodeBody platform cache spec) spec.sequences inputs
      (encodeBatchBody platform cache spec inputs) := by
  unfold encodeBatchBody
  by_cases empty : inputs = []
  · subst empty
    rw [if_pos rfl]
    exact ⟨rfl, fun batch member => (nomatch member), fun batch member => (nomatch member)⟩
  · rw [if_neg empty]
    cases opened : openModel platform cache spec with
    | error message =>
      obtain ⟨input, member⟩ := List.exists_mem_of_ne_nil inputs empty
      refine ⟨?_, fun batch member => (nomatch member), fun batch member => (nomatch member)⟩
      refine (mapM_eq_none_of_mem member ?_).symm
      unfold encodeBody
      rw [opened]
      rfl
    | ok engine =>
      obtain ⟨sameSpec, sameLlama, sameBatch, sameSeq⟩ := openModel_limits opened
      have limits := independent engine.entry
      rw [← sameLlama, sameBatch, sameSeq, ← sameSpec] at limits
      have right := encodeBatch_right limits inputs
      have single : encodeBody platform cache spec = engine.encode := by
        funext input
        unfold encodeBody
        rw [opened]
        rfl
      rw [single, ← sameSpec]
      exact right

end Body

/-! ### A library that returns its tokens -/

/-- The vector of a token is the token and its position. -/
def echoEvaluation (batch : LlamaBatch) : Evaluation Int where
  status := 0
  embeddings := some (batch.tokens.map fun token => [token.token, token.pos])
  pooled _ := none

def echoLlama : Llama Int where
  tokenize text := some (text.toList.map fun char => (char.toNat : Int))
  vocabMask := -1
  vocabPad := -1
  text _ := none
  hasEncoder := true
  hasDecoder := false
  encode := echoEvaluation
  decode := echoEvaluation

theorem batchOf_rows (sequences : List (List Int)) :
    (batchOf sequences).tokens.map (fun token => [token.token, token.pos]) =
      (sequences.map fun sequence =>
        (batchOf [sequence]).tokens.map fun token => [token.token, token.pos]).flatten := by
  have row (sequence : List Int) (seqId : Nat) :
      (sequence.zipIdx.map fun token => (⟨token.1, token.2, seqId⟩ : BatchToken)).map
          (fun token => [token.token, token.pos]) =
        sequence.zipIdx.map fun token => [token.1, (token.2 : Int)] := List.map_map
  have alone (sequence : List Int) :
      (batchOf [sequence]).tokens.map (fun token => [token.token, token.pos]) =
        sequence.zipIdx.map fun token => [token.1, (token.2 : Int)] := by
    rw [← row sequence 0]
    simp [batchOf]
  simp only [alone]
  show (sequences.zipIdx.flatMap _).map _ = _
  rw [List.map_flatMap]
  simp only [row]
  rw [← List.flatMap_def, ← List.zipIdx_map_fst 0 sequences, List.flatMap_map,
    List.zipIdx_map_fst]

theorem echo_independent (nBatch nSeqMax : Int) :
    Independent echoLlama.evaluate nBatch nSeqMax where
  status _ _ := ⟨fun _ _ _ => rfl, fun _ => rfl⟩
  embeddings sequences _ _ := by
    show some _ = (sequences.mapM fun sequence => (pure _ : Option _)).map List.flatten
    rw [batchOf_rows, List.mapM_pure]
    rfl
  rows sequence rows _ found := by
    obtain rfl := Option.some.inj found
    simp [batchOf]
  pooled _ _ _ _ _ _ := rfl

def echoPlatform : Platform Int Int where
  realpath path := .ok path
  world := squareWorld
  llama _ := echoLlama
  arithmetic := ⟨0, 0, id, id, (· + ·), (· * ·), (· / ·), id, fun norm => 0 < norm⟩

def echoSpec : EncodeSpec where
  load := genericRequest.spec
  role := .none
  textPrefix := ""
  modelDir := "/models"
  maxVectors := 8
  checkExpectedDim := false
  normalize := false
  batchSequences := 2
  queryLength := 32
  debugTokens := false
  profile := ⟨"guc_fallback", "", 0, 0, -1, -1, false, 0, -1, -1, [], false⟩

/-- Three inputs in two batches. -/
theorem encodeBatchBody_three :
    BatchRight (encodeBody echoPlatform {} echoSpec) echoSpec.sequences ["ab", "c", "def"]
      (encodeBatchBody echoPlatform {} echoSpec ["ab", "c", "def"]) :=
  encodeBatchBody_right echoPlatform (fun model => echo_independent model.nBatch model.nSeqMax) {}
    echoSpec ["ab", "c", "def"]

end TurboHybrid.Colbert
