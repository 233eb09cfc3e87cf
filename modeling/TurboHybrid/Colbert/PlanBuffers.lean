/-
**The buffers of an encoding plan.**

The tokenizer is called twice: without a buffer, for the number of tokens, and with a buffer of that
many entries, or as many as a query is padded to. The tokens are cut to the length of the role, a
query is filled up with masks, and the other arrays of the plan get as many entries as there are
tokens then.

* `planBuffers_refines`: no write leaves its array, and the plan is that of `buildEncodePlan`;
* `planLoop_outputs`: the tokens for output are the first that the retention rule accepts;
* `planBuffers_kept_iff`: when a plan keeps to the length of its role;
* `padded_past_length`: a query that is padded beyond the length it was cut to.
-/
import TurboHybrid.Colbert.EncodeBatch

namespace TurboHybrid.Colbert

open Library

variable {Number Wide : Type}

/-! ### Writes into arrays -/

/-- A plan is refused with a message, or writes outside an array. -/
inductive PlanFailure where
  | refused (message : String)
  | overrun
  deriving DecidableEq

/-- A write to the entry behind those written so far. -/
def store {α : Type} (capacity : Nat) (written : List α) (entry : α) :
    Except PlanFailure (List α) :=
  if written.length < capacity then .ok (written ++ [entry]) else .error .overrun

def int32Min : Int := -2147483648

/-- What the tokenizer makes of a text, where the count is a 32-bit number. -/
def counted (result : Option (List Int)) : Option (List Int) :=
  result.filter fun tokens => decide (tokens.length < 2147483648)

/-- `llama_tokenize`: the count, or the negated count where the buffer is too small, with the
tokens written. -/
def llamaTokenize (result : Option (List Int)) (capacity : Nat) : Int × List Int :=
  match counted result with
  | none => (int32Min, [])
  | some tokens =>
    if tokens.length ≤ capacity then (tokens.length, tokens) else (-tokens.length, [])

def fillMasks (capacity : Nat) (mask : Int) : Nat → List Int → Except PlanFailure (List Int)
  | 0, tokens => .ok tokens
  | missing + 1, tokens => do
    let tokens ← store capacity tokens mask
    fillMasks capacity mask missing tokens

/-- The loop over the tokens, which writes an entry of each of the other arrays. -/
def fillPlan (llama : Llama Number) (spec : EncodeSpec) (capacity : Nat) :
    List Int → List PlanToken → Int → Except PlanFailure (List PlanToken × Int)
  | [], written, outputCount => .ok (written, outputCount)
  | token :: rest, written, outputCount => do
    let (retain, reason) := shouldRetainToken llama spec token
    let output := retain && decide (outputCount < spec.maxVectors)
    let written ← store capacity written
      { token := token
        positionId := written.length
        tokenTypeId := spec.tokenTypeId
        attentionMask := 1
        retain := retain
        output := output
        retainReason := reason }
    fillPlan llama spec capacity rest written (if output then outputCount + 1 else outputCount)

def padToken (llama : Llama Number) (spec : EncodeSpec) : Int :=
  if 0 ≤ spec.profile.queryPadTokenId then spec.profile.queryPadTokenId else llama.vocabMask

/-- The part behind the first call: the second call, the cut and the padding. -/
def planTokensBuffers (llama : Llama Number) (spec : EncodeSpec) (second : Option (List Int))
    (requiredTokens : Int) : Except PlanFailure (List Int) :=
  let tokenCapacity := if spec.role = .query ∧ requiredTokens < spec.queryPadTo then
    spec.queryPadTo.toNat else requiredTokens.toNat
  let (nTokens, tokens) := llamaTokenize second tokenCapacity
  if nTokens < 0 then .error (.refused "llama tokenization failed")
  else if nTokens ≤ 0 then .error (.refused "llama tokenization returned no tokens")
  else
    let tokens := if 0 < spec.maxPlanTokens ∧ spec.maxPlanTokens < nTokens then
      tokens.take spec.maxPlanTokens.toNat else tokens
    if spec.role = .query ∧ tokens.length < spec.queryPadTo then
      let mask := padToken llama spec
      if mask = tokenNull then
        .error (.refused
          "llama vocabulary does not define a mask token required for query expansion")
      else fillMasks tokenCapacity mask (spec.queryPadTo.toNat - tokens.length) tokens
    else .ok tokens

/-- `PgColbertBuildEncodePlan` with its arrays, on what the tokenizer makes of the text in its first
and in its second call. -/
def planBuffers (llama : Llama Number) (spec : EncodeSpec) (first second : Option (List Int)) :
    Except PlanFailure EncodePlan :=
  let required := (llamaTokenize first 0).1
  if required = int32Min then .error (.refused "llama tokenization failed")
  else
    let requiredTokens := if required < 0 then -required else required
    if requiredTokens ≤ 0 then .error (.refused "llama tokenization returned no tokens")
    else do
      let tokens ← planTokensBuffers llama spec second requiredTokens
      let (planned, outputCount) ← fillPlan llama spec tokens.length tokens [] 0
      if outputCount ≤ 0 then
        .error (.refused "llama tokenization retained no non-special token vectors")
      else .ok ⟨planned, outputCount⟩

/-! ### No write leaves its array -/

theorem store_fits {α : Type} {capacity : Nat} {written : List α} (entry : α)
    (room : written.length < capacity) : store capacity written entry = .ok (written ++ [entry]) :=
  if_pos room

theorem fillMasks_eq {capacity missing : Nat} {mask : Int} {tokens : List Int}
    (room : tokens.length + missing ≤ capacity) :
    fillMasks capacity mask missing tokens = .ok (tokens ++ List.replicate missing mask) := by
  induction missing generalizing tokens with
  | zero => rw [fillMasks, List.replicate_zero, List.append_nil]
  | succ missing ih =>
    have next : (tokens ++ [mask]).length + missing ≤ capacity := by
      rw [List.length_append, List.length_singleton]
      omega
    rw [fillMasks, store_fits mask (by omega)]
    show fillMasks capacity mask missing (tokens ++ [mask]) = _
    rw [ih next, List.append_assoc, List.replicate_succ, List.singleton_append]

section Loops

variable {llama : Llama Number} {spec : EncodeSpec}

theorem fillPlan_eq {capacity : Nat} {tokens : List Int} {written : List PlanToken}
    {outputCount : Int} (room : written.length + tokens.length ≤ capacity) :
    fillPlan llama spec capacity tokens written outputCount =
      .ok (written ++ (planLoop llama spec written.length outputCount tokens).1,
        (planLoop llama spec written.length outputCount tokens).2) := by
  induction tokens generalizing written outputCount with
  | nil => rw [fillPlan, planLoop, List.append_nil]
  | cons token rest ih =>
    rw [List.length_cons] at room
    rw [fillPlan]
    dsimp only
    rw [store_fits _ (by omega)]
    show fillPlan llama spec capacity rest (written ++ [_]) _ = _
    rw [ih (by rw [List.length_append, List.length_singleton]; omega), List.length_append,
      List.length_singleton, List.append_assoc, List.singleton_append]
    rfl

end Loops

/-! ### The plan without arrays -/

section Refines

variable (llama : Llama Number) (spec : EncodeSpec)

/-- The library, where it tokenizes a text in a given way. -/
def Llama.withResult (result : Option (List Int)) : Llama Number :=
  { llama with tokenize := fun _ => result }

/-- The tokens of a text up to the length of the role. -/
def cutTokens (tokens : List Int) : List Int :=
  if 0 < spec.maxPlanTokens ∧ spec.maxPlanTokens < tokens.length then
    tokens.take spec.maxPlanTokens.toNat else tokens

variable {llama spec}

theorem counted_length {result : Option (List Int)} {tokens : List Int}
    (found : counted result = some tokens) :
    result = some tokens ∧ tokens.length < 2147483648 := by
  obtain ⟨same, few⟩ := Option.filter_eq_some_iff.mp found
  exact ⟨same, of_decide_eq_true few⟩

theorem llamaTokenize_some {result : Option (List Int)} {tokens : List Int} {capacity : Nat}
    (found : counted result = some tokens) (room : tokens.length ≤ capacity) :
    llamaTokenize result capacity = ((tokens.length : Int), tokens) := by
  simp only [llamaTokenize, found, if_pos room]

theorem llamaTokenize_first {result : Option (List Int)} {tokens : List Int}
    (found : counted result = some tokens) :
    (llamaTokenize result 0).1 = -tokens.length := by
  cases tokens with
  | nil => simp only [llamaTokenize, found, List.length_nil, Nat.le_refl, if_true]; rfl
  | cons token rest =>
    simp only [llamaTokenize, found]
    rw [if_neg (by rw [List.length_cons]; omega)]

theorem planLoop_withResult {result : Option (List Int)} (position : Nat) (outputCount : Int)
    (tokens : List Int) : planLoop (llama.withResult result) spec position outputCount tokens =
      planLoop llama spec position outputCount tokens := by
  induction tokens generalizing position outputCount with
  | nil => rfl
  | cons token rest ih =>
    simp only [planLoop, ih]
    rfl

/-- The second call finds room for all tokens, and the padding stays in the rest of the array. -/
theorem planTokensBuffers_eq {second : Option (List Int)} {tokens : List Int} {text : String}
    (found : counted second = some tokens) (some_ : tokens ≠ []) :
    planTokensBuffers llama spec second tokens.length =
      (planTokens (llama.withResult (counted second)) spec text).mapError .refused := by
  have positive : 0 < tokens.length := List.length_pos_iff.mpr some_
  set capacity := if spec.role = .query ∧ (tokens.length : Int) < spec.queryPadTo then
    spec.queryPadTo.toNat else (tokens.length : Int).toNat with capacityOf
  have room : tokens.length ≤ capacity := by
    rw [capacityOf]
    split_ifs <;> omega
  have planned : planTokens (llama.withResult (counted second)) spec text =
      (let kept := cutTokens spec tokens
       if spec.role = .query ∧ kept.length < spec.queryPadTo then
        let mask := padToken llama spec
        if mask = tokenNull then
          .error "llama vocabulary does not define a mask token required for query expansion"
        else .ok (kept ++ List.replicate (spec.queryPadTo.toNat - kept.length) mask)
       else .ok kept) := by
    rw [found]
    cases tokens with
    | nil => exact absurd rfl some_
    | cons token rest => rfl
  rw [planned, planTokensBuffers]
  dsimp only
  rw [← capacityOf, llamaTokenize_some found room]
  dsimp only
  rw [if_neg (by omega), if_neg (by omega), ← cutTokens]
  have shorter : (cutTokens spec tokens).length ≤ tokens.length := by
    rw [cutTokens]
    split_ifs
    · exact List.length_take_le' ..
    · exact le_rfl
  by_cases padding : spec.role = .query ∧ (cutTokens spec tokens).length < spec.queryPadTo
  · rw [if_pos padding, if_pos padding]
    have long : spec.queryPadTo.toNat ≤ capacity := by
      rw [capacityOf]
      by_cases short : (tokens.length : Int) < spec.queryPadTo
      · rw [if_pos ⟨padding.1, short⟩]
      · rw [if_neg fun both => short both.2]
        omega
    by_cases masked : padToken llama spec = tokenNull
    · rw [if_pos masked, if_pos masked]
      rfl
    · rw [if_neg masked, if_neg masked, fillMasks_eq (by omega)]
      rfl
  · rw [if_neg padding, if_neg padding]
    rfl

/-- **No write leaves its array**: with the same count in both calls of the tokenizer, the plan with
its arrays is the plan of the tokens of the second call. -/
theorem planBuffers_refines {first second : Option (List Int)} (text : String)
    (sameCount : first.map List.length = second.map List.length) :
    planBuffers llama spec first second =
      (buildEncodePlan (llama.withResult (counted second)) spec text).mapError .refused := by
  rcases found : counted second with _ | tokens
  · have missing : counted first = none := by
      cases first with
      | none => rfl
      | some ones =>
        obtain ⟨others, rfl, lengths⟩ := Option.map_eq_some_iff.mp sameCount.symm
        rw [counted, Option.filter_eq_none_iff] at found ⊢
        intro tokens same
        rw [← Option.some.inj same, ← lengths]
        exact found others rfl
    rw [planBuffers, llamaTokenize, missing]
    rfl
  · obtain ⟨rfl, few⟩ := counted_length found
    obtain ⟨ones, rfl, lengths⟩ := Option.map_eq_some_iff.mp sameCount
    have known : counted (some ones) = some ones := by
      rw [counted, Option.filter_some_pos]
      rw [lengths]
      exact decide_eq_true few
    rw [planBuffers, llamaTokenize_first known, lengths]
    dsimp only
    rw [if_neg (by rw [int32Min]; omega)]
    rcases Decidable.em (tokens = []) with rfl | some_
    · rfl
    · have positive : 0 < tokens.length := List.length_pos_iff.mpr some_
      have negative : -(tokens.length : Int) < 0 := by omega
      rw [if_pos negative, Int.neg_neg, if_neg (by omega), planTokensBuffers_eq found some_, found,
        buildEncodePlan]
      rcases planTokens (llama.withResult (some tokens)) spec text with message | planned
      · rfl
      · show (do
          let (entries, outputCount) ← fillPlan llama spec planned.length planned [] 0
          if outputCount ≤ 0 then
            Except.error (PlanFailure.refused
              "llama tokenization retained no non-special token vectors")
          else Except.ok (⟨entries, outputCount⟩ : EncodePlan)) = _
        rw [fillPlan_eq (by rw [List.length_nil]; omega), List.nil_append, List.length_nil]
        show (if (planLoop llama spec 0 0 planned).2 ≤ 0 then _ else _) = Except.mapError _
          (if (planLoop (llama.withResult (some tokens)) spec 0 0 planned).2 ≤ 0 then _ else _)
        rw [planLoop_withResult]
        split_ifs
        · rfl
        · rfl

end Refines

/-! ### The tokens for output -/

section Outputs

variable {llama : Llama Number} {spec : EncodeSpec}

/-- **Where the limit ends the output**: the tokens for output are the first that the retention rule
accepts, as many as the limit still has room for. -/
theorem planLoop_outputs (position : Nat) (outputCount : Int) (tokens : List Int) :
    (planLoop llama spec position outputCount tokens).1.filter PlanToken.output =
      ((planLoop llama spec position outputCount tokens).1.filter fun entry =>
        (shouldRetainToken llama spec entry.token).1).take
          (spec.maxVectors - outputCount).toNat := by
  induction tokens generalizing position outputCount with
  | nil => rw [planLoop, List.filter_nil, List.filter_nil, List.take_nil]
  | cons token rest ih =>
    simp only [planLoop]
    rw [List.filter_cons, List.filter_cons]
    dsimp only
    by_cases retain : (shouldRetainToken llama spec token).1 = true
    · by_cases room : outputCount < spec.maxVectors
      · have next : (spec.maxVectors - outputCount).toNat =
            (spec.maxVectors - (outputCount + 1)).toNat + 1 := by omega
        simp only [retain, room, decide_true, Bool.and_self, if_true]
        rw [ih, next, List.take_succ_cons]
      · have full : (spec.maxVectors - outputCount).toNat = 0 := by omega
        simp only [retain, room, decide_false, Bool.and_false, Bool.false_eq_true, if_false,
          if_true]
        rw [ih, full, List.take_zero, List.take_zero]
    · simp only [retain, Bool.false_and, Bool.false_eq_true, if_false]
      exact ih (position + 1) outputCount

theorem length_planLoop (position : Nat) (outputCount : Int) (tokens : List Int) :
    (planLoop llama spec position outputCount tokens).1.length = tokens.length := by
  induction tokens generalizing position outputCount with
  | nil => rfl
  | cons token rest ih => rw [planLoop, List.length_cons, List.length_cons, ih]

end Outputs

/-! ### Plans within the length of the role -/

section Kept

variable (llama : Llama Number) (spec : EncodeSpec)

/-- **A plan that keeps to its settings**: it has a token and at most as many as the role's length,
a short query is padded as far as this length allows, and the tokens for output are the first
`maxVectors` that the retention rule accepts. -/
structure PlanKept (tokens : List Int) (plan : EncodePlan) : Prop where
  positive : 0 < plan.nTokens
  bounded : plan.nTokens ≤ spec.maxPlanTokens
  padded : spec.role = .query → (cutTokens spec tokens).length < spec.queryPadTo →
    plan.nTokens = min spec.queryPadTo spec.maxPlanTokens
  outputs : plan.tokens.filter PlanToken.output =
    (plan.tokens.filter fun entry => (shouldRetainToken llama spec entry.token).1).take
      spec.maxVectors.toNat
  outputCount : plan.outputCount = (plan.tokens.filter PlanToken.output).length

variable {llama spec}

theorem buildEncodePlan_length {tokens : List Int} {text : String} {plan : EncodePlan}
    (built : buildEncodePlan (llama.withResult (some tokens)) spec text = .ok plan) :
    (plan.nTokens : Int) =
      if spec.role = .query ∧ (cutTokens spec tokens).length < spec.queryPadTo then
        spec.queryPadTo else (cutTokens spec tokens).length := by
  obtain ⟨planned, filled, built⟩ := bind_ok built
  dsimp only at built
  split_ifs at built with kept
  obtain rfl := Except.ok.inj built
  rw [EncodePlan.nTokens, length_planLoop]
  cases tokens with
  | nil => cases filled
  | cons token rest =>
    rw [planTokens] at filled
    simp only [Llama.withResult] at filled
    rw [← cutTokens] at filled
    split_ifs at filled with padding negative masked masked
    all_goals obtain rfl := Except.ok.inj filled
    · rw [if_pos padding, List.length_append, List.length_replicate]
      omega
    · rw [if_pos padding, List.length_append, List.length_replicate]
      omega
    · rw [if_neg padding]

theorem cutTokens_le {tokens : List Int} (positive : 0 < spec.maxPlanTokens) :
    ((cutTokens spec tokens).length : Int) ≤ spec.maxPlanTokens := by
  rw [cutTokens]
  split_ifs with cut
  · rw [List.length_take]
    omega
  · omega

theorem planBuffers_ok {first second : Option (List Int)} {plan : EncodePlan}
    (sameCount : first.map List.length = second.map List.length)
    (built : planBuffers llama spec first second = .ok plan) :
    ∃ tokens, second = some tokens ∧
      buildEncodePlan (llama.withResult (some tokens)) spec "" = .ok plan := by
  rw [planBuffers_refines "" sameCount] at built
  rcases found : counted second with _ | tokens
  · rw [found] at built
    cases built
  · refine ⟨tokens, (counted_length found).1, ?_⟩
    rw [found] at built
    rcases made : buildEncodePlan (llama.withResult (some tokens)) spec "" with message | other
    · rw [made] at built
      cases built
    · rw [made] at built
      exact congrArg _ (Except.ok.inj built)

/-- **Plans within the length of their role.** No write leaves its array; and a plan keeps to its
settings exactly where the length of the role is positive and, for a query, not below the length
it is padded to. -/
theorem planBuffers_kept_iff {first second : Option (List Int)}
    (sameCount : first.map List.length = second.map List.length) :
    planBuffers llama spec first second ≠ .error .overrun ∧
      ∀ tokens plan, second = some tokens → planBuffers llama spec first second = .ok plan →
        (PlanKept llama spec tokens plan ↔ 0 < spec.maxPlanTokens ∧
          (spec.role = .query → spec.queryPadTo ≤ spec.maxPlanTokens)) := by
  refine ⟨fun failed => ?_, fun tokens plan given built => ?_⟩
  · rw [planBuffers_refines "" sameCount] at failed
    rcases made : buildEncodePlan (llama.withResult (counted second)) spec "" with message | other
    · rw [made] at failed
      cases failed
    · rw [made] at failed
      cases failed
  · obtain ⟨_, same, built⟩ := planBuffers_ok sameCount built
    obtain rfl := Option.some.inj (given.symm.trans same)
    have sound := buildEncodePlan_sound built
    have length := buildEncodePlan_length built
    have positive : 0 < plan.nTokens := List.length_pos_iff.mpr sound.nonempty
    constructor
    · intro kept
      have bounded := kept.bounded
      have some_ : 0 < spec.maxPlanTokens := by omega
      refine ⟨some_, fun query => ?_⟩
      by_contra above
      have cut := @cutTokens_le spec tokens some_
      rw [if_pos ⟨query, by omega⟩] at length
      omega
    · rintro ⟨some_, inside⟩
      have cut := @cutTokens_le spec tokens some_
      refine ⟨positive, ?_, fun query short => ?_, ?_, sound.outputCount.trans ?_⟩
      · rw [length]
        split_ifs with padding
        · exact inside padding.1
        · exact cut
      · rw [length, if_pos ⟨query, short⟩, min_eq_left (inside query)]
      · obtain ⟨planned, filled, made⟩ := bind_ok built
        dsimp only at made
        split_ifs at made with kept
        obtain rfl := Except.ok.inj made
        have outputs := @planLoop_outputs _ llama spec 0 0 planned
        rw [planLoop_withResult]
        rwa [sub_zero] at outputs
      · rw [keptTokens, List.countP_eq_length_filter]

end Kept

/-! ### A query padded beyond its length -/

/-- A query profile that the parser takes: `max_length` 2, `pad_to` 4. -/
def shortProfile : EncodeProfile where
  sourceName := "sidecar"
  knownLimitations := ""
  queryMaxLength := 2
  queryPadTo := 4
  queryPadTokenId := 103
  queryTokenTypeId := 0
  queryAttendToExpansionTokens := true
  documentMaxLength := 256
  documentTokenTypeId := 0
  padTokenId := 0
  skiplistTokenIds := []
  strictPylateProfile := false

def shortQuery : EncodeSpec :=
  { echoSpec with role := .query, queryLength := 4, profile := shortProfile }

/-- A query of three tokens is cut to two and then padded to four. -/
theorem padded_past_length :
    ¬∀ (first second : Option (List Int)) (tokens : List Int) (plan : EncodePlan),
      first.map List.length = second.map List.length → second = some tokens →
      planBuffers echoLlama shortQuery first second = .ok plan →
      PlanKept echoLlama shortQuery tokens plan := by
  intro promised
  have kept := promised (some [101, 7, 102]) (some [101, 7, 102]) [101, 7, 102] _ rfl rfl rfl
  exact absurd kept.bounded (by decide)

def evenQuery : EncodeSpec :=
  { shortQuery with profile := { shortProfile with queryPadTo := 2 } }

/-- The same query, padded to the length it is cut to. -/
theorem planBuffers_kept_even : ∃ plan,
    planBuffers echoLlama evenQuery (some [101, 7, 102]) (some [101, 7, 102]) = .ok plan ∧
      PlanKept echoLlama evenQuery [101, 7, 102] plan :=
  ⟨_, rfl, ((planBuffers_kept_iff rfl).2 _ _ rfl rfl).mpr ⟨by decide, fun _ => by decide⟩⟩

end TurboHybrid.Colbert
