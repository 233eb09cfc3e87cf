/-
**Documents without contexts and documents with one context.**

A document without a context table is scored by shortcuts. The context-level and the weighted
scores give there what one context of field 0 with all tokens would give. The score by field
weights takes the first weight of field 0 and checks none, while the context loop adds the weights
of every entry and refuses one that is not finite.

* `contextLevel_agrees`: the context-level and the weighted scores agree;
* `maxSimFieldWeighted_plain`, `maxSimFieldWeighted_oneContext`: the two scores by field weights;
* `oneContext_agrees_iff`: when all scores agree.
-/
import TurboHybrid.MultiVector.MaxSimKernels

namespace TurboHybrid.MaxSimKernels

open Finset
open MaxSim (MultiVector)

/-! ### The score by field weights -/

def Weight.scale (weight : Weight) (score : WithBot Rat) : Weight :=
  match weight, score with
  | .finite weight, (score : Rat) => .finite (weight * score)
  | _, _ => .notFinite

/-- The field of a context; without a table of fields it is zero. -/
def contextField (docFields : Option (List Int)) (ci : Nat) : Int :=
  match docFields with
  | some fields => fields.getD ci 0
  | none => 0

def fieldBest (query doc : MultiVector) (docFields : Option (List Int)) (fieldId : Int) :
    Option (WithBot Rat) :=
  (List.range doc.contextOffsets.length).foldlM (fun best ci =>
    if contextField docFields ci ≠ fieldId then some best
    else (maxSimTokenRangeWeighted query doc (doc.contextOffsets.getD ci 0) (contextEnd doc ci) none
      none).map fun score => if best < score then score else best) ⊥

/-- One entry of the field weights, added to the total. -/
def addField (query doc : MultiVector) (docFields : Option (List Int)) (total : Rat)
    (entry : Int × Weight) : Option Rat :=
  match entry.2 with
  | .notFinite => none
  | .finite weight =>
    (fieldBest query doc docFields entry.1).map fun best =>
      match best with
      | (best : Rat) => total + weight * best
      | none => total

/-- **`TqMultiVectorMaxSimFieldWeighted`**; the empty list stands also for a missing array. -/
def maxSimFieldWeighted (kernel : MaxSimKernel) (query doc : MultiVector)
    (docFields : Option (List Int)) (fieldWeights : List (Int × Weight)) : Option Weight :=
  if query.dim ≠ doc.dim then none
  else if fieldWeights.length = 0 then none
  else if !doc.hasContexts then
    match fieldWeights.find? fun entry => entry.1 = 0 with
    | some entry => (maxSim kernel query doc).map entry.2.scale
    | none => some (.finite 0)
  else (fieldWeights.foldlM (addField query doc docFields) 0).map Weight.finite

def withoutContexts (doc : MultiVector) : MultiVector :=
  { doc with
    contextOffsets := []
    contexts := .inl rfl
    rising := List.Pairwise.nil
    inside := fun _ member => absurd member List.not_mem_nil }

/-- The field table of a document with one context: field 0, written down or not. -/
def oneField (tabled : Bool) : Option (List Int) := if tabled then some [0] else none

/-! ### The context-level and the weighted scores -/

section Agreement

variable (kernel : MaxSimKernel) (query doc : MultiVector)

theorem maxSim_withoutContexts :
    maxSim kernel query (withoutContexts doc) = maxSim kernel query doc := by
  cases kernel <;> rfl

/-- **The context-level and the weighted scores** agree with and without the table. -/
theorem contextLevel_agrees (queryWeights : Option (Nat → Weight))
    (queryMask : Option (Nat → Bool)) :
    maxSimContextLevel kernel query (withoutContexts doc) =
        maxSimContextLevel kernel query (withOneContext doc) ∧
      maxSimWeighted kernel query (withoutContexts doc) queryWeights queryMask =
        maxSimWeighted kernel query (withOneContext doc) queryWeights queryMask ∧
      maxSimContextLevelWeighted kernel query (withoutContexts doc) queryWeights queryMask =
        maxSimContextLevelWeighted kernel query (withOneContext doc) queryWeights queryMask := by
  have level : maxSimContextLevel kernel query (withoutContexts doc) =
      maxSimContextLevel kernel query (withOneContext doc) := by
    have noContexts : (withoutContexts doc).hasContexts = false := rfl
    have sameDim : (withoutContexts doc).dim = doc.dim := rfl
    rw [maxSimContextLevel_withOneContext, maxSimContextLevel, noContexts, sameDim,
      maxSim_withoutContexts, maxSim_eq_rangeScore]
    by_cases different : query.dim ≠ doc.dim
    · rw [if_pos different, if_pos different]
    · rw [if_neg different, if_neg different]
      rfl
  refine ⟨level, by cases kernel <;> rfl, ?_⟩
  unfold maxSimContextLevelWeighted
  by_cases plain : queryWeights.isNone ∧ queryMask.isNone
  · rw [if_pos plain, if_pos plain]
    exact level
  · rw [if_neg plain, if_neg plain]
    have sameDim : (withoutContexts doc).dim = (withOneContext doc).dim := rfl
    rw [sameDim, bestContext_withOneContext]
    refine if_congr Iff.rfl rfl ?_
    have ranged : maxSimWeighted kernel query (withoutContexts doc) queryWeights queryMask =
        maxSimTokenRangeWeighted query doc 0 doc.count queryWeights queryMask := if_neg plain
    rw [ranged]
    rfl

/-! ### The two scores by field weights -/

/-- The flat score of a document with the query's dimension. -/
def flatScore : Rat := (query.values.map fun row => MaxSim.bestDot row doc.values).sum

variable {query doc}

theorem rangeScore_eq_flatScore (same : query.dim = doc.dim) :
    rangeScore query doc 0 doc.count = (flatScore query doc : WithBot Rat) := by
  rw [flatScore, ← sum_getD query.values (fun row => MaxSim.bestDot row doc.values) [], coe_sum]
  exact sum_congr rfl fun qi member => bestOver_eq_bestDot query doc same (mem_range.mp member)

theorem fieldBest_oneContext (same : query.dim = doc.dim) (tabled : Bool) (fieldId : Int) :
    fieldBest query (withOneContext doc) (oneField tabled) fieldId =
      some (if fieldId = 0 then (flatScore query doc : WithBot Rat) else ⊥) := by
  have first : contextField (oneField tabled) 0 = 0 := by cases tabled <;> rfl
  have score := maxSimTokenRangeWeighted_unit query (withOneContext doc)
    (count_pos (withOneContext doc)) le_rfl none none (fun _ => rfl) fun _ => rfl
  have different : ¬query.dim ≠ (withOneContext doc).dim := not_not.mpr same
  have flat : rangeScore query (withOneContext doc) 0 (withOneContext doc).count =
      (flatScore query doc : WithBot Rat) := rangeScore_eq_flatScore same
  rw [if_neg different, flat] at score
  have run : fieldBest query (withOneContext doc) (oneField tabled) fieldId =
      (if contextField (oneField tabled) 0 ≠ fieldId then some ⊥
        else (maxSimTokenRangeWeighted query (withOneContext doc) 0 (withOneContext doc).count none
          none).map fun score => if ⊥ < score then score else ⊥) >>= pure := rfl
  rw [run, bind_pure, first, score]
  by_cases zero : fieldId = 0
  · rw [zero, if_neg (not_not.mpr rfl), if_pos rfl, Option.map_some, if_pos (WithBot.bot_lt_coe _)]
  · rw [if_pos (Ne.symm zero), if_neg zero]

def Weight.value : Weight → Rat
  | .finite value => value
  | .notFinite => 0

def zeroWeights (fieldWeights : List (Int × Weight)) : List Rat :=
  (fieldWeights.filter fun entry => entry.1 = 0).map fun entry => entry.2.value

theorem zeroWeights_cons (entry : Int × Weight) (rest : List (Int × Weight)) :
    zeroWeights (entry :: rest) =
      if entry.1 = 0 then entry.2.value :: zeroWeights rest else zeroWeights rest := by
  unfold zeroWeights
  by_cases zero : entry.1 = 0
  · rw [if_pos zero, List.filter_cons_of_pos (by simpa using zero), List.map_cons]
  · rw [if_neg zero, List.filter_cons_of_neg (by simpa using zero)]

/-- **The context loop** adds the weights of all entries of field 0 and refuses a list with a weight
that is not finite. -/
theorem addField_run (same : query.dim = doc.dim) (tabled : Bool)
    (fieldWeights : List (Int × Weight)) (total : Rat) :
    fieldWeights.foldlM (addField query (withOneContext doc) (oneField tabled)) total =
      if ∀ entry ∈ fieldWeights, entry.2 ≠ .notFinite then
        some (total + (zeroWeights fieldWeights).sum * flatScore query doc)
      else none := by
  induction fieldWeights generalizing total with
  | nil =>
    rw [if_pos fun entry member => absurd member List.not_mem_nil]
    simp [zeroWeights]
  | cons entry rest ih =>
    obtain ⟨fieldId, weight⟩ := entry
    rw [List.foldlM_cons]
    cases weight with
    | notFinite =>
      rw [if_neg fun all => all _ List.mem_cons_self rfl]
      rfl
    | finite weight =>
      have step : addField query (withOneContext doc) (oneField tabled) total
          (fieldId, .finite weight) =
            some (total + if fieldId = 0 then weight * flatScore query doc else 0) := by
        simp only [addField, fieldBest_oneContext same, Option.map_some]
        by_cases zero : fieldId = 0
        · simp only [zero, if_true]
        · simp only [zero, if_false, add_zero]
      rw [step]
      refine (ih _).trans (if_congr ?_ ?_ rfl)
      · rw [List.forall_mem_cons]
        exact ⟨fun all => ⟨Weight.noConfusion, all⟩, And.right⟩
      · refine congrArg some ?_
        rw [zeroWeights_cons]
        by_cases zero : fieldId = 0
        · rw [if_pos zero, if_pos zero, List.sum_cons, add_mul, ← add_assoc]
          rfl
        · rw [if_neg zero, if_neg zero, add_zero]

theorem maxSimFieldWeighted_oneContext (kernel : MaxSimKernel) (same : query.dim = doc.dim)
    (tabled : Bool) {fieldWeights : List (Int × Weight)} (some_ : fieldWeights ≠ []) :
    maxSimFieldWeighted kernel query (withOneContext doc) (oneField tabled) fieldWeights =
      if ∀ entry ∈ fieldWeights, entry.2 ≠ .notFinite then
        some (.finite ((zeroWeights fieldWeights).sum * flatScore query doc))
      else none := by
  have different : ¬query.dim ≠ (withOneContext doc).dim := not_not.mpr same
  have length : ¬fieldWeights.length = 0 := fun none => some_ (List.length_eq_zero_iff.mp none)
  have contexts : (withOneContext doc).hasContexts = true := rfl
  rw [maxSimFieldWeighted, if_neg different, if_neg length, contexts, addField_run same]
  simp only [zero_add, Bool.not_true, Bool.false_eq_true, if_false]
  split_ifs <;> rfl

/-- **Without the table** only the first entry of field 0 counts. -/
theorem maxSimFieldWeighted_plain (kernel : MaxSimKernel) (same : query.dim = doc.dim)
    {fieldWeights : List (Int × Weight)} (some_ : fieldWeights ≠ []) :
    maxSimFieldWeighted kernel query (withoutContexts doc) none fieldWeights =
      some ((fieldWeights.find? fun entry => entry.1 = 0).elim (.finite 0) fun entry =>
        entry.2.scale (flatScore query doc)) := by
  have different : ¬query.dim ≠ (withoutContexts doc).dim := not_not.mpr same
  have length : ¬fieldWeights.length = 0 := fun none => some_ (List.length_eq_zero_iff.mp none)
  have contexts : (withoutContexts doc).hasContexts = false := rfl
  have flat : maxSim kernel query (withoutContexts doc) =
      some (flatScore query doc : WithBot Rat) := by
    rw [maxSim_withoutContexts, maxSim_eq_rangeScore, if_neg (not_not.mpr same),
      rangeScore_eq_flatScore same]
  rw [maxSimFieldWeighted, if_neg different, if_neg length, contexts, flat]
  simp only [Bool.not_false, if_true]
  cases fieldWeights.find? fun entry => entry.1 = 0 with
  | none => rfl
  | some entry => rfl

def laterWeights (fieldWeights : List (Int × Weight)) : List Rat := (zeroWeights fieldWeights).tail

theorem scale_first_iff {fieldWeights : List (Int × Weight)}
    (finite : ∀ entry ∈ fieldWeights, entry.2 ≠ .notFinite) (flat : Rat) :
    ((fieldWeights.find? fun entry => entry.1 = 0).elim (.finite 0) fun entry =>
        entry.2.scale flat) = .finite ((zeroWeights fieldWeights).sum * flat) ↔
      (laterWeights fieldWeights).sum = 0 ∨ flat = 0 := by
  rw [← List.head?_filter, laterWeights, zeroWeights]
  cases found : fieldWeights.filter fun entry => decide (entry.1 = 0) with
  | nil => simp
  | cons entry rest =>
    have member : entry ∈ fieldWeights := by
      refine List.mem_of_mem_filter (p := fun entry => decide (entry.1 = 0)) ?_
      rw [found]
      exact List.mem_cons_self
    obtain ⟨fieldId, weight⟩ := entry
    cases weight with
    | notFinite => exact absurd rfl (finite _ member)
    | finite weight =>
      have product : (Weight.finite weight).scale (flat : WithBot Rat) = .finite (weight * flat) :=
        rfl
      rw [List.head?_cons, Option.elim_some, product, List.map_cons, List.sum_cons, List.tail_cons,
        Weight.value, Weight.finite.injEq, add_mul, left_eq_add, mul_eq_zero]

/-- **The scores by field weights agree** exactly when an error comes first, or every weight is
finite and the later weights of field 0 add nothing. -/
theorem maxSimFieldWeighted_agrees_iff (kernel : MaxSimKernel) (query doc : MultiVector)
    (tabled : Bool) (fieldWeights : List (Int × Weight)) :
    maxSimFieldWeighted kernel query (withoutContexts doc) none fieldWeights =
        maxSimFieldWeighted kernel query (withOneContext doc) (oneField tabled) fieldWeights ↔
      query.dim ≠ doc.dim ∨ fieldWeights = [] ∨
        ((∀ entry ∈ fieldWeights, entry.2 ≠ .notFinite) ∧
          ((laterWeights fieldWeights).sum = 0 ∨ flatScore query doc = 0)) := by
  by_cases same : query.dim = doc.dim
  · by_cases some_ : fieldWeights = []
    · subst some_
      have refused (given : MultiVector) (fields : Option (List Int)) :
          maxSimFieldWeighted kernel query given fields [] = none := by
        rw [maxSimFieldWeighted, if_pos (List.length_nil), ite_self]
      rw [refused, refused]
      exact iff_of_true rfl (.inr (.inl rfl))
    · rw [maxSimFieldWeighted_plain kernel same some_,
        maxSimFieldWeighted_oneContext kernel same tabled some_]
      by_cases finite : ∀ entry ∈ fieldWeights, entry.2 ≠ .notFinite
      · rw [if_pos finite, Option.some_inj, scale_first_iff finite]
        exact ⟨fun nothing => .inr (.inr ⟨finite, nothing⟩), fun cases_ =>
          ((cases_.resolve_left (not_not.mpr same)).resolve_left some_).2⟩
      · rw [if_neg finite]
        refine iff_of_false (Option.some_ne_none _) fun cases_ => finite ?_
        exact ((cases_.resolve_left (not_not.mpr same)).resolve_left some_).1
  · have refused (given : MultiVector) (dim : given.dim = doc.dim) (fields : Option (List Int)) :
        maxSimFieldWeighted kernel query given fields fieldWeights = none := by
      rw [maxSimFieldWeighted, if_pos (dim ▸ same)]
    rw [refused (withoutContexts doc) rfl, refused (withOneContext doc) rfl]
    exact iff_of_true rfl (.inl same)

end Agreement

def unitToken : MultiVector :=
  { dim := 1
    values := [[1]]
    contextOffsets := []
    nonempty := List.cons_ne_nil _ _
    rows := fun row member => by rw [List.mem_singleton.mp member]; rfl
    contexts := .inl rfl
    rising := List.Pairwise.nil
    inside := fun _ member => absurd member List.not_mem_nil }

end TurboHybrid.MaxSimKernels
