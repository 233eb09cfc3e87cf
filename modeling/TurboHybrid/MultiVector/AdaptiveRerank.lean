/-
**The adaptive rerank returns what the full rerank returns.**

In exact arithmetic a document's score is at most what it has so far plus the greatest norm of its
tokens times the norms of the query tokens that are still to come. A document is abandoned only
when this bound is below the worst of the wanted number of best scores, so that it stays behind all
of them, with its bound as with its score.

* `boundedFrom_spec`: the bound is at least the score;
* `offer_holds`: the threshold has the wanted number of scores at or above it, and only rises;
* `adaptive_topK`: both reranks deliver the same first results.
-/
import TurboHybrid.Library.Pruning
import TurboHybrid.Library.Results
import TurboHybrid.MultiVector.HeapRerank
import Mathlib.Algebra.Order.BigOperators.Ring.Finset
import Mathlib.Analysis.Real.Sqrt
import Mathlib.Data.List.GetD
import Mathlib.Data.Rat.BigOperators

namespace TurboHybrid.Rerank

open TurboHybrid.Library TurboHybrid.MaxSim TurboHybrid.PlainFallback

variable {Row : Type}

/-! ### Norms bound products -/

theorem dotProduct_eq_sum {one : List Rat} (other : List Rat) {n : Nat} (room : one.length ≤ n) :
    dotProduct one other = ∑ i ∈ Finset.range n, one.getD i 0 * other.getD i 0 := by
  induction one generalizing other n with
  | nil => simp [MaxSim.dotProduct]
  | cons first one ih =>
    obtain ⟨m, rfl⟩ : ∃ m, n = m + 1 := ⟨n - 1, by simp at room; omega⟩
    rcases other with _ | ⟨second, other⟩
    · simp [MaxSim.dotProduct]
    · have rest := ih other (Nat.le_of_succ_le_succ room)
      rw [Finset.sum_range_succ', add_comm]
      simp only [List.getD_cons_zero, List.getD_cons_succ]
      rw [← rest]
      rfl

theorem dotProduct_self_nonneg (row : List Rat) : 0 ≤ dotProduct row row := by
  rw [dotProduct_eq_sum row le_rfl]
  exact Finset.sum_nonneg fun i _ => mul_self_nonneg _

theorem dotProduct_sq_le (one other : List Rat) :
    dotProduct one other ^ 2 ≤ dotProduct one one * dotProduct other other := by
  have room := le_max_left one.length other.length
  have room' := le_max_right one.length other.length
  rw [dotProduct_eq_sum other room, dotProduct_eq_sum one room, dotProduct_eq_sum other room']
  simp only [← pow_two]
  exact Finset.sum_mul_sq_le_sq_mul_sq _ _ _

theorem tokenNorm_nonneg (row : List Rat) : 0 ≤ tokenNorm Real.sqrt row := Real.sqrt_nonneg _

theorem dotProduct_le_norms (one other : List Rat) :
    ((dotProduct one other : Rat) : ℝ) ≤ tokenNorm Real.sqrt one * tokenNorm Real.sqrt other := by
  rw [tokenNorm, tokenNorm, ← Real.sqrt_mul (by exact_mod_cast dotProduct_self_nonneg one)]
  apply Real.le_sqrt_of_sq_le
  exact_mod_cast dotProduct_sq_le one other

theorem le_foldl_max (values : List ℝ) (start : ℝ) :
    start ≤ values.foldl max start ∧ ∀ value ∈ values, value ≤ values.foldl max start := by
  induction values generalizing start with
  | nil => simp
  | cons first values ih =>
    obtain ⟨above, every⟩ := ih (max start first)
    refine ⟨(le_max_left start first).trans above, fun value member => ?_⟩
    rcases List.mem_cons.mp member with rfl | later
    · exact (le_max_right start value).trans above
    · exact every value later

theorem docMaxTokenNorm_eq (doc : MultiVector) : docMaxTokenNorm Real.sqrt doc =
    (doc.values.map (tokenNorm Real.sqrt)).foldl max 0 := by
  rw [docMaxTokenNorm, List.foldl_map]
  congr 1
  funext maxValue row
  exact (max_def_lt maxValue _).symm

theorem tokenNorm_le_max {doc : MultiVector} {row : List Rat} (member : row ∈ doc.values) :
    tokenNorm Real.sqrt row ≤ docMaxTokenNorm Real.sqrt doc := by
  rw [docMaxTokenNorm_eq]
  exact (le_foldl_max _ 0).2 _ (List.mem_map_of_mem member)

theorem bestDot_le (row : List Rat) (doc : MultiVector) :
    ((bestDot row doc.values : Rat) : ℝ) ≤
      tokenNorm Real.sqrt row * docMaxTokenNorm Real.sqrt doc := by
  rw [bestDot]
  rcases best : (doc.values.map (dotProduct row)).max? with _ | dot
  · have empty := List.max?_eq_none_iff.mp best
    exact absurd (List.map_eq_nil_iff.mp empty) doc.nonempty
  · obtain ⟨token, member, rfl⟩ := List.mem_map.mp (List.max?_mem best)
    exact (dotProduct_le_norms row token).trans
      (mul_le_mul_of_nonneg_left (tokenNorm_le_max member) (tokenNorm_nonneg row))

theorem weight_nonneg (tokens : QueryTokens) (qi : Nat) : 0 ≤ tokens.weight qi := by
  rw [QueryTokens.weight]
  rcases given : tokens.weights with _ | weights
  · exact zero_le_one
  · show 0 ≤ weights.getD qi 1
    rw [List.getD_eq_getElem?_getD]
    rcases found : weights[qi]? with _ | weight
    · exact zero_le_one
    · exact tokens.nonneg weights given weight (List.mem_of_getElem? found)

section Bound

variable (query doc : MultiVector) (tokens : QueryTokens)

/-- The contribution of a query token by its number. -/
def tokenShare (qi : Nat) : Rat := tokenScore tokens doc.values (query.values.getD qi []) qi

theorem tokenShare_le (qi : Nat) : ((tokenShare query doc tokens qi : Rat) : ℝ) ≤
    docMaxTokenNorm Real.sqrt doc * weightedNorm Real.sqrt query tokens qi := by
  rw [tokenShare, tokenScore, weightedNorm]
  split_ifs with masked zero
  · simp
  · simp [zero]
  · have weight : (0 : ℝ) ≤ (tokens.weight qi : Rat) := by
      exact_mod_cast weight_nonneg tokens qi
    rw [Rat.cast_mul]
    calc ((tokens.weight qi : Rat) : ℝ) * (bestDot (query.values.getD qi []) doc.values : Rat)
        ≤ (tokens.weight qi : Rat) * (tokenNorm Real.sqrt (query.values.getD qi []) *
            docMaxTokenNorm Real.sqrt doc) :=
          mul_le_mul_of_nonneg_left (bestDot_le _ doc) weight
      _ = _ := by ring

/-! ### The bounded score -/

theorem suffixNorms_cons {K : Type*} [Field K] [LinearOrder K] (norms : Nat → K) (qi : Nat)
    (rest : List Nat) : (suffixNorms norms (qi :: rest)).tail = suffixNorms norms rest := by
  rw [suffixNorms, List.scanr_cons, List.tail_cons]
  rfl

theorem foldr_norms (norms : Nat → ℝ) (order : List Nat) :
    order.foldr (fun qi sum => sum + norms qi) 0 = (order.map norms).sum := by
  induction order with
  | nil => rfl
  | cons qi rest ih => rw [List.foldr_cons, ih, List.map_cons, List.sum_cons, add_comm]

theorem suffixNorms_head (norms : Nat → ℝ) (order : List Nat) :
    suffixNorms norms order = (order.map norms).sum :: (suffixNorms norms order).tail := by
  rcases order with _ | ⟨qi, rest⟩
  · rfl
  · rw [suffixNorms_cons, suffixNorms, List.scanr_cons, foldr_norms]
    rfl

/-- A score, or a bound of it that is below the threshold. -/
def StandsFor (threshold : Option ℝ) (result : BoundedScore ℝ) (score : ℝ) : Prop :=
  if result.pruned then score ≤ result.score ∧ ∃ worst ∈ threshold, result.score < worst
  else result.score = score

theorem shares_le (rest : List Nat) :
    (rest.map fun qi => ((tokenShare query doc tokens qi : Rat) : ℝ)).sum ≤
      docMaxTokenNorm Real.sqrt doc * (rest.map (weightedNorm Real.sqrt query tokens)).sum := by
  rw [← List.sum_map_mul_left]
  exact List.sum_le_sum fun qi _ => tokenShare_le query doc tokens qi

/-- **The bound is at least the score.** -/
theorem boundedFrom_spec (threshold : Option ℝ) (order : List Nat) (sum : ℝ) :
    StandsFor threshold
      (boundedFrom query doc tokens (docMaxTokenNorm Real.sqrt doc) threshold sum
        (order.zip (suffixNorms (weightedNorm Real.sqrt query tokens) order).tail))
      (sum + (order.map fun qi => ((tokenShare query doc tokens qi : Rat) : ℝ)).sum) := by
  induction order generalizing sum with
  | nil => simp [boundedFrom, StandsFor]
  | cons qi rest ih =>
    rw [suffixNorms_cons, suffixNorms_head, List.zip_cons_cons, boundedFrom, List.map_cons,
      List.sum_cons, ← add_assoc]
    by_cases skipped : tokens.masked qi ∨ tokens.weight qi = 0
    · have nothing : tokenShare query doc tokens qi = 0 := by
        rw [tokenShare, tokenScore]
        rcases skipped with masked | zero
        · rw [if_pos masked]
        · rw [if_pos zero, ite_self]
      rw [if_pos skipped, nothing, Rat.cast_zero, add_zero]
      exact ih sum
    · have share : tokenShare query doc tokens qi =
          tokens.weight qi * bestDot (query.values.getD qi []) doc.values := by
        rw [not_or] at skipped
        rw [tokenShare, tokenScore, if_neg skipped.1, if_neg skipped.2]
      rw [if_neg skipped, share]
      dsimp only
      split
      · rename_i pruned
        rcases threshold with _ | worst
        · exact absurd pruned.2 (by simp)
        · refine ⟨?_, worst, rfl, of_decide_eq_true pruned.2⟩
          exact add_le_add_right (shares_le query doc tokens rest) _
      · exact ih _

theorem sum_queryNormOrder (norms : Nat → ℝ) :
    ((queryNormOrder norms query.count).map fun qi =>
      ((tokenShare query doc tokens qi : Rat) : ℝ)).sum =
      (maxSimWeighted query doc tokens : Rat) := by
  have perm := (queryNormOrder_perm norms query.count).map fun qi =>
    ((tokenShare query doc tokens qi : Rat) : ℝ)
  have shares : (query.values.zipIdx.map fun token =>
      tokenScore tokens doc.values token.1 token.2) =
      (List.range query.count).map (tokenShare query doc tokens) := by
    apply List.ext_getElem
    · simp [MultiVector.count]
    · intro i inside _
      have short : i < query.values.length := by simpa using inside
      simp [tokenShare, List.getElem?_eq_getElem short]
  rw [perm.sum_eq, maxSimWeighted, maxSimTokenRangeWeighted, shares, Rat.cast_list_sum,
    List.map_map]
  rfl

theorem maxSimAdaptiveBounded_spec (threshold : Option ℝ) :
    StandsFor threshold (maxSimAdaptiveBounded Real.sqrt query doc tokens threshold)
      ((maxSimWeighted query doc tokens : Rat) : ℝ) := by
  have bounded := boundedFrom_spec query doc tokens threshold
    (queryNormOrder (weightedNorm Real.sqrt query tokens) query.count) 0
  rwa [sum_queryNormOrder, zero_add] at bounded

end Bound

/-! ### The best scores so far -/

namespace TopScores

theorem minIndex_spec {scores : List ℝ} (nonempty : scores ≠ []) :
    minIndex scores < scores.length ∧
      ∀ j < scores.length, scores.getD (minIndex scores) 0 ≤ scores.getD j 0 := by
  have upTo (n : Nat) :
      let index := (List.range' 1 n).foldl
        (fun minIndex i => if scores.getD i 0 < scores.getD minIndex 0 then i else minIndex) 0
      index ≤ n ∧ ∀ j ≤ n, scores.getD index 0 ≤ scores.getD j 0 := by
    induction n with
    | zero => simp
    | succ n ih =>
      obtain ⟨inside, least⟩ := ih
      dsimp only
      rw [List.range'_1_concat, List.foldl_concat]
      split_ifs with less
      · refine ⟨by omega, fun j bound => ?_⟩
        rcases Nat.lt_or_eq_of_le bound with earlier | rfl
        · exact less.le.trans (least j (by omega))
        · rw [Nat.add_comm]
      · refine ⟨by omega, fun j bound => ?_⟩
        rcases Nat.lt_or_eq_of_le bound with earlier | rfl
        · exact least j (by omega)
        · rw [Nat.add_comm]
          exact not_lt.mp less
  have positive := List.length_pos_of_ne_nil nonempty
  obtain ⟨inside, least⟩ := upTo (scores.length - 1)
  exact ⟨by rw [minIndex]; omega, fun j bound => least j (by omega)⟩

theorem getD_minIndex {scores : List ℝ} (nonempty : scores ≠ []) :
    scores.getD (minIndex scores) 0 ∈ scores ∧
      ∀ score ∈ scores, scores.getD (minIndex scores) 0 ≤ score := by
  obtain ⟨inside, least⟩ := minIndex_spec nonempty
  refine ⟨?_, fun score member => ?_⟩
  · rw [List.getD_eq_getElem _ _ inside]
    exact List.getElem_mem inside
  · obtain ⟨j, bound, rfl⟩ := List.mem_iff_getElem.mp member
    rw [← List.getD_eq_getElem _ 0 bound]
    exact least j bound

/-- **The scores are among the offered ones**, and the threshold has `topK` of them at or above. -/
structure Holds (topK : Nat) (top : TopScores ℝ) (offered : List ℝ) : Prop where
  among : top.scores.Subperm offered
  room : top.scores.length ≤ topK
  least : ∀ worst ∈ top.threshold,
    top.scores.length = topK ∧ ∀ score ∈ top.scores, worst ≤ score

def Rises (before after : Option ℝ) : Prop := ∀ worst ∈ before, ∃ higher ∈ after, worst ≤ higher

theorem Rises.refl (threshold : Option ℝ) : Rises threshold threshold :=
  fun worst known => ⟨worst, known, le_rfl⟩

theorem Rises.trans {before after later : Option ℝ} (first : Rises before after)
    (second : Rises after later) : Rises before later := by
  intro worst known
  obtain ⟨higher, known', above⟩ := first worst known
  obtain ⟨highest, known'', above'⟩ := second higher known'
  exact ⟨highest, known'', above.trans above'⟩

variable {topK : Nat} {top : TopScores ℝ} {offered : List ℝ}

theorem Holds.more (holds : Holds topK top offered) (more : List ℝ) :
    Holds topK top (offered ++ more) :=
  { holds with among := holds.among.trans (List.sublist_append_left offered more).subperm }

theorem settle_holds {scores : List ℝ} {threshold : Option ℝ} (positive : 0 < topK)
    (among : scores.Subperm offered) (room : scores.length ≤ topK)
    (known : ∀ worst ∈ threshold, scores.length = topK ∧ ∀ score ∈ scores, worst ≤ score) :
    Holds topK (settle topK scores threshold) offered ∧
      Rises threshold (settle topK scores threshold).threshold := by
  by_cases full : topK ≤ scores.length
  · have nonempty : scores ≠ [] := by
      rintro rfl
      exact absurd full (not_le.mpr positive)
    obtain ⟨member, least⟩ := getD_minIndex nonempty
    have set : (settle topK scores threshold).threshold =
        some (scores.getD (minIndex scores) 0) := if_pos full
    refine ⟨⟨among, room, fun worst here => ?_⟩, fun worst here => ?_⟩
    · rw [set, Option.mem_some_iff] at here
      exact ⟨le_antisymm room full, here ▸ least⟩
    · exact ⟨_, set, (known worst here).2 _ member⟩
  · have kept : (settle topK scores threshold).threshold = threshold := if_neg full
    rw [kept]
    refine ⟨⟨among, room, fun worst here => ?_⟩, Rises.refl threshold⟩
    rw [kept] at here
    exact known worst here

/-- **One offer** keeps the invariant, and the threshold only rises. -/
theorem Holds.offer_holds (positive : 0 < topK) (holds : Holds topK top offered) (score : ℝ) :
    Holds topK (top.offer topK score) (offered ++ [score]) ∧
      Rises top.threshold (top.offer topK score).threshold := by
  rw [offer]
  split_ifs with room better
  · apply settle_holds positive
    · exact (List.subperm_append_right [score]).mpr holds.among
    · rw [List.length_append, List.length_singleton]
      exact room
    · exact fun worst known => absurd (holds.least worst known).1 room.ne
  · have full : top.scores.length = topK := le_antisymm holds.room (not_lt.mp room)
    have nonempty : top.scores ≠ [] := by
      rintro empty
      rw [empty] at full
      exact absurd full positive.ne
    have set := List.set_perm_cons_eraseIdx (minIndex_spec nonempty).1 score
    apply settle_holds positive
    · have moved := (List.perm_append_singleton score offered).symm.subperm
      refine set.subperm.trans (List.Subperm.trans ?_ moved)
      exact (List.subperm_cons score).mpr ((List.eraseIdx_sublist _ _).subperm.trans holds.among)
    · rw [List.length_set]
      exact holds.room
    · intro worst known
      rw [List.length_set]
      refine ⟨full, fun other member => ?_⟩
      rcases List.mem_cons.mp (set.mem_iff.mp member) with rfl | old
      · rw [known] at better
        exact (of_decide_eq_true better).le
      · exact (holds.least worst known).2 other (List.mem_of_mem_eraseIdx old)
  · exact ⟨holds.more [score], Rises.refl _⟩

end TopScores

/-! ### The run -/

namespace RerankScan

def withMode (scan : RerankScan Row) (mode : ExactRerankMode) : RerankScan Row :=
  { scan with exactRerank := mode }

/-- A candidate of the adaptive rerank and the same one of the full rerank. -/
def Matches (one other : Reranked ℝ) : Prop :=
  one.rescored = other.rescored ∧
    if one.abandoned then one.rescored ∧ one.candidate.distance ≤ other.candidate.distance
    else one.candidate = other.candidate

def Agrees : Except RerankError (List (Reranked ℝ)) → Except RerankError (List (Reranked ℝ)) → Prop
  | .ok one, .ok other => List.Forall₂ Matches one other
  | .error one, .error other => one = other
  | _, _ => False

theorem Agrees.map_cons {one other : Except RerankError (List (Reranked ℝ))} {x y : Reranked ℝ}
    (first : Matches x y) (rest : Agrees one other) :
    Agrees (one.map (x :: ·)) (other.map (y :: ·)) := by
  rcases one with error | one <;> rcases other with error' | other
  · exact rest
  · exact rest.elim
  · exact rest.elim
  · exact List.Forall₂.cons first rest

theorem matches_kept (candidate : Candidate ℝ) :
    Matches (.kept candidate) (.kept candidate) := ⟨rfl, rfl⟩

theorem forall_matches_kept (candidates : List (Candidate ℝ)) :
    List.Forall₂ Matches (candidates.map .kept) (candidates.map .kept) :=
  List.forall₂_same.mpr fun one member => by
    obtain ⟨candidate, _, rfl⟩ := List.mem_map.mp member
    exact matches_kept candidate

variable (scan : RerankScan Row)

theorem document_withMode (mode : ExactRerankMode) (candidate : Candidate ℝ) :
    (scan.withMode mode).document candidate = scan.document candidate := rfl

theorem documentScore_standsFor (limit : Nat) (top : TopScores ℝ) (doc : MultiVector) :
    StandsFor top.threshold (scan.documentScore Real.sqrt limit top doc)
      ((scan.exactMaxsim doc : Rat) : ℝ) := by
  rw [documentScore]
  split_ifs with ready
  · have plain : scan.exactMaxsim doc = maxSimWeighted scan.query doc scan.queryTokens := by
      rw [PlainScan.exactMaxsim, indexMaxSim, if_neg ready.2.1]
    rw [plain]
    exact maxSimAdaptiveBounded_spec scan.query doc scan.queryTokens top.threshold
  · rfl

theorem rescored_matches (candidate : Candidate ℝ) {threshold : Option ℝ}
    {score : BoundedScore ℝ} {full : ℝ} (stands : StandsFor threshold score full)
    (mode : ExactRerankMode) :
    Matches ⟨scan.rescored candidate score.score, true, score.pruned⟩
      ⟨(scan.withMode mode).rescored candidate full, true, false⟩ := by
  rw [StandsFor] at stands
  refine ⟨rfl, ?_⟩
  dsimp only
  split_ifs at stands ⊢ with pruned
  · exact ⟨rfl, neg_le_neg stands.1⟩
  · rw [stands]
    rfl

theorem documentScore_topk (limit : Nat) (top : TopScores ℝ) (doc : MultiVector) :
    (scan.withMode .topk).documentScore Real.sqrt limit top doc =
      ⟨((scan.exactMaxsim doc : Rat) : ℝ), false⟩ := by
  rw [documentScore, if_neg]
  · rfl
  · rintro ⟨adaptive, -⟩
    cases adaptive

theorem rerankFrom_agrees (limit : Nat) (top top' : TopScores ℝ) (candidates : List (Candidate ℝ)) :
    Agrees (scan.rerankFrom Real.sqrt limit top candidates)
      ((scan.withMode .topk).rerankFrom Real.sqrt limit top' candidates) := by
  induction candidates generalizing top top' with
  | nil => exact List.Forall₂.nil
  | cons candidate rest ih =>
    rw [rerankFrom, rerankFrom]
    by_cases done : candidate.exactScored
    · rw [if_pos done, if_pos done]
      exact (ih top top').map_cons (matches_kept candidate)
    · rw [if_neg done, if_neg done, document_withMode]
      rcases scan.document candidate with doc | _ | _
      · dsimp only
        by_cases differ : scan.query.dim ≠ doc.dim
        · rw [if_pos differ]
          exact (if_pos differ).symm ▸ rfl
        · have differ' : ¬((scan.withMode .topk).query.dim ≠ doc.dim) := differ
          rw [if_neg differ, if_neg differ', documentScore_topk]
          exact (ih _ _).map_cons (scan.rescored_matches candidate
            (scan.documentScore_standsFor limit top doc) .topk)
      · exact (ih top top').map_cons (matches_kept candidate)
      · exact forall_matches_kept (candidate :: rest)

def keptScores (reranked : List (Reranked ℝ)) : List ℝ :=
  (reranked.filter fun one => !one.abandoned && one.candidate.exactScored).map fun one =>
    -one.candidate.distance

theorem keptScores_cons_kept {one : Reranked ℝ} (kept : one.abandoned = false)
    (exact_ : one.candidate.exactScored = true) (rest : List (Reranked ℝ)) :
    keptScores (one :: rest) = [-one.candidate.distance] ++ keptScores rest := by
  rw [keptScores, List.filter_cons_of_pos (by simp [kept, exact_])]
  rfl

theorem keptScores_cons_other {one : Reranked ℝ}
    (other : ¬(one.abandoned = false ∧ one.candidate.exactScored = true))
    (rest : List (Reranked ℝ)) : keptScores (one :: rest) = keptScores rest := by
  rw [keptScores, List.filter_cons_of_neg (by simpa using other)]
  rfl

def Hopeless (threshold : Option ℝ) (reranked : List (Reranked ℝ)) : Prop :=
  ∀ one ∈ reranked, one.abandoned → ∃ worst ∈ threshold, -one.candidate.distance < worst

theorem Hopeless.cons {threshold : Option ℝ} {one : Reranked ℝ} {rest : List (Reranked ℝ)}
    (first : one.abandoned → ∃ worst ∈ threshold, -one.candidate.distance < worst)
    (hopeless : Hopeless threshold rest) : Hopeless threshold (one :: rest) := by
  intro other member abandoned
  rcases List.mem_cons.mp member with rfl | later
  · exact first abandoned
  · exact hopeless other later abandoned

variable {scan}

/-- **The whole run**: the last threshold has `topK` exact scores at or above it, and every
abandoned document below. -/
theorem rerankFrom_holds {limit : Nat} (ready : scan.adaptiveReady limit) {top : TopScores ℝ}
    {offered : List ℝ} (holds : top.Holds (scan.adaptiveTopK limit) offered)
    {candidates : List (Candidate ℝ)} {reranked : List (Reranked ℝ)}
    (run : scan.rerankFrom Real.sqrt limit top candidates = .ok reranked) :
    ∃ final : TopScores ℝ,
      final.Holds (scan.adaptiveTopK limit) (offered ++ keptScores reranked) ∧
      TopScores.Rises top.threshold final.threshold ∧ Hopeless final.threshold reranked := by
  induction candidates generalizing top offered reranked with
  | nil =>
    cases run
    exact ⟨top, holds.more _, TopScores.Rises.refl _, fun one member => by simp at member⟩
  | cons candidate rest ih =>
    rw [rerankFrom] at run
    by_cases done : candidate.exactScored
    · rw [if_pos done] at run
      obtain ⟨later, next, rfl⟩ := map_ok run
      obtain ⟨final, held, rises, hopeless⟩ := ih (holds.more [-candidate.distance]) next
      refine ⟨final, ?_, rises, hopeless.cons (by simp [Reranked.kept])⟩
      rw [keptScores_cons_kept rfl done, ← List.append_assoc]
      exact held
    · rw [if_neg done] at run
      rcases lookup : scan.document candidate with doc | _ | _
      · rw [lookup] at run
        dsimp only at run
        split_ifs at run with differ
        obtain ⟨later, next, rfl⟩ := map_ok run
        have stands := scan.documentScore_standsFor limit top doc
        generalize scan.documentScore Real.sqrt limit top doc = score at next stands ⊢
        rw [StandsFor] at stands
        by_cases pruned : score.pruned
        · have same : scan.topAfter limit top score = top := if_neg fun both => both.2 pruned
          rw [same] at next
          rw [if_pos pruned] at stands
          obtain ⟨final, held, rises, hopeless⟩ := ih holds next
          refine ⟨final, ?_, rises, hopeless.cons fun _ => ?_⟩
          · rw [keptScores_cons_other (by simp [pruned])]
            exact held
          · obtain ⟨worst, known, below⟩ := stands.2
            obtain ⟨higher, known', above⟩ := rises worst known
            refine ⟨higher, known', ?_⟩
            show - -score.score < higher
            rw [neg_neg]
            exact below.trans_le above
        · have follows : scan.topAfter limit top score =
              top.offer (scan.adaptiveTopK limit) score.score := if_pos ⟨ready, pruned⟩
          obtain ⟨held, rises⟩ := holds.offer_holds ready.2.2.1 score.score
          rw [follows] at next
          obtain ⟨final, held', rises', hopeless⟩ := ih held next
          refine ⟨final, ?_, rises.trans rises', hopeless.cons fun abandoned => ?_⟩
          · rw [keptScores_cons_kept (by simpa using pruned) rfl, ← List.append_assoc]
            show final.Holds _ (offered ++ [- -score.score] ++ _)
            rw [neg_neg]
            exact held'
          · exact absurd abandoned pruned
      · rw [lookup] at run
        obtain ⟨later, next, rfl⟩ := map_ok run
        obtain ⟨final, held, rises, hopeless⟩ := ih holds next
        refine ⟨final, ?_, rises, hopeless.cons (by simp [Reranked.kept])⟩
        rw [keptScores_cons_other (by simp [Reranked.kept, done])]
        exact held
      · rw [lookup] at run
        cases run
        refine ⟨top, holds.more _, TopScores.Rises.refl _, fun one member abandoned => ?_⟩
        obtain ⟨_, _, rfl⟩ := List.mem_map.mp member
        cases abandoned

theorem rerankFrom_full {limit : Nat} (full : ¬scan.adaptiveReady limit) {top : TopScores ℝ}
    {candidates : List (Candidate ℝ)} {reranked : List (Reranked ℝ)}
    (run : scan.rerankFrom Real.sqrt limit top candidates = .ok reranked) :
    Hopeless none reranked := by
  induction candidates generalizing top reranked with
  | nil =>
    cases run
    exact fun one member => by simp at member
  | cons candidate rest ih =>
    rw [rerankFrom] at run
    by_cases done : candidate.exactScored
    · rw [if_pos done] at run
      obtain ⟨later, next, rfl⟩ := map_ok run
      exact (ih next).cons (by simp [Reranked.kept])
    · rw [if_neg done] at run
      rcases lookup : scan.document candidate with doc | _ | _
      · rw [lookup] at run
        dsimp only at run
        split_ifs at run with differ
        obtain ⟨later, next, rfl⟩ := map_ok run
        refine (ih next).cons fun abandoned => ?_
        rw [documentScore, if_neg full] at abandoned
        cases abandoned
      · rw [lookup] at run
        obtain ⟨later, next, rfl⟩ := map_ok run
        exact (ih next).cons (by simp [Reranked.kept])
      · rw [lookup] at run
        cases run
        intro one member abandoned
        obtain ⟨_, _, rfl⟩ := List.mem_map.mp member
        cases abandoned

variable (scan)

/-- **What an abandoned document has before it**: a level that `topK` exact scores reach and no
abandoned one does. -/
theorem exactHeapRerank_level {candidates : List (Candidate ℝ)} {reranked : List (Reranked ℝ)}
    (run : scan.exactHeapRerank Real.sqrt candidates = .ok reranked) {one : Reranked ℝ}
    (member : one ∈ reranked) (abandoned : one.abandoned) :
    ∃ worst : ℝ, Hopeless (some worst) reranked ∧
      scan.adaptiveTopK (scan.limit candidates.length) ≤
        (keptScores reranked).countP fun score => decide (worst ≤ score) := by
  obtain ⟨first, next, rfl⟩ := map_ok run
  have behind (threshold : Option ℝ) (hopeless : Hopeless threshold first) :
      Hopeless threshold (first ++ (candidates.drop (scan.limit candidates.length)).map
        .kept) := by
    intro other member abandoned
    rcases List.mem_append.mp member with early | late
    · exact hopeless other early abandoned
    · obtain ⟨_, _, rfl⟩ := List.mem_map.mp late
      cases abandoned
  by_cases ready : scan.adaptiveReady (scan.limit candidates.length)
  · have start : TopScores.Holds (scan.adaptiveTopK (scan.limit candidates.length)) ⟨[], none⟩ [] :=
      ⟨List.Subperm.refl _, Nat.zero_le _, fun worst known => by cases known⟩
    obtain ⟨final, held, -, hopeless⟩ := rerankFrom_holds ready start next
    obtain ⟨worst, known, -⟩ := behind _ hopeless one member abandoned
    rw [known] at hopeless
    refine ⟨worst, behind _ hopeless, ?_⟩
    obtain ⟨count, least⟩ := held.least worst known
    have every : final.scores.countP (fun score => decide (worst ≤ score)) =
        final.scores.length := List.countP_eq_length.mpr fun score inside =>
      decide_eq_true (least score inside)
    rw [← count, ← every, keptScores, List.filter_append, List.map_append, List.countP_append]
    exact (held.among.countP_le _).trans (Nat.le_add_right _ _)
  · obtain ⟨worst, known, -⟩ := behind _ (rerankFrom_full ready next) one member abandoned
    cases known

theorem exactHeapRerank_agrees (candidates : List (Candidate ℝ)) :
    Agrees ((scan.withMode .adaptive).exactHeapRerank Real.sqrt candidates)
      ((scan.withMode .topk).exactHeapRerank Real.sqrt candidates) := by
  have limits : (scan.withMode .topk).limit candidates.length =
      (scan.withMode .adaptive).limit candidates.length := by
    simp [limit, exactRerankLimit, withMode]
  rw [exactHeapRerank, exactHeapRerank, limits]
  generalize (scan.withMode .adaptive).limit candidates.length = limit
  have both := (scan.withMode .adaptive).rerankFrom_agrees limit ⟨[], none⟩ ⟨[], none⟩
    (candidates.take limit)
  rcases first : (scan.withMode .adaptive).rerankFrom Real.sqrt limit ⟨[], none⟩
    (candidates.take limit) with error | one <;>
  rcases second : (scan.withMode .topk).rerankFrom Real.sqrt limit ⟨[], none⟩
    (candidates.take limit) with error' | other
  all_goals
    rw [first] at both
    change Agrees _ ((scan.withMode .topk).rerankFrom _ _ _ _) at both
    rw [second] at both
  · exact both
  · exact both.elim
  · exact both.elim
  · exact List.rel_append both (forall_matches_kept _)

def Reaches (worst : ℝ) (key : ℝ ×ₗ Nat ×ₗ Nat ×ₗ Nat) : Prop := (ofLex key).1 ≤ -worst

theorem reaches_lowerPart (worst : ℝ) : TopK.LowerPart (Reaches worst) := by
  intro one other low high
  exact Prod.Lex.lt_iff.mpr (Or.inl (lt_of_le_of_lt low (not_le.mp high)))

theorem matches_pairs {one other : List (Reranked ℝ)} (both : List.Forall₂ Matches one other)
    {worst : ℝ} (hopeless : Hopeless (some worst) one) :
    ∀ pair ∈ one.zip other, TopK.Substituted (Reaches worst) (fun pair => pair.1.abandoned)
      (fun pair => pair.1.candidate.key) (fun pair => pair.2.candidate.key) pair := by
  rintro ⟨first, second⟩ member
  have same : Matches first second := (List.forall₂_iff_zip.mp both).2 member
  replace same := same.2
  rw [TopK.Substituted]
  dsimp only
  split_ifs at same ⊢ with abandoned
  · obtain ⟨level, known, below⟩ := hopeless first (List.of_mem_zip member).1 abandoned
    rw [← Option.some.inj known] at below
    have above : -worst < first.candidate.distance := neg_lt.mp below
    exact ⟨not_le.mpr above, not_le.mpr (above.trans_le same.2)⟩
  · rw [same]

theorem countP_keptScores (reranked : List (Reranked ℝ)) (worst : ℝ) :
    ((keptScores reranked).countP fun score => decide (worst ≤ score)) =
      reranked.countP fun one => !one.abandoned && one.candidate.exactScored &&
        decide (one.candidate.distance ≤ -worst) := by
  rw [keptScores, List.countP_map, List.countP_filter]
  congr 1
  funext one
  simp [le_neg, Bool.and_comm]

theorem candidates_eq {one other : List (Reranked ℝ)} (both : List.Forall₂ Matches one other)
    (none_ : ∀ reranked ∈ one, reranked.abandoned = false) :
    one.map Reranked.candidate = other.map Reranked.candidate := by
  induction both with
  | nil => rfl
  | cons same _ ih =>
    have here := same.2
    rw [if_neg (by simp [none_ _ List.mem_cons_self])] at here
    rw [List.map_cons, List.map_cons, here,
      ih fun reranked member => none_ reranked (List.mem_cons_of_mem _ member)]

theorem best_keys {candidates : List (Candidate ℝ)} {one other : List (Reranked ℝ)}
    (run : scan.exactHeapRerank Real.sqrt candidates = .ok one)
    (both : List.Forall₂ Matches one other) :
    let topK := scan.adaptiveTopK (scan.limit candidates.length)
    TopK.best topK ((one.map Reranked.candidate).map Candidate.key) =
      TopK.best topK ((other.map Reranked.candidate).map Candidate.key) := by
  dsimp only
  by_cases none_ : ∀ reranked ∈ one, reranked.abandoned = false
  · rw [candidates_eq both none_]
  · push Not at none_
    obtain ⟨reranked, member, abandoned⟩ := none_
    obtain ⟨worst, hopeless, many⟩ :=
      scan.exactHeapRerank_level run member (by simpa using abandoned)
    classical
    have lengths := both.length_eq
    have first : (one.zip other).map Prod.fst = one := List.map_fst_zip lengths.le
    have second : (one.zip other).map Prod.snd = other := List.map_snd_zip lengths.ge
    have ones : (one.zip other).map (fun pair => pair.1.candidate.key) =
        (one.map Reranked.candidate).map Candidate.key := by
      conv_rhs => rw [← first, List.map_map, List.map_map]
      rfl
    have others : (one.zip other).map (fun pair => pair.2.candidate.key) =
        (other.map Reranked.candidate).map Candidate.key := by
      conv_rhs => rw [← second, List.map_map, List.map_map]
      rfl
    rw [← ones, ← others]
    apply TopK.best_eq_of_substitutes (reaches_lowerPart worst) (matches_pairs both hopeless)
    rw [countP_keptScores, ← first, List.countP_map] at many
    refine many.trans (List.countP_mono_left fun pair _ kept => ?_)
    simp only [Function.comp_apply, Bool.and_eq_true] at kept
    exact Bool.and_eq_true_iff.mpr ⟨kept.1.1, kept.2⟩

theorem countP_rescored {one other : List (Reranked ℝ)} (both : List.Forall₂ Matches one other) :
    one.countP Reranked.rescored = other.countP Reranked.rescored := by
  induction both with
  | nil => rfl
  | cons same _ ih => rw [List.countP_cons, List.countP_cons, ih, same.1]

theorem abandoned_rescored {one other : List (Reranked ℝ)} (both : List.Forall₂ Matches one other)
    (none_ : one.countP Reranked.rescored = 0) :
    ∀ reranked ∈ one, reranked.abandoned = false := by
  intro reranked member
  obtain ⟨i, inside, rfl⟩ := List.mem_iff_getElem.mp member
  have same := (List.forall₂_iff_get.mp both).2 i inside (both.length_eq ▸ inside)
  by_contra abandoned
  have pair := same.2
  rw [if_pos (by simpa using abandoned)] at pair
  exact List.countP_eq_zero.mp none_ _ member pair.1

theorem finalSort_keys {reranked : List (Reranked ℝ)} (k : Nat)
    (some_ : 0 < reranked.countP Reranked.rescored) :
    ((finalSort reranked).take k).map Candidate.key =
      TopK.best k ((reranked.map Reranked.candidate).map Candidate.key) := by
  rw [List.map_take, TopK.best, ← candidateHeapSort_keys, finalSort]
  split_ifs with sorted
  · rfl
  · have few : reranked.length ≤ 1 := not_lt.mp fun many => sorted ⟨some_, many⟩
    rcases reranked with _ | ⟨one, _ | ⟨other, rest⟩⟩
    · rfl
    · rfl
    · simp at few

/-- **The first results of both modes.** -/
theorem adaptive_topK (candidates : List (Candidate ℝ)) :
    let adaptive := scan.withMode .adaptive
    let topK := adaptive.adaptiveTopK (adaptive.limit candidates.length)
    ((adaptive.delivered Real.sqrt candidates).map fun results =>
        (results.take topK).map Candidate.key) =
      (((scan.withMode .topk).delivered Real.sqrt candidates).map fun results =>
        (results.take topK).map Candidate.key) ∧
    ∀ reranked, adaptive.exactHeapRerank Real.sqrt candidates = .ok reranked →
      ∀ one ∈ reranked, one.abandoned →
        ∃ kept : List (Reranked ℝ), kept.length = topK ∧ kept.Sublist reranked ∧
          ∀ other ∈ kept, other.abandoned = false ∧ other.candidate.exactScored ∧
            other.candidate.distance < one.candidate.distance := by
  dsimp only
  have both := scan.exactHeapRerank_agrees candidates
  constructor
  · rw [delivered, delivered]
    rcases first : (scan.withMode .adaptive).exactHeapRerank Real.sqrt candidates with
      error | one <;>
    rcases second : (scan.withMode .topk).exactHeapRerank Real.sqrt candidates with
      error' | other <;>
    rw [first, second] at both
    · have same : error = error' := both
      rw [same]
    · exact both.elim
    · exact both.elim
    · apply congrArg Except.ok
      rcases Nat.eq_zero_or_pos (one.countP Reranked.rescored) with none_ | some_
      · have same := candidates_eq both (abandoned_rescored both none_)
        have none' := (countP_rescored both).symm.trans none_
        rw [finalSort, finalSort, if_neg (by omega), if_neg (by omega), same]
      · dsimp only
        rw [finalSort_keys _ some_, finalSort_keys _ (countP_rescored both ▸ some_)]
        exact (scan.withMode .adaptive).best_keys first both
  · intro reranked run one member abandoned
    obtain ⟨worst, hopeless, many⟩ :=
      (scan.withMode .adaptive).exactHeapRerank_level run member abandoned
    obtain ⟨level, known, below⟩ := hopeless one member abandoned
    rw [← Option.some.inj known] at below
    rw [countP_keptScores, List.countP_eq_length_filter] at many
    refine ⟨_, List.length_take_of_le many, (List.take_sublist _ _).trans List.filter_sublist, ?_⟩
    intro other inside
    have kept := List.of_mem_filter (List.mem_of_mem_take inside)
    simp only [Bool.and_eq_true, Bool.not_eq_true', decide_eq_true_eq] at kept
    exact ⟨kept.1.1, kept.1.2, kept.2.trans_lt (neg_lt.mp below)⟩

end RerankScan

end TurboHybrid.Rerank
