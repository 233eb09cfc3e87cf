/-
**The answers to a query.**

The exhaustive scorer adds up the postings of the base, the scorer of the delta adds those of the
delta, and the final selection tests which terms a node has. Together they find the documents.

* `IndexState.found`: the live documents that answer a query, each with its score;
* `search_answers`: the search selects the best of them, for every query.
-/
import TurboHybrid.Scan.AndExact

namespace TurboHybrid.Query

/-- What answers a query: any of its positive lexemes where only disjunctions join them, all of them
where only conjunctions do, and otherwise what satisfies the tree. -/
def Tree.answered (tree : Tree) (has : Lexeme → Bool) : Bool :=
  if tree.uses .or && !tree.uses .and then (tree.positives false).any has
  else if tree.uses .and && !tree.uses .or then (tree.positives false).all has
  else tree.holds has

end TurboHybrid.Query

namespace TurboHybrid.Scan

open TurboHybrid.Index TurboHybrid.Query TurboHybrid.Library

variable {R : Type*} [Field R] [LinearOrder R] [IsStrictOrderedRing R]

def hasLexeme (terms : List SearchTerm) (has : SearchTerm → Bool) (lexeme : Lexeme) : Bool :=
  terms.any fun term => term.term.term == lexeme && has term

/-- **The documents that a search finds**: those with a term that answer the query, each with the
sum of its scores in the base and in the delta. -/
def IndexState.found (index : IndexState R) (log : R → R) (ctx : ScanContext R) (tree : Tree)
    (terms : List SearchTerm) : List (NodeScore R) :=
  ((List.range index.docs.nodeCount).filter fun nodeId => terms.any (index.hasTerm nodeId) &&
    tree.answered (hasLexeme terms (index.hasTerm nodeId))).map fun nodeId =>
      ⟨nodeId, (terms.map fun term =>
        termScore log ctx nodeId term + index.deltaScore log nodeId term).sum⟩

variable {log : R → R} {index : IndexState R} {tree : Tree} {terms : List SearchTerm}

/-! ### The test of a mask -/

theorem accepts_gathered (extracted : extractTerms tree.toQuery = .ok (terms.map SearchTerm.term))
    {has : SearchTerm → Bool} (some' : ∃ term ∈ terms, has term = true) :
    queryAccepts tree (terms.map SearchTerm.term)
        (orAll ((terms.filter has).map fun term => term.term.matchBit)) =
      tree.answered (hasLexeme terms has) := by
  obtain ⟨collected, lexemes⟩ := extractTerms_spec extracted
  have matched := gathered_matchedSet collected some'
  have chosen : chosenTerm (terms.map SearchTerm.term)
      (orAll ((terms.filter has).map fun term => term.term.matchBit)) = hasLexeme terms has := by
    funext lexeme
    rw [hasLexeme, Bool.eq_iff_iff, List.any_eq_true]
    constructor
    · intro here
      obtain ⟨query, member, rfl⟩ := List.mem_map.mp (chosenTerm_mem here)
      obtain ⟨term, inTerms, rfl⟩ := List.mem_map.mp member
      obtain ⟨index, inside, rfl⟩ := List.getElem_of_mem inTerms
      rw [chosenTerm_gathered collected has index inside] at here
      exact ⟨_, inTerms, by simp [here]⟩
    · rintro ⟨term, member, both⟩
      obtain ⟨index, inside, rfl⟩ := List.getElem_of_mem member
      rw [Bool.and_eq_true, beq_iff_eq] at both
      rw [← both.1, chosenTerm_gathered collected has index inside, both.2]
  rw [queryAccepts, ← chosen]
  cases or : tree.uses .or <;> cases and : tree.uses .and
  · rw [matchedQuery_unmasked (or.trans and.symm) collected lexemes matched,
      evalTsQuery_tree collected]
    simp [Tree.answered, or, and]
  · rw [matchedQuery_pureAnd and or matched]
    simp only [Tree.answered, or, and, Bool.false_and, Bool.false_eq_true, if_false, Bool.not_false,
      Bool.and_self, if_true]
    rw [Bool.eq_iff_iff, beq_iff_eq, mask_all_iff collected, List.all_eq_true]
    exact forall_congr' fun term => imp_congr_left (lexemes term)
  · obtain ⟨term, member, here⟩ := matchedSet_chosen collected matched
    rw [matchedQuery_pureOr or and matched]
    simp only [Tree.answered, or, and, Bool.not_false, Bool.and_self, if_true]
    exact (List.any_eq_true.mpr ⟨term, (lexemes term).mp member, here⟩).symm
  · rw [matchedQuery_unmasked (or.trans and.symm) collected lexemes matched,
      evalTsQuery_tree collected]
    simp [Tree.answered, or, and]

/-! ### What the scorers add -/

/-- The additions of the base scorer and of the scorer of the delta. -/
def searchAdditions (log : R → R) (index : IndexState R) (ctx : ScanContext R)
    (terms : List SearchTerm) : List (Addition R) :=
  terms.flatMap (termAdditions log ctx) ++
    terms.flatMap (deltaAdditions log index.corpus index.deltaTerms)

theorem mem_searchAdditions {ctx : ScanContext R} (docs : ctx.docs = index.docs) (nodeId bit : Nat) :
    (∃ addition ∈ searchAdditions log index ctx terms,
        addition.nodeId = nodeId ∧ addition.matchBit = bit) ↔
      ∃ term ∈ terms, index.hasTerm nodeId term = true ∧ term.term.matchBit = bit := by
  simp only [searchAdditions, List.mem_append, List.mem_flatMap, termAdditions, deltaAdditions,
    List.mem_map, List.mem_filter, IndexState.hasTerm, Bool.or_eq_true, Bool.and_eq_true,
    termAt_iff, deltaAt_iff, docs]
  constructor
  · rintro ⟨_, ⟨term, member, posting, ⟨inside, live⟩, rfl⟩ | ⟨term, member, posting, inside, rfl⟩,
      rfl, rfl⟩
    · exact ⟨term, member, .inl ⟨live, posting, inside, rfl⟩, rfl⟩
    · exact ⟨term, member, .inr ⟨posting, inside, rfl⟩, rfl⟩
  · rintro ⟨term, member, ⟨live, posting, inside, rfl⟩ | ⟨posting, inside, rfl⟩, rfl⟩
    · exact ⟨_, .inl ⟨term, member, posting, ⟨inside, live⟩, rfl⟩, rfl, rfl⟩
    · exact ⟨_, .inr ⟨term, member, posting, inside, rfl⟩, rfl, rfl⟩

theorem searchAdditions_masks {ctx : ScanContext R} (docs : ctx.docs = index.docs) (nodeId : Nat) :
    orAll ((additionsAt nodeId (searchAdditions log index ctx terms)).map Addition.matchBit) =
      orAll ((terms.filter (index.hasTerm nodeId)).map fun term => term.term.matchBit) := by
  refine orAll_eq_of_mem fun bit => ?_
  simp only [additionsAt, List.mem_map, List.mem_filter, beq_iff_eq, and_assoc]
  exact mem_searchAdditions docs nodeId bit

theorem searchAdditions_scores {ctx : ScanContext R} (docs : ctx.docs = index.docs) {nodeId : Nat}
    (found : ∃ term ∈ terms, index.hasTerm nodeId term = true)
    (apart : ∀ term ∈ terms, index.deltaAt nodeId term = true →
      ∀ other ∈ terms, termAt nodeId other = false) :
    ((additionsAt nodeId (searchAdditions log index ctx terms)).map Addition.score).sum =
      (terms.map fun term => termScore log ctx nodeId term +
        index.deltaScore log nodeId term).sum := by
  rw [searchAdditions, additionsAt, List.filter_append, List.map_append, List.sum_append,
    List.sum_map_add]
  refine congrArg₂ (· + ·) ?_ (deltaAdditions_scores nodeId)
  obtain ⟨term, member, here⟩ := found
  rw [IndexState.hasTerm, Bool.or_eq_true, Bool.and_eq_true] at here
  rcases here with ⟨scorable, -⟩ | inDelta
  · exact additions_scores (docs.symm ▸ scorable)
  · have missing := apart term member inDelta
    have empty : (terms.flatMap (termAdditions log ctx)).filter
        (fun addition => addition.nodeId == nodeId) = [] := by
      refine List.filter_eq_nil_iff.mpr fun addition listed here => ?_
      obtain ⟨other, inTerms, posting, ⟨inside, -⟩, rfl⟩ : ∃ other ∈ terms, ∃ posting,
          (posting ∈ other.postings ∧ ctx.docs.scorable posting.nodeId = true) ∧ _ = addition := by
        simpa only [List.mem_flatMap, termAdditions, List.mem_map, List.mem_filter] using listed
      exact absurd (termAt_iff.mpr ⟨posting, inside, beq_iff_eq.mp here⟩)
        (by rw [missing other inTerms]; exact Bool.false_ne_true)
    rw [empty, List.map_nil, List.sum_nil]
    refine (List.sum_eq_zero fun value listed => ?_).symm
    obtain ⟨other, inTerms, rfl⟩ := List.mem_map.mp listed
    refine termScore_of_missing fun posting inside same => ?_
    exact absurd (termAt_iff.mpr ⟨posting, inside, same⟩)
      (by rw [missing other inTerms]; exact Bool.false_ne_true)

theorem search_added {ctx : ScanContext R} (docs : ctx.docs = index.docs) {fresh : Accumulator R}
    (fits : fresh.Fits index.docs.nodeCount) (blank : fresh.nodeIds = []) :
    Added fresh (searchAdditions log index ctx terms)
      (scoreDelta log index.corpus index.deltaTerms terms
        (scoreBaseExhaustive log ctx terms fresh)) := by
  have base : Added fresh (terms.flatMap (termAdditions log ctx))
      (scoreBaseExhaustive log ctx terms fresh) := by
    rw [scoreBaseExhaustive_eq]
    refine addAll_added fits (blank ▸ List.nodup_nil) fun addition member => ?_
    obtain ⟨term, -, listed⟩ := List.mem_flatMap.mp member
    obtain ⟨posting, kept, rfl⟩ := List.mem_map.mp listed
    exact docs ▸ DocState.scorable_lt (List.mem_filter.mp kept).2
  have fits' : (scoreBaseExhaustive log ctx terms fresh).Fits index.docs.nodeCount := by
    intro bound member
    rw [scoreBaseExhaustive_eq, (addAll_frame _ _).1] at member
    exact fits bound member
  exact base.trans (scoreDelta_added log index.corpus index.deltaTerms fits' base.distinct
    fun term _ posting member => deltaAt_lt (deltaAt_iff.mpr ⟨posting, member, rfl⟩))

/-! ### The search -/

/-- **A search answers the query.** For every index and every query without prefix operands the
exhaustive scorer, the scorer of the delta and the final selection give the best of the live
documents that answer it, in the base and in the delta, each with its whole score. -/
theorem search_answers (log : R → R) (index : IndexState R) {tree : Tree} {queries : List QueryTerm}
    (extracted : extractTerms tree.toQuery = .ok queries) (mode : AccumulatorMode) (capacity : Nat)
    (forceFullSort : Bool) (k : Nat) :
    let terms := queries.map index.resolveTerm
    let ctx := searchContext index.corpus index.docs tree terms k
    selectFinalTopK forceFullSort ctx.accepts k (scoreDelta log index.corpus index.deltaTerms terms
        (scoreBaseExhaustive log ctx terms
          (accumulatorInit mode capacity index.docs.nodeCount k))) =
      TopK.best k (index.found log ctx tree terms) := by
  intro terms ctx
  have queried : queries = terms.map SearchTerm.term := by
    rw [List.map_map]
    exact (List.map_id queries).symm
  rw [queried] at extracted
  have fits := accumulatorInit_fits (R := R) mode capacity index.docs.nodeCount k
  set fresh : Accumulator R := accumulatorInit mode capacity index.docs.nodeCount k
  have blank : fresh.nodeIds = [] := rfl
  have added : Added fresh (searchAdditions log index ctx terms) _ := search_added rfl fits blank
  set final := scoreDelta log index.corpus index.deltaTerms terms
    (scoreBaseExhaustive log ctx terms fresh)
  have touched (nodeId : Nat) :
      nodeId ∈ final.nodeIds ↔ ∃ term ∈ terms, index.hasTerm nodeId term = true := by
    have members := @mem_searchAdditions _ _ _ _ log index terms ctx rfl nodeId
    rw [added.nodeIds, blank]
    simp only [List.not_mem_nil, false_or]
    constructor
    · rintro ⟨addition, listed, here⟩
      obtain ⟨term, member, has, -⟩ := (members _).mp ⟨addition, listed, here, rfl⟩
      exact ⟨term, member, has⟩
    · rintro ⟨term, member, has⟩
      obtain ⟨addition, listed, here, -⟩ := (members _).mpr ⟨term, member, has, rfl⟩
      exact ⟨addition, listed, here⟩
  have inside (nodeId : Nat) (member : nodeId ∈ final.nodeIds) : nodeId < index.docs.nodeCount := by
    obtain ⟨term, -, here⟩ := (touched nodeId).mp member
    rw [IndexState.hasTerm, Bool.or_eq_true, Bool.and_eq_true] at here
    rcases here with ⟨scorable, -⟩ | inDelta
    · exact DocState.scorable_lt scorable
    · exact deltaAt_lt inDelta
  have accepted (nodeId : Nat) (member : nodeId ∈ final.nodeIds) :
      ctx.accepts (final.maskOf nodeId) =
        tree.answered (hasLexeme terms (index.hasTerm nodeId)) := by
    rw [added.masks, maskOf_fresh (blank ▸ List.not_mem_nil), Nat.zero_or,
      searchAdditions_masks rfl]
    exact accepts_gathered extracted ((touched nodeId).mp member)
  have score (nodeId : Nat) (member : nodeId ∈ final.nodeIds) : final.scoreOf nodeId =
      (terms.map fun term =>
        termScore log ctx nodeId term + index.deltaScore log nodeId term).sum := by
    rw [added.scores, scoreOf_fresh (blank ▸ List.not_mem_nil), zero_add]
    exact searchAdditions_scores rfl ((touched nodeId).mp member)
      fun _ _ here _ listed => termAt_of_deltaAt here listed
  rw [selectFinalTopK_eq, matchedEntries_eq added.distinct, IndexState.found]
  have same : (final.nodeIds.filter fun nodeId => ctx.accepts (final.maskOf nodeId)).Perm
      ((List.range index.docs.nodeCount).filter fun nodeId => terms.any (index.hasTerm nodeId) &&
        tree.answered (hasLexeme terms (index.hasTerm nodeId))) := by
    refine (List.perm_ext_iff_of_nodup (added.distinct.filter _)
      (List.nodup_range.filter _)).mpr fun nodeId => ?_
    rw [List.mem_filter, List.mem_filter, List.mem_range, Bool.and_eq_true, List.any_eq_true,
      ← touched]
    constructor
    · rintro ⟨member, here⟩
      exact ⟨inside nodeId member, member, accepted nodeId member ▸ here⟩
    · rintro ⟨-, member, here⟩
      exact ⟨member, (accepted nodeId member).trans here⟩
  refine TopK.best_perm ((List.Perm.of_eq (List.map_congr_left fun nodeId member => ?_)).trans
    (same.map _))
  rw [score nodeId (List.mem_filter.mp member).1]

theorem search_answers_threeDocuments :
    let queries : List QueryTerm := [⟨[98], hashTerm [98], 1, 1⟩, ⟨[97], hashTerm [97], 2, 2⟩]
    let terms := queries.map threeDocuments.resolveTerm
    let ctx := searchContext threeMeta threeDocuments.docs bothTree terms 1
    selectFinalTopK false ctx.accepts 1
        (scoreDelta Real.log threeMeta threeDocuments.deltaTerms terms
          (scoreBaseExhaustive Real.log ctx terms (accumulatorInit .hash 2 3 1))) =
      TopK.best 1 (threeDocuments.found Real.log ctx bothTree terms) :=
  search_answers Real.log threeDocuments (show extractTerms bothTree.toQuery = .ok _ from rfl)
    .hash 2 false 1

end TurboHybrid.Scan
