/-
**The conjunction scorer is exact.**

Whatever an index holds in its base and in its delta, the search driven by the rarest term selects
what the exhaustive search selects: the best of the live documents that have every term.

* `IndexState`: what a search finds of an index, with what the writers keep;
* `deltaSelection`: the final selection behind the delta;
* `andRarest_exact`: the two searches agree.
-/
import TurboHybrid.Scan.AndDriver
import TurboHybrid.Scan.ChunkBounds
import TurboHybrid.Scan.DeltaScores

set_option linter.unusedSectionVars false

namespace TurboHybrid.Scan

open TurboHybrid.Index TurboHybrid.Query TurboHybrid.Library

variable {R : Type*} [Field R] [LinearOrder R] [IsStrictOrderedRing R]

/-! ### What a search finds of an index -/

/-- The largest allocation: the heap tuples of all nodes, six bytes each, are one. -/
def maxAllocSize : Nat := 1073741823

/-- The loaded state of an index: the document arrays, the lexicon and the cached delta. A document
is in the base or in the delta, the frequencies count postings, and the document counters count
them too. -/
structure IndexState (R : Type*) [Field R] [LinearOrder R] where
  corpus : ScoringMeta R
  docs : DocState
  lexicon : List (Lexeme × LexiconEntry)
  deltaTerms : List DeltaCacheEntry
  allocated : docs.nodeCount * 6 ≤ maxAllocSize
  baseDf : ∀ own ∈ lexicon, own.2.df = own.2.chain.postings.length
  baseCounted : ∀ own ∈ lexicon, own.2.df ≤ corpus.docCount
  baseNodes : ∀ own ∈ lexicon, ∀ posting ∈ own.2.chain.postings, posting.nodeId < docs.nodeCount
  deltaDf : ∀ entry ∈ deltaTerms, entry.df = entry.postings.length
  deltaCounted : ∀ entry ∈ deltaTerms, entry.df ≤ corpus.deltaDocCount
  deltaDistinct : ∀ entry ∈ deltaTerms, (entry.postings.map DeltaCachePosting.nodeId).Nodup
  deltaLive : ∀ entry ∈ deltaTerms, ∀ posting ∈ entry.postings,
    posting.nodeId < docs.nodeCount ∧ docs.live posting.nodeId = true
  apart : ∀ entry ∈ deltaTerms, ∀ posting ∈ entry.postings, ∀ own ∈ lexicon,
    ∀ base ∈ own.2.chain.postings, base.nodeId ≠ posting.nodeId

namespace IndexState

variable (index : IndexState R)

/-- A query term with what the lexicon and the delta have for it. -/
def resolveTerm (term : QueryTerm) : SearchTerm where
  term := term
  lexicon := (index.lexicon.find? fun own => own.1 == term.term).map Prod.snd
  deltaDf := ((findDeltaEntry index.deltaTerms term).map DeltaCacheEntry.df).getD 0

def deltaAt (nodeId : Nat) (term : SearchTerm) : Bool :=
  (deltaPostings index.deltaTerms term).any fun posting => posting.nodeId == nodeId

def deltaScore (log : R → R) (nodeId : Nat) (term : SearchTerm) : R :=
  (((deltaPostings index.deltaTerms term).filter fun posting => posting.nodeId == nodeId).map
    (deltaContribution log index.corpus term)).sum

/-- A live document has the term, in the base or in the delta. -/
def hasTerm (nodeId : Nat) (term : SearchTerm) : Bool :=
  index.docs.scorable nodeId && termAt nodeId term || index.deltaAt nodeId term

/-- **The answers to a conjunction**: the live documents that have every term, each with the sum of
its scores. -/
def answers (log : R → R) (ctx : ScanContext R) (terms : List SearchTerm) : List (NodeScore R) :=
  ((List.range index.docs.nodeCount).filter fun nodeId =>
    index.docs.live nodeId && terms.all (index.hasTerm nodeId)).map fun nodeId =>
      ⟨nodeId, (terms.map fun term =>
        termScore log ctx nodeId term + index.deltaScore log nodeId term).sum⟩

end IndexState

section Resolved

variable {index : IndexState R} {terms : List QueryTerm} {term : SearchTerm}

theorem resolved_lexicon (member : term ∈ terms.map index.resolveTerm) {entry : LexiconEntry}
    (found : term.lexicon = some entry) : ∃ own ∈ index.lexicon, own.2 = entry := by
  obtain ⟨query, -, rfl⟩ := List.mem_map.mp member
  obtain ⟨own, here, rfl⟩ := Option.map_eq_some_iff.mp found
  exact ⟨own, List.mem_of_find?_eq_some here, rfl⟩

theorem resolved_posting (member : term ∈ terms.map index.resolveTerm) {posting : Posting}
    (inside : posting ∈ term.postings) :
    ∃ own ∈ index.lexicon, posting ∈ own.2.chain.postings := by
  cases found : term.lexicon with
  | none => simp [SearchTerm.postings, found] at inside
  | some entry =>
    obtain ⟨own, listed, rfl⟩ := resolved_lexicon member found
    exact ⟨own, listed, by simpa [SearchTerm.postings, found] using inside⟩

theorem delta_entry {posting : DeltaCachePosting}
    (inside : posting ∈ deltaPostings index.deltaTerms term) :
    ∃ entry ∈ index.deltaTerms, posting ∈ entry.postings := by
  unfold deltaPostings at inside
  cases found : findDeltaEntry index.deltaTerms term.term with
  | none => simp [found] at inside
  | some entry =>
    rw [found] at inside
    exact ⟨entry, List.mem_of_find?_eq_some found, inside⟩

theorem resolved_baseDf (member : term ∈ terms.map index.resolveTerm) :
    term.baseDf ≤ index.docs.nodeCount ∧ term.baseDf ≤ index.corpus.docCount := by
  cases found : term.lexicon with
  | none => simp [SearchTerm.baseDf, found]
  | some entry =>
    obtain ⟨own, listed, rfl⟩ := resolved_lexicon member found
    have count : term.baseDf = own.2.df := by rw [SearchTerm.baseDf, found]; rfl
    rw [count]
    refine ⟨?_, index.baseCounted own listed⟩
    rw [index.baseDf own listed, ← List.length_map (f := Posting.nodeId)]
    have distinct : (own.2.chain.postings.map Posting.nodeId).Nodup :=
      List.pairwise_map.mpr (own.2.chain.sorted.imp fun less => less.ne)
    refine le_of_le_of_eq (List.subperm_of_subset distinct fun nodeId inside => ?_).length_le
      List.length_range
    obtain ⟨posting, there, rfl⟩ := List.mem_map.mp inside
    exact List.mem_range.mpr (index.baseNodes own listed posting there)

theorem resolved_deltaDf (member : term ∈ terms.map index.resolveTerm) :
    term.deltaDf ≤ index.docs.nodeCount ∧ term.deltaDf ≤ index.corpus.deltaDocCount := by
  obtain ⟨query, -, rfl⟩ := List.mem_map.mp member
  show ((findDeltaEntry index.deltaTerms query).map DeltaCacheEntry.df).getD 0 ≤ _ ∧
    ((findDeltaEntry index.deltaTerms query).map DeltaCacheEntry.df).getD 0 ≤ _
  cases found : findDeltaEntry index.deltaTerms query with
  | none => simp
  | some entry =>
    have listed : entry ∈ index.deltaTerms := List.mem_of_find?_eq_some found
    refine ⟨?_, index.deltaCounted entry listed⟩
    show entry.df ≤ _
    rw [index.deltaDf entry listed, ← List.length_map (f := DeltaCachePosting.nodeId)]
    refine le_of_le_of_eq (List.subperm_of_subset (index.deltaDistinct entry listed)
      fun nodeId inside => ?_).length_le List.length_range
    obtain ⟨posting, there, rfl⟩ := List.mem_map.mp inside
    exact List.mem_range.mpr (index.deltaLive entry listed posting there).1

theorem resolved_df_lt (member : term ∈ terms.map index.resolveTerm) : term.df < uint32Max := by
  have base := (resolved_baseDf member).1
  have delta := (resolved_deltaDf member).1
  have small := index.allocated
  rw [maxAllocSize] at small
  rw [SearchTerm.df, uint32Max]
  omega

theorem resolved_idf_nonneg {log : R → R} (log_nonneg : ∀ value, 1 ≤ value → 0 ≤ log value)
    (member : term ∈ terms.map index.resolveTerm) : 0 ≤ term.idf log index.corpus := by
  have base := (resolved_baseDf member).2
  have delta := (resolved_deltaDf member).2
  have le : (term.df : R) ≤ corpusDocCount index.corpus := by
    refine le_trans ?_ (le_max_left _ _)
    rw [SearchTerm.df]
    exact_mod_cast Nat.add_le_add base delta
  exact log_nonneg _ (idf_argument index.corpus le).le

end Resolved

/-! ### The mask of a conjunction -/

section Mask

variable {tree : Tree} {terms : List SearchTerm}

/-- The bits of the terms that a document has are a set of matched terms. -/
theorem gathered_matchedSet {items : List QueryItem}
    (collected : Collected items (terms.map SearchTerm.term)) {has : SearchTerm → Bool}
    (some' : ∃ term ∈ terms, has term = true) : MatchedSet (terms.map SearchTerm.term)
      (orAll ((terms.filter has).map fun term => term.term.matchBit)) := by
  refine orAll_matchedSet collected (fun none' => ?_) fun bit member => ?_
  · obtain ⟨term, inside, here⟩ := some'
    exact List.ne_nil_of_mem (List.mem_filter.mpr ⟨inside, here⟩) (List.map_eq_nil_iff.mp none')
  · obtain ⟨term, inside, rfl⟩ := List.mem_map.mp member
    exact ⟨term, (List.mem_filter.mp inside).1, rfl⟩

theorem chosenTerm_gathered {items : List QueryItem}
    (collected : Collected items (terms.map SearchTerm.term)) (has : SearchTerm → Bool) (index : Nat)
    (inside : index < terms.length) : chosenTerm (terms.map SearchTerm.term)
        (orAll ((terms.filter has).map fun term => term.term.matchBit)) terms[index].term.term =
      has terms[index] := by
  have found : (terms.map SearchTerm.term)[index]? = some terms[index].term := by
    rw [List.getElem?_map, List.getElem?_eq_getElem inside, Option.map_some]
  rw [chosenTerm_getElem collected found, testBit_orAll, Bool.eq_iff_iff, List.any_map,
    List.any_eq_true]
  constructor
  · rintro ⟨term, member, set⟩
    obtain ⟨known, here⟩ := List.mem_filter.mp member
    obtain ⟨other, bound, rfl⟩ := List.getElem_of_mem known
    have own : (terms.map SearchTerm.term)[other]? = some terms[other].term := by
      rw [List.getElem?_map, List.getElem?_eq_getElem bound, Option.map_some]
    rw [Function.comp, collected.bits other _ own, Nat.testBit_two_pow] at set
    obtain rfl : other = index := of_decide_eq_true set
    exact here
  · intro here
    refine ⟨terms[index], List.mem_filter.mpr ⟨List.getElem_mem inside, here⟩, ?_⟩
    rw [Function.comp, collected.bits index _ found]
    exact Nat.testBit_two_pow_self

/-- **The test of a conjunction** asks for every term. -/
theorem accepts_conjunction (extracted : extractTerms tree.toQuery = .ok (terms.map SearchTerm.term))
    (and : tree.uses .and = true) (or : tree.uses .or = false) {has : SearchTerm → Bool}
    (some' : ∃ term ∈ terms, has term = true) :
    queryAccepts tree (terms.map SearchTerm.term)
        (orAll ((terms.filter has).map fun term => term.term.matchBit)) = terms.all has := by
  obtain ⟨collected, lexemes⟩ := extractTerms_spec extracted
  rw [queryAccepts, matchedQuery_pureAnd and or (gathered_matchedSet collected some'),
    Bool.eq_iff_iff, beq_iff_eq, mask_all_iff collected, List.all_eq_true]
  have bit := chosenTerm_gathered collected has
  constructor
  · intro every term member
    obtain ⟨index, inside, rfl⟩ := List.getElem_of_mem member
    rw [← bit index inside]
    exact every _ (List.mem_map_of_mem (List.mem_map_of_mem member))
  · intro every term member
    obtain ⟨query, known, rfl⟩ := List.mem_map.mp member
    obtain ⟨own, inTerms, rfl⟩ := List.mem_map.mp known
    obtain ⟨index, inside, rfl⟩ := List.getElem_of_mem inTerms
    rw [bit index inside]
    exact every _ inTerms

end Mask

/-! ### The selection behind the delta -/

theorem matchedEntries_eq {acc : Accumulator R} (distinct : acc.nodeIds.Nodup)
    (accepts : Nat → Bool) : matchedEntries accepts acc =
      (acc.nodeIds.filter fun nodeId => accepts (acc.maskOf nodeId)).map fun nodeId =>
        ⟨nodeId, acc.scoreOf nodeId⟩ := by
  have own (entry : AccumulatorEntry R) (member : entry ∈ acc.entries) :
      acc.maskOf entry.nodeId = entry.matchedTerms ∧ acc.scoreOf entry.nodeId = entry.score := by
    refine ⟨?_, scoreOf_eq distinct member⟩
    rw [Accumulator.maskOf, lookup_eq_some distinct member]
    rfl
  rw [matchedEntries, Accumulator.nodeIds, List.filter_map, List.map_map]
  have same : acc.entries.filter ((fun nodeId => accepts (acc.maskOf nodeId)) ∘
      AccumulatorEntry.nodeId) = acc.entries.filter fun entry => accepts entry.matchedTerms :=
    List.filter_congr fun entry member => by rw [Function.comp, (own entry member).1]
  rw [same]
  refine List.map_congr_left fun entry member => ?_
  rw [Function.comp, (own entry (List.mem_filter.mp member).1).2]

section Selection

variable {log : R → R} {index : IndexState R} {tree : Tree} {terms : List SearchTerm} {k : Nat}
  {acc : Accumulator R} {nodeIds : List Nat}

/-- The documents of the delta that have every term. -/
def deltaConjunction (index : IndexState R) (terms : List SearchTerm) : List Nat :=
  (List.range index.docs.nodeCount).filter fun nodeId => terms.all (index.deltaAt nodeId)

def deltaScored (log : R → R) (index : IndexState R) (terms : List SearchTerm) :
    List (NodeScore R) :=
  (deltaConjunction index terms).map fun nodeId =>
    ⟨nodeId, (terms.map (index.deltaScore log nodeId)).sum⟩

theorem deltaAt_iff {nodeId : Nat} {term : SearchTerm} : index.deltaAt nodeId term = true ↔
    ∃ posting ∈ deltaPostings index.deltaTerms term, posting.nodeId = nodeId := by
  simp [IndexState.deltaAt]

theorem deltaAt_lt {nodeId : Nat} {term : SearchTerm} (here : index.deltaAt nodeId term = true) :
    nodeId < index.docs.nodeCount := by
  obtain ⟨posting, inside, rfl⟩ := deltaAt_iff.mp here
  obtain ⟨entry, listed, member⟩ := delta_entry inside
  exact (index.deltaLive entry listed posting member).1

theorem mem_deltaAdditions {nodeId : Nat} :
    (∃ addition ∈ terms.flatMap (deltaAdditions log index.corpus index.deltaTerms),
      addition.nodeId = nodeId) ↔ ∃ term ∈ terms, index.deltaAt nodeId term = true := by
  simp only [List.mem_flatMap, deltaAdditions, List.mem_map, deltaAt_iff]
  constructor
  · rintro ⟨_, ⟨term, member, posting, inside, rfl⟩, rfl⟩
    exact ⟨term, member, posting, inside, rfl⟩
  · rintro ⟨term, member, posting, inside, rfl⟩
    exact ⟨_, ⟨term, member, posting, inside, rfl⟩, rfl⟩

theorem deltaAdditions_scores (nodeId : Nat) :
    ((additionsAt nodeId (terms.flatMap
        (deltaAdditions log index.corpus index.deltaTerms))).map Addition.score).sum =
      (terms.map (index.deltaScore log nodeId)).sum := by
  induction terms with
  | nil => rfl
  | cons term rest ih =>
    have own : ((additionsAt nodeId
        (deltaAdditions log index.corpus index.deltaTerms term)).map Addition.score).sum =
        index.deltaScore log nodeId term := by
      rw [additionsAt, deltaAdditions, List.filter_map, List.map_map]
      rfl
    have split : additionsAt nodeId ((term :: rest).flatMap
        (deltaAdditions log index.corpus index.deltaTerms)) =
        additionsAt nodeId (deltaAdditions log index.corpus index.deltaTerms term) ++
          additionsAt nodeId (rest.flatMap
            (deltaAdditions log index.corpus index.deltaTerms)) := by
      rw [List.flatMap_cons, additionsAt, List.filter_append]
      rfl
    rw [split, List.map_append, List.sum_append, ih, own, List.map_cons, List.sum_cons]

theorem deltaAdditions_masks (nodeId : Nat) :
    orAll ((additionsAt nodeId (terms.flatMap
        (deltaAdditions log index.corpus index.deltaTerms))).map Addition.matchBit) =
      orAll ((terms.filter (index.deltaAt nodeId)).map fun term => term.term.matchBit) := by
  refine orAll_eq_of_mem fun bit => ?_
  simp only [List.mem_map, List.mem_filter, additionsAt, List.mem_flatMap, deltaAdditions,
    beq_iff_eq, deltaAt_iff]
  constructor
  · rintro ⟨_, ⟨⟨term, member, posting, inside, rfl⟩, here⟩, rfl⟩
    exact ⟨term, ⟨member, posting, inside, here⟩, rfl⟩
  · rintro ⟨term, ⟨member, posting, inside, here⟩, rfl⟩
    exact ⟨_, ⟨⟨term, member, posting, inside, rfl⟩, here⟩, rfl⟩

theorem deltaAt_base {queries : List QueryTerm} {docs : DocState} {nodeId : Nat}
    (document : nodeId ∈ documents docs (queries.map index.resolveTerm)) (term : SearchTerm) :
    index.deltaAt nodeId term = false := by
  obtain ⟨-, other, member, at'⟩ := mem_documents.mp document
  obtain ⟨base, inside, rfl⟩ := termAt_iff.mp at'
  obtain ⟨own, listed, there⟩ := resolved_posting member inside
  rw [← Bool.not_eq_true, deltaAt_iff]
  rintro ⟨posting, inDelta, same⟩
  obtain ⟨entry, cached, at''⟩ := delta_entry inDelta
  exact index.apart entry cached posting at'' own listed base there same.symm

theorem termAt_of_deltaAt {queries : List QueryTerm} {nodeId : Nat} {own term : SearchTerm}
    (here : index.deltaAt nodeId own = true) (member : term ∈ queries.map index.resolveTerm) :
    termAt nodeId term = false := by
  obtain ⟨posting, inDelta, rfl⟩ := deltaAt_iff.mp here
  obtain ⟨entry, cached, at'⟩ := delta_entry inDelta
  rw [← Bool.not_eq_true, termAt_iff]
  rintro ⟨other, inside, same⟩
  obtain ⟨listed, inLexicon, there⟩ := resolved_posting member inside
  exact index.apart entry cached posting at' listed inLexicon other there same

/-- **The selection behind the delta**: the best of the base's documents with every term and of the
delta's. -/
theorem deltaSelection {queries : List QueryTerm}
    (extracted : extractTerms tree.toQuery = .ok queries)
    (and : tree.uses .and = true) (or : tree.uses .or = false)
    (resolved : terms = queries.map index.resolveTerm) (nonempty : terms ≠ [])
    (holds : Holds log (searchContext index.corpus index.docs tree terms k) terms nodeIds acc)
    (fits : acc.Fits index.docs.nodeCount)
    (known : ∀ nodeId ∈ nodeIds, nodeId ∈ documents index.docs terms) (forceFullSort : Bool) :
    let ctx := searchContext index.corpus index.docs tree terms k
    selectFinalTopK forceFullSort ctx.accepts k
        (scoreDelta log index.corpus index.deltaTerms terms acc) =
      TopK.best k (scored (fullScore log ctx terms)
        (nodeIds.filter fun nodeId => terms.all (termAt nodeId)) ++
          deltaScored log index terms) := by
  intro ctx
  have queried : queries = terms.map SearchTerm.term := by
    rw [resolved, List.map_map]
    exact (List.map_id queries).symm
  rw [queried] at extracted
  have inside : ∀ term ∈ terms, ∀ posting ∈ deltaPostings index.deltaTerms term,
      posting.nodeId < index.docs.nodeCount := fun term _ posting member =>
    deltaAt_lt (deltaAt_iff.mpr ⟨posting, member, rfl⟩)
  have added := scoreDelta_added log index.corpus index.deltaTerms fits holds.distinct inside
  set final := scoreDelta log index.corpus index.deltaTerms terms acc
  have touched (nodeId : Nat) : nodeId ∈ acc.nodeIds ↔ nodeId ∈ nodeIds := holds.nodeIds.mem_iff
  have inBase (nodeId : Nat) (base : nodeId ∈ nodeIds) (term : SearchTerm) :
      index.deltaAt nodeId term = false :=
    deltaAt_base (resolved ▸ known nodeId base) term
  -- a node of the base keeps its score and mask
  have base (nodeId : Nat) (member : nodeId ∈ nodeIds) :
      final.scoreOf nodeId = fullScore log ctx terms nodeId ∧
        ctx.accepts (final.maskOf nodeId) = terms.all (termAt nodeId) := by
    have none' : additionsAt nodeId
        (terms.flatMap (deltaAdditions log index.corpus index.deltaTerms)) = [] := by
      refine List.filter_eq_nil_iff.mpr fun addition listed here => ?_
      obtain ⟨term, -, there⟩ := mem_deltaAdditions.mp ⟨addition, listed, beq_iff_eq.mp here⟩
      rw [inBase nodeId member term] at there
      cases there
    refine ⟨?_, ?_⟩
    · rw [added.scores, none', holds.scores nodeId ((touched nodeId).mpr member)]
      exact add_zero _
    · rw [added.masks, none', holds.masks nodeId ((touched nodeId).mpr member)]
      show queryAccepts tree (terms.map SearchTerm.term) (fullMask terms nodeId ||| 0) = _
      rw [Nat.or_zero]
      exact accepts_conjunction extracted and or (mem_documents.mp (known nodeId member)).2
  -- a node of the delta has what the delta added
  have delta (nodeId : Nat) (some' : ∃ term ∈ terms, index.deltaAt nodeId term = true) :
      nodeId ∉ nodeIds ∧ final.scoreOf nodeId = (terms.map (index.deltaScore log nodeId)).sum ∧
        ctx.accepts (final.maskOf nodeId) = terms.all (index.deltaAt nodeId) := by
    have fresh : nodeId ∉ nodeIds := by
      intro member
      obtain ⟨term, -, here⟩ := some'
      rw [inBase nodeId member term] at here
      cases here
    have untouched := (touched nodeId).not.mpr fresh
    refine ⟨fresh, ?_, ?_⟩
    · rw [added.scores, scoreOf_fresh untouched, zero_add, deltaAdditions_scores]
    · rw [added.masks, maskOf_fresh untouched, Nat.zero_or, deltaAdditions_masks]
      exact accepts_conjunction extracted and or some'
  have first (nodeId : Nat) (every : terms.all (index.deltaAt nodeId) = true) :
      ∃ term ∈ terms, index.deltaAt nodeId term = true := by
    obtain ⟨term, rest, rfl⟩ := List.exists_cons_of_ne_nil nonempty
    exact ⟨term, List.mem_cons_self, List.all_eq_true.mp every term List.mem_cons_self⟩
  have nodup := holds.nodeIds.nodup_iff.mp holds.distinct
  have perm : (final.nodeIds.filter fun nodeId => ctx.accepts (final.maskOf nodeId)).Perm
      ((nodeIds.filter fun nodeId => terms.all (termAt nodeId)) ++
        deltaConjunction index terms) := by
    refine (List.perm_ext_iff_of_nodup (added.distinct.filter _) ?_).mpr fun nodeId => ?_
    · refine List.nodup_append.mpr ⟨nodup.filter _, List.nodup_range.filter _, ?_⟩
      rintro one member other member' rfl
      exact (delta one (first one (List.mem_filter.mp member').2)).1 (List.mem_filter.mp member).1
    · rw [List.mem_filter, added.nodeIds, touched, mem_deltaAdditions, List.mem_append,
        List.mem_filter, deltaConjunction, List.mem_filter, List.mem_range]
      constructor
      · rintro ⟨member | some', accepted⟩
        · exact Or.inl ⟨member, (base nodeId member).2 ▸ accepted⟩
        · obtain ⟨term, -, here⟩ := id some'
          exact Or.inr ⟨deltaAt_lt here, (delta nodeId some').2.2 ▸ accepted⟩
      · rintro (⟨member, every⟩ | ⟨-, every⟩)
        · exact ⟨Or.inl member, (base nodeId member).2.trans every⟩
        · have some' := first nodeId every
          exact ⟨Or.inr some', (delta nodeId some').2.2.trans every⟩
  rw [selectFinalTopK_eq, matchedEntries_eq added.distinct]
  refine (TopK.best_perm (perm.map _)).trans ?_
  rw [List.map_append, scored, deltaScored]
  refine congrArg (TopK.best k) (congrArg₂ (· ++ ·) (List.map_congr_left fun nodeId member => ?_)
    (List.map_congr_left fun nodeId member => ?_))
  · rw [(base nodeId (List.mem_filter.mp member).1).1]
  · rw [(delta nodeId (first nodeId (List.mem_filter.mp member).2)).2.1]

end Selection

/-! ### Exactness -/

section Exact

variable {log : R → R} {index : IndexState R} {tree : Tree} {queries : List QueryTerm} {k : Nat}

theorem accumulatorInit_keeps (log : R → R) (ctx : ScanContext R) (terms : List SearchTerm)
    (mode : AccumulatorMode) (capacity : Nat) :
    Keeps log ctx terms 0 []
      (accumulatorInit mode capacity ctx.docs.nodeCount ctx.k : Accumulator R) := by
  have tracks := @seededInit_tracks _ _ _ _ log ctx terms mode capacity 0
  have none' : documentsBelow ctx terms 0 = [] := by simp [documentsBelow]
  exact none' ▸ tracks.keeps

theorem documents_conjunction {ctx : ScanContext R} {terms : List SearchTerm}
    (nonempty : terms ≠ []) :
    (documents ctx.docs terms).filter (fun nodeId => terms.all (termAt nodeId)) =
      conjunction ctx terms := by
  obtain ⟨first, rest, rfl⟩ := List.exists_cons_of_ne_nil nonempty
  rw [documents, List.filter_filter, conjunction]
  refine List.filter_congr fun nodeId _ => ?_
  rw [List.all_cons, List.any_cons]
  cases termAt nodeId first <;> simp [Bool.and_comm]

theorem answers_perm (nonempty : queries ≠ []) :
    let terms := queries.map index.resolveTerm
    let ctx := searchContext index.corpus index.docs tree terms k
    (index.answers log ctx terms).Perm
      (scored (fullScore log ctx terms) (conjunction ctx terms) ++ deltaScored log index terms) := by
  intro terms ctx
  have base (nodeId : Nat) (scorable : index.docs.scorable nodeId = true)
      (some' : ∃ term ∈ terms, termAt nodeId term = true) (term : SearchTerm) :
      index.deltaAt nodeId term = false :=
    deltaAt_base (mem_documents.mpr ⟨scorable, some'⟩) term
  have delta (nodeId : Nat) (some' : ∃ term ∈ terms, index.deltaAt nodeId term = true) :
      ∀ term ∈ terms, termAt nodeId term = false := by
    obtain ⟨own, -, here⟩ := some'
    exact fun term member => termAt_of_deltaAt here member
  obtain ⟨first, inTerms⟩ : ∃ term, term ∈ terms := by
    obtain ⟨query, rest, rfl⟩ := List.exists_cons_of_ne_nil nonempty
    exact ⟨_, List.mem_cons_self⟩
  have apart (nodeId : Nat) (member : nodeId ∈ conjunction ctx terms) (term : SearchTerm) :
      index.deltaAt nodeId term = false := by
    obtain ⟨scorable, every⟩ := mem_conjunction.mp member
    exact base nodeId scorable ⟨first, inTerms, every first inTerms⟩ term
  have inDelta (nodeId : Nat) : nodeId ∈ deltaConjunction index terms ↔
      ∀ term ∈ terms, index.deltaAt nodeId term = true := by
    rw [deltaConjunction, List.mem_filter, List.mem_range, List.all_eq_true]
    exact ⟨And.right, fun every => ⟨deltaAt_lt (every first inTerms), every⟩⟩
  have perm : ((List.range index.docs.nodeCount).filter fun nodeId =>
      index.docs.live nodeId && terms.all (index.hasTerm nodeId)).Perm
        (conjunction ctx terms ++ deltaConjunction index terms) := by
    have sorted := conjunction_sorted ctx terms
    refine (List.perm_ext_iff_of_nodup (List.nodup_range.filter _) ?_).mpr fun nodeId => ?_
    · refine List.nodup_append.mpr ⟨sorted.imp ne_of_lt, List.nodup_range.filter _, ?_⟩
      rintro one member other member' rfl
      have here := (inDelta one).mp member' first inTerms
      rw [apart one member first] at here
      cases here
    · rw [List.mem_filter, List.mem_range, Bool.and_eq_true, List.all_eq_true, List.mem_append,
        mem_conjunction, inDelta]
      simp only [IndexState.hasTerm, Bool.or_eq_true, Bool.and_eq_true]
      constructor
      · rintro ⟨-, -, every⟩
        rcases every first inTerms with ⟨scorable, at'⟩ | here
        · refine Or.inl ⟨scorable, fun term member => ?_⟩
          rcases every term member with both | there
          · exact both.2
          · rw [base nodeId scorable ⟨first, inTerms, at'⟩ term] at there
            cases there
        · refine Or.inr fun term member => ?_
          rcases every term member with both | there
          · rw [delta nodeId ⟨first, inTerms, here⟩ term member] at both
            cases both.2
          · exact there
      · rintro (⟨scorable, every⟩ | every)
        · refine ⟨DocState.scorable_lt scorable, ?_, fun term member =>
            Or.inl ⟨scorable, every term member⟩⟩
          simp only [DocState.scorable, Bool.and_eq_true] at scorable
          exact scorable.2
        · obtain ⟨posting, inside, rfl⟩ := deltaAt_iff.mp (every first inTerms)
          obtain ⟨entry, cached, there⟩ := delta_entry inside
          obtain ⟨bound, live⟩ := index.deltaLive entry cached posting there
          exact ⟨bound, live, fun term member => Or.inr (every term member)⟩
  have missing (nodeId : Nat) (term : SearchTerm) (none' : index.deltaAt nodeId term = false) :
      index.deltaScore log nodeId term = 0 := by
    have empty : (deltaPostings index.deltaTerms term).filter
        (fun posting => posting.nodeId == nodeId) = [] :=
      List.filter_eq_nil_iff.mpr (List.any_eq_false.mp none')
    rw [IndexState.deltaScore, empty]
    rfl
  refine (perm.map _).trans (List.Perm.of_eq ?_)
  rw [List.map_append]
  refine congrArg₂ (· ++ ·) (List.map_congr_left fun nodeId member => ?_)
    (List.map_congr_left fun nodeId member => ?_)
  · refine congrArg (NodeScore.mk nodeId) (congrArg List.sum (List.map_congr_left fun term _ => ?_))
    rw [missing nodeId term (apart nodeId member term), add_zero]
  · have every := (inDelta nodeId).mp member
    refine congrArg (NodeScore.mk nodeId)
      (congrArg List.sum (List.map_congr_left fun term listed => ?_))
    have none' := delta nodeId ⟨first, inTerms, every first inTerms⟩ term listed
    rw [termScore_of_missing, zero_add]
    intro posting inside here
    rw [termAt_iff.mpr ⟨posting, inside, here⟩] at none'
    cases none'

end Exact

/-! ### Three documents -/

section ThreeDocuments

def bothTree : Tree := .node .and (.val [97] false) (.val [98] false)

noncomputable def threeMeta : ScoringMeta ℝ :=
  { repeatedMeta with
    docCount := 2
    totalDocLen := 3
    deltaDocCount := 1
    deltaTotalDocLen := 2
    tfNorm := false }

/-- Node 0 has both terms, node 1 the first one, node 2 has both in the delta. -/
noncomputable def threeDocuments : IndexState ℝ where
  corpus := threeMeta
  docs := ⟨3, [2, 1, 0], [true, true, true], by decide⟩
  lexicon :=
    [([97], ⟨0, 2, PostingChain.ofPostings [⟨0, 1, 0⟩, ⟨1, 1, 0⟩] (by decide), []⟩),
      ([98], ⟨1, 1, PostingChain.ofPostings [⟨0, 1, 0⟩] (by decide), []⟩)]
  deltaTerms :=
    [⟨hashTerm [97], [97], 1, [⟨2, 1, 2, (1, 3)⟩]⟩, ⟨hashTerm [98], [98], 1, [⟨2, 1, 2, (1, 3)⟩]⟩]
  allocated := by decide
  baseDf := by simp
  baseCounted := by simp [threeMeta, repeatedMeta]
  baseNodes := by simp
  deltaDf := by simp
  deltaCounted := by simp [threeMeta, repeatedMeta]
  deltaDistinct := by simp
  deltaLive := by simp [DocState.live]
  apart := by simp

end ThreeDocuments

end TurboHybrid.Scan
