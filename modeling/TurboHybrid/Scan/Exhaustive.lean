/-
**The exhaustive scorer and the full score of a document.**

* `documents`: the scorable nodes with a posting of some term, in node order;
* `fullScore`, `fullMask`: a node's score and matched terms over all postings of all terms;
* `exhaustive_holds`: the exhaustive scorer leaves exactly the documents, each with both;
* `Holds.selection`: its final selection is the best of the fully scored documents.
-/
import TurboHybrid.Scan.Wand

set_option linter.unusedSectionVars false

namespace TurboHybrid.Scan

open TurboHybrid.Index TurboHybrid.Query TurboHybrid.Library

variable {R : Type*} [Field R] [LinearOrder R] [IsStrictOrderedRing R]

/-! ### The scorer -/

def postingContribution (log : R → R) (ctx : ScanContext R) (term : SearchTerm)
    (posting : Posting) : R :=
  postingScoreDecoded ctx.corpus (term.idf log ctx.corpus) (avgDocLen ctx.corpus) posting
    (ctx.docs.docLen posting.nodeId)

/-- Add the live postings of one term, chunk by chunk. -/
def scoreTermPostings (log : R → R) (ctx : ScanContext R) (term : SearchTerm)
    (acc : Accumulator R) : Accumulator R :=
  (term.chunks ctx.corpus).foldl (fun acc chunk =>
    chunk.postings.foldl (fun acc posting =>
      if ctx.docs.scorable posting.nodeId then
        addTermScore acc posting.nodeId (postingContribution log ctx term posting)
          term.term.matchBit
      else acc) acc) acc

def scoreBaseExhaustive (log : R → R) (ctx : ScanContext R) (terms : List SearchTerm)
    (acc : Accumulator R) : Accumulator R :=
  terms.foldl (fun acc term => scoreTermPostings log ctx term acc) acc

/-! ### Full scores -/

def orAll (bits : List Nat) : Nat := bits.foldl (· ||| ·) 0

def postingsAt (nodeId : Nat) (term : SearchTerm) : List Posting :=
  term.postings.filter fun posting => posting.nodeId == nodeId

def termScore (log : R → R) (ctx : ScanContext R) (nodeId : Nat) (term : SearchTerm) : R :=
  ((postingsAt nodeId term).map (postingContribution log ctx term)).sum

def fullScore (log : R → R) (ctx : ScanContext R) (terms : List SearchTerm) (nodeId : Nat) : R :=
  (terms.map (termScore log ctx nodeId)).sum

def termAt (nodeId : Nat) (term : SearchTerm) : Bool :=
  term.postings.any fun posting => posting.nodeId == nodeId

def fullMask (terms : List SearchTerm) (nodeId : Nat) : Nat :=
  orAll ((terms.filter (termAt nodeId)).map fun term => term.term.matchBit)

/-- The scorable nodes with a posting of some term, in node order. -/
def documents (docs : DocState) (terms : List SearchTerm) : List Nat :=
  (List.range docs.nodeCount).filter fun nodeId =>
    docs.scorable nodeId && terms.any (termAt nodeId)

def scoredNodes (log : R → R) (ctx : ScanContext R) (terms : List SearchTerm) (nodeIds : List Nat) :
    List (NodeScore R) :=
  nodeIds.map fun nodeId => ⟨nodeId, fullScore log ctx terms nodeId⟩

/-! ### Masks -/

theorem testBit_orAll (bits : List Nat) (index : Nat) :
    (orAll bits).testBit index = bits.any fun bit => bit.testBit index := by
  have gathered (mask : Nat) : (bits.foldl (· ||| ·) mask).testBit index =
      (mask.testBit index || bits.any fun bit => bit.testBit index) := by
    induction bits generalizing mask with
    | nil => simp
    | cons head rest ih => simp [ih, Bool.or_assoc]
  simpa [orAll] using gathered 0

theorem orAll_eq_of_mem {bits bits' : List Nat} (same : ∀ bit, bit ∈ bits ↔ bit ∈ bits') :
    orAll bits = orAll bits' := by
  refine Nat.eq_of_testBit_eq fun index => ?_
  rw [testBit_orAll, testBit_orAll, Bool.eq_iff_iff, List.any_eq_true, List.any_eq_true]
  simp only [same]

theorem orAll_cons (bit : Nat) (bits : List Nat) : orAll (bit :: bits) = bit ||| orAll bits := by
  refine Nat.eq_of_testBit_eq fun index => ?_
  simp [testBit_orAll]

theorem orAll_append (bits bits' : List Nat) : orAll (bits ++ bits') = orAll bits ||| orAll bits' := by
  refine Nat.eq_of_testBit_eq fun index => ?_
  simp [testBit_orAll]

/-! ### Streams of additions -/

structure Addition (R : Type*) where
  nodeId : Nat
  score : R
  matchBit : Nat

def addAll (acc : Accumulator R) (additions : List (Addition R)) : Accumulator R :=
  additions.foldl (fun acc addition =>
    addTermScore acc addition.nodeId addition.score addition.matchBit) acc

def Accumulator.maskOf (acc : Accumulator R) (nodeId : Nat) : Nat :=
  ((acc.lookup nodeId).map AccumulatorEntry.matchedTerms).getD 0

def additionsAt (nodeId : Nat) (additions : List (Addition R)) : List (Addition R) :=
  additions.filter fun addition => addition.nodeId == nodeId

section AddTermScore

variable {acc : Accumulator R} {nodeCount nodeId : Nat}

theorem addTermScore_entries (fits : acc.Fits nodeCount) (inside : nodeId < nodeCount) (score : R)
    (matchBit : Nat) : (addTermScore acc nodeId score matchBit).entries =
      (touchEntry acc nodeId (addScore score matchBit)).entries :=
  accumulatorUpdate_entries fits inside _

theorem lookup_congr {one other : Accumulator R} (same : one.entries = other.entries)
    (nodeId : Nat) : one.lookup nodeId = other.lookup nodeId := by
  rw [Accumulator.lookup, same, Accumulator.lookup]

theorem mem_addTermScore_nodeIds (fits : acc.Fits nodeCount) (inside : nodeId < nodeCount) (score : R)
    (matchBit : Nat) {other : Nat} : other ∈ (addTermScore acc nodeId score matchBit).nodeIds ↔
      other = nodeId ∨ other ∈ acc.nodeIds := by
  rw [Accumulator.nodeIds, addTermScore_entries fits inside]
  exact mem_touchEntry_nodeIds (addScore_nodeId score matchBit)

theorem addTermScore_distinct (fits : acc.Fits nodeCount) (inside : nodeId < nodeCount)
    (distinct : acc.nodeIds.Nodup) (score : R) (matchBit : Nat) :
    (addTermScore acc nodeId score matchBit).nodeIds.Nodup := by
  rw [Accumulator.nodeIds, addTermScore_entries fits inside]
  exact touchEntry_distinct (addScore_nodeId score matchBit) distinct

theorem addTermScore_lookup (fits : acc.Fits nodeCount) (inside : nodeId < nodeCount) (score : R)
    (matchBit other : Nat) : (addTermScore acc nodeId score matchBit).lookup other =
      if other = nodeId then
        some (addScore score matchBit ((acc.lookup nodeId).getD (newEntry nodeId)))
      else acc.lookup other := by
  rw [lookup_congr (addTermScore_entries fits inside score matchBit)]
  split_ifs with here
  · rw [here]
    exact touchEntry_lookup_self (addScore_nodeId score matchBit)
  · exact touchEntry_lookup_other (addScore_nodeId score matchBit) here

theorem addTermScore_scoreOf (fits : acc.Fits nodeCount) (inside : nodeId < nodeCount) (score : R)
    (matchBit other : Nat) : (addTermScore acc nodeId score matchBit).scoreOf other =
      acc.scoreOf other + if nodeId = other then score else 0 := by
  rw [Accumulator.scoreOf, addTermScore_lookup fits inside, Accumulator.scoreOf]
  by_cases here : other = nodeId
  · subst here
    cases acc.lookup other <;> simp [addScore, newEntry]
  · simp [here, Ne.symm here]

theorem addTermScore_maskOf (fits : acc.Fits nodeCount) (inside : nodeId < nodeCount) (score : R)
    (matchBit other : Nat) : (addTermScore acc nodeId score matchBit).maskOf other =
      acc.maskOf other ||| if nodeId = other then matchBit else 0 := by
  rw [Accumulator.maskOf, addTermScore_lookup fits inside, Accumulator.maskOf]
  by_cases here : other = nodeId
  · subst here
    cases acc.lookup other <;> simp [addScore, newEntry]
  · simp [here, Ne.symm here]

theorem addTermScore_fits (fits : acc.Fits nodeCount) (score : R) (matchBit : Nat) :
    (addTermScore acc nodeId score matchBit).Fits nodeCount := by
  intro capacity member
  rw [addTermScore, accumulatorUpdate_denseCapacity] at member
  exact fits capacity member

end AddTermScore

structure Added (acc : Accumulator R) (additions : List (Addition R)) (final : Accumulator R) :
    Prop where
  distinct : final.nodeIds.Nodup
  nodeIds : ∀ nodeId, nodeId ∈ final.nodeIds ↔
    nodeId ∈ acc.nodeIds ∨ ∃ addition ∈ additions, addition.nodeId = nodeId
  scores : ∀ nodeId, final.scoreOf nodeId =
    acc.scoreOf nodeId + ((additionsAt nodeId additions).map Addition.score).sum
  masks : ∀ nodeId, final.maskOf nodeId =
    acc.maskOf nodeId ||| orAll ((additionsAt nodeId additions).map Addition.matchBit)

/-- **A stream of additions** sums the scores and joins the bits of each node. -/
theorem addAll_added {acc : Accumulator R} {nodeCount : Nat} (fits : acc.Fits nodeCount)
    (distinct : acc.nodeIds.Nodup) {additions : List (Addition R)}
    (inside : ∀ addition ∈ additions, addition.nodeId < nodeCount) :
    Added acc additions (addAll acc additions) := by
  induction additions generalizing acc with
  | nil => exact ⟨distinct, by simp [addAll], by simp [addAll, additionsAt],
      by simp [addAll, additionsAt, orAll]⟩
  | cons head rest ih =>
    have here := inside head List.mem_cons_self
    obtain ⟨distinct', nodeIds, scores, masks⟩ := ih
      (addTermScore_fits fits head.score head.matchBit)
      (addTermScore_distinct fits here distinct head.score head.matchBit)
      fun addition member => inside addition (List.mem_cons_of_mem _ member)
    refine ⟨distinct', fun nodeId => ?_, fun nodeId => ?_, fun nodeId => ?_⟩
    · rw [addAll, List.foldl_cons]
      refine (nodeIds nodeId).trans ?_
      rw [mem_addTermScore_nodeIds fits here, List.exists_mem_cons_iff, eq_comm (a := nodeId)]
      tauto
    · rw [addAll, List.foldl_cons]
      refine (scores nodeId).trans ?_
      rw [addTermScore_scoreOf fits here, add_assoc, additionsAt, additionsAt, List.filter_cons]
      by_cases same : head.nodeId = nodeId <;> simp [same]
    · rw [addAll, List.foldl_cons]
      refine (masks nodeId).trans ?_
      rw [addTermScore_maskOf fits here, Nat.or_assoc, additionsAt, additionsAt, List.filter_cons]
      by_cases same : head.nodeId = nodeId <;> simp [same, orAll_cons]

theorem addAll_frame (acc : Accumulator R) (additions : List (Addition R)) :
    (addAll acc additions).denseCapacity = acc.denseCapacity ∧
      (addAll acc additions).topHeapCapacity = acc.topHeapCapacity ∧
      (addAll acc additions).seedThreshold = acc.seedThreshold := by
  induction additions generalizing acc with
  | nil => exact ⟨rfl, rfl, rfl⟩
  | cons head rest ih =>
    obtain ⟨dense, capacity, seed⟩ := ih (addTermScore acc head.nodeId head.score head.matchBit)
    refine ⟨dense.trans ?_, capacity.trans ?_, seed.trans ?_⟩ <;> simp [addTermScore]

theorem maskOf_fresh {acc : Accumulator R} {nodeId : Nat} (fresh : nodeId ∉ acc.nodeIds) :
    acc.maskOf nodeId = 0 := by
  have none : acc.lookup nodeId = none := by simpa using lookup_isSome.not.mpr fresh
  rw [Accumulator.maskOf, none]
  rfl

theorem scoreOf_fresh {acc : Accumulator R} {nodeId : Nat} (fresh : nodeId ∉ acc.nodeIds) :
    acc.scoreOf nodeId = 0 := by
  have none : acc.lookup nodeId = none := by simpa using lookup_isSome.not.mpr fresh
  rw [Accumulator.scoreOf, none]
  rfl

/-! ### The exhaustive scorer as a stream -/

def termAdditions (log : R → R) (ctx : ScanContext R) (term : SearchTerm) : List (Addition R) :=
  (term.postings.filter fun posting => ctx.docs.scorable posting.nodeId).map fun posting =>
    ⟨posting.nodeId, postingContribution log ctx term posting, term.term.matchBit⟩

theorem chunks_postings (corpus : ScoringMeta R) (term : SearchTerm) :
    (term.chunks corpus).flatMap Chunk.postings = term.postings := by
  have whole : Chunk.postings ∘ writePostingsChunk corpus = id := rfl
  cases found : term.lexicon with
  | none => simp [SearchTerm.chunks, SearchTerm.postings, found]
  | some entry =>
    simp [SearchTerm.chunks, SearchTerm.postings, found, PostingChain.chunks, List.flatMap_def,
      PostingChain.postings, whole]

theorem scoreTermPostings_eq (log : R → R) (ctx : ScanContext R) (term : SearchTerm)
    (acc : Accumulator R) :
    scoreTermPostings log ctx term acc = addAll acc (termAdditions log ctx term) := by
  rw [scoreTermPostings, ← List.foldl_flatMap, chunks_postings, addAll, termAdditions,
    List.foldl_map, List.foldl_filter]

theorem scoreBaseExhaustive_eq (log : R → R) (ctx : ScanContext R) (terms : List SearchTerm)
    (acc : Accumulator R) :
    scoreBaseExhaustive log ctx terms acc =
      addAll acc (terms.flatMap (termAdditions log ctx)) := by
  rw [scoreBaseExhaustive, addAll, List.foldl_flatMap]
  congr 1
  funext acc term
  exact scoreTermPostings_eq log ctx term acc

theorem mem_documents {docs : DocState} {terms : List SearchTerm} {nodeId : Nat} :
    nodeId ∈ documents docs terms ↔
      docs.scorable nodeId = true ∧ ∃ term ∈ terms, termAt nodeId term = true := by
  simp only [documents, List.mem_filter, List.mem_range, Bool.and_eq_true, List.any_eq_true]
  exact ⟨And.right, fun both => ⟨DocState.scorable_lt both.1, both⟩⟩

theorem documents_sorted (docs : DocState) (terms : List SearchTerm) :
    (documents docs terms).Pairwise (· < ·) :=
  List.Pairwise.filter _ List.pairwise_lt_range

theorem documents_distinct (docs : DocState) (terms : List SearchTerm) :
    (documents docs terms).Nodup :=
  (documents_sorted docs terms).imp fun less => less.ne

theorem termAt_iff {nodeId : Nat} {term : SearchTerm} :
    termAt nodeId term = true ↔ ∃ posting ∈ term.postings, posting.nodeId = nodeId := by
  simp [termAt]

section Exhaustive

variable {log : R → R} {ctx : ScanContext R} {terms : List SearchTerm}

theorem fullScore_nonneg (log : R → R) (ctx : ScanContext R)
    (idf_nonneg : ∀ term ∈ terms, 0 ≤ term.idf log ctx.corpus) (nodeId : Nat) :
    0 ≤ fullScore log ctx terms nodeId := by
  refine List.sum_nonneg fun value member => ?_
  obtain ⟨term, inside, rfl⟩ := List.mem_map.mp member
  refine List.sum_nonneg fun value member => ?_
  obtain ⟨posting, -, rfl⟩ := List.mem_map.mp member
  exact postingScoreDecoded_nonneg (idf_nonneg term inside) posting _

theorem fullScore_congr {ctx' : ScanContext R} (corpus : ctx.corpus = ctx'.corpus)
    (docLens : ∀ nodeId, ctx.docs.docLen nodeId = ctx'.docs.docLen nodeId) {nodeId : Nat} :
    fullScore log ctx terms nodeId = fullScore log ctx' terms nodeId := by
  refine congrArg List.sum (List.map_congr_left fun term _ => ?_)
  refine congrArg List.sum (List.map_congr_left fun posting _ => ?_)
  rw [postingContribution, postingContribution, corpus, docLens]

theorem additionsAt_term {nodeId : Nat} (scorable : ctx.docs.scorable nodeId = true)
    (term : SearchTerm) : additionsAt nodeId (termAdditions log ctx term) =
      (postingsAt nodeId term).map fun posting =>
        ⟨posting.nodeId, postingContribution log ctx term posting, term.term.matchBit⟩ := by
  rw [additionsAt, termAdditions, postingsAt, List.filter_map, List.filter_filter]
  congr 1
  refine List.filter_congr fun posting _ => ?_
  by_cases here : posting.nodeId = nodeId <;> simp [here, scorable]

theorem additions_scores {nodeId : Nat} (scorable : ctx.docs.scorable nodeId = true) :
    ((additionsAt nodeId (terms.flatMap (termAdditions log ctx))).map Addition.score).sum =
      fullScore log ctx terms nodeId := by
  induction terms with
  | nil => rfl
  | cons head rest ih =>
    have split : additionsAt nodeId ((head :: rest).flatMap (termAdditions log ctx)) =
        additionsAt nodeId (termAdditions log ctx head) ++
          additionsAt nodeId (rest.flatMap (termAdditions log ctx)) := by
      rw [List.flatMap_cons, additionsAt, List.filter_append]
      rfl
    rw [split, List.map_append, List.sum_append, ih, additionsAt_term scorable, List.map_map,
      fullScore, fullScore, List.map_cons, List.sum_cons]
    rfl

theorem additions_masks {nodeId : Nat} (scorable : ctx.docs.scorable nodeId = true) :
    orAll ((additionsAt nodeId (terms.flatMap (termAdditions log ctx))).map Addition.matchBit) =
      fullMask terms nodeId := by
  refine orAll_eq_of_mem fun bit => ?_
  simp only [List.mem_map, List.mem_filter, additionsAt, List.mem_flatMap, termAdditions,
    beq_iff_eq, termAt_iff]
  constructor
  · rintro ⟨_, ⟨⟨term, member, posting, ⟨inside, live⟩, rfl⟩, here⟩, rfl⟩
    exact ⟨term, ⟨member, posting, inside, here⟩, rfl⟩
  · rintro ⟨term, ⟨member, posting, inside, here⟩, rfl⟩
    exact ⟨_, ⟨⟨term, member, posting, ⟨inside, here ▸ scorable⟩, rfl⟩, here⟩, rfl⟩

/-- An accumulator that holds the given nodes, each with its full score and mask. -/
structure Holds (log : R → R) (ctx : ScanContext R) (terms : List SearchTerm) (nodeIds : List Nat)
    (acc : Accumulator R) : Prop where
  nodeIds : acc.nodeIds.Perm nodeIds
  distinct : acc.nodeIds.Nodup
  scores : ∀ nodeId ∈ acc.nodeIds, acc.scoreOf nodeId = fullScore log ctx terms nodeId
  masks : ∀ nodeId ∈ acc.nodeIds, acc.maskOf nodeId = fullMask terms nodeId

/-- **The exhaustive scorer** leaves the documents with their full scores and masks. -/
theorem exhaustive_holds {acc : Accumulator R} (fits : acc.Fits ctx.docs.nodeCount)
    (empty : acc.entries = []) :
    Holds log ctx terms (documents ctx.docs terms) (scoreBaseExhaustive log ctx terms acc) := by
  have none : acc.nodeIds = [] := by rw [Accumulator.nodeIds, empty]; rfl
  have inside : ∀ addition ∈ terms.flatMap (termAdditions log ctx),
      addition.nodeId < ctx.docs.nodeCount := by
    intro addition member
    obtain ⟨term, -, inside⟩ := List.mem_flatMap.mp member
    obtain ⟨posting, kept, rfl⟩ := List.mem_map.mp inside
    exact DocState.scorable_lt (List.mem_filter.mp kept).2
  have added := addAll_added fits (none ▸ List.nodup_nil) inside
  rw [← scoreBaseExhaustive_eq] at added
  have members (nodeId : Nat) : nodeId ∈ (scoreBaseExhaustive log ctx terms acc).nodeIds ↔
      nodeId ∈ documents ctx.docs terms := by
    rw [added.nodeIds, none, mem_documents]
    simp only [List.not_mem_nil, false_or, List.mem_flatMap, termAdditions, List.mem_map,
      List.mem_filter, termAt_iff]
    constructor
    · rintro ⟨_, ⟨term, member, posting, ⟨inside, live⟩, rfl⟩, rfl⟩
      exact ⟨live, term, member, posting, inside, rfl⟩
    · rintro ⟨live, term, member, posting, inside, rfl⟩
      exact ⟨_, ⟨term, member, posting, ⟨inside, live⟩, rfl⟩, rfl⟩
  have blank (nodeId : Nat) : acc.lookup nodeId = Option.none := by
    rw [Accumulator.lookup, empty]
    rfl
  refine ⟨(List.perm_ext_iff_of_nodup added.distinct (documents_distinct _ _)).mpr members,
    added.distinct, fun nodeId member => ?_, fun nodeId member => ?_⟩
  · have scorable := (mem_documents.mp ((members nodeId).mp member)).1
    rw [added.scores, additions_scores scorable, Accumulator.scoreOf, blank]
    simp
  · have scorable := (mem_documents.mp ((members nodeId).mp member)).1
    rw [added.masks, additions_masks scorable, Accumulator.maskOf, blank]
    simp

theorem touched_selection {acc : Accumulator R} {accepts : Nat → Bool} {score : Nat → R}
    (distinct : acc.nodeIds.Nodup)
    (accepted : ∀ nodeId ∈ acc.nodeIds, accepts (acc.maskOf nodeId) = true)
    (scores : ∀ nodeId ∈ acc.nodeIds, acc.scoreOf nodeId = score nodeId) (forceFullSort : Bool)
    (k : Nat) : selectFinalTopK forceFullSort accepts k acc =
      TopK.best k (acc.nodeIds.map fun nodeId => ⟨nodeId, score nodeId⟩) := by
  have entries : matchedEntries accepts acc =
      acc.nodeIds.map fun nodeId => ⟨nodeId, score nodeId⟩ := by
    have every (entry : AccumulatorEntry R) (member : entry ∈ acc.entries) :
        accepts entry.matchedTerms = true := by
      have mask := accepted _ (List.mem_map_of_mem member)
      rwa [Accumulator.maskOf, lookup_eq_some distinct member] at mask
    rw [matchedEntries, List.filter_eq_self.mpr every, Accumulator.nodeIds, List.map_map]
    refine List.map_congr_left fun entry member => ?_
    have value := scores _ (List.mem_map_of_mem member)
    rw [scoreOf_eq distinct member] at value
    simp [value]
  rw [selectFinalTopK_eq, entries]

/-- **The final selection** over fully scored nodes whose masks all match. -/
theorem Holds.selection {nodeIds : List Nat} {acc : Accumulator R}
    (holds : Holds log ctx terms nodeIds acc)
    (matching : ∀ nodeId ∈ nodeIds, ctx.accepts (fullMask terms nodeId) = true)
    (forceFullSort : Bool) : selectFinalTopK forceFullSort ctx.accepts ctx.k acc =
      TopK.best ctx.k (scoredNodes log ctx terms nodeIds) := by
  rw [touched_selection holds.distinct (fun nodeId touched => ?_) holds.scores]
  · exact TopK.best_perm (holds.nodeIds.map _)
  · rw [holds.masks nodeId touched]
    exact matching nodeId (holds.nodeIds.mem_iff.mp touched)

end Exhaustive

end TurboHybrid.Scan
