/-
**Searches for OR queries.**

An OR query joins its operands without a conjunction, or is a single operand. Every document that
has one of its terms matches it.

* `OrQuery.matching`: the matched terms of a document are accepted;
* `markDead`: a document state with other nodes dead.
-/
import TurboHybrid.Query.Eval
import TurboHybrid.Scan.WandExact

set_option linter.unusedSectionVars false

namespace TurboHybrid.Index.DocState

/-- The same graph with the given nodes dead and the others live. -/
def markDead (docs : DocState) (dead : Nat → Bool) : DocState :=
  { docs with liveNodes := (List.range docs.nodeCount).map fun nodeId => !dead nodeId }

theorem markDead_scorable (docs : DocState) (dead : Nat → Bool) (nodeId : Nat) :
    (docs.markDead dead).scorable nodeId = true ↔
      nodeId < docs.nodeCount ∧ docs.docLen nodeId ≠ 0 ∧ dead nodeId = false := by
  rw [scorable, Bool.and_eq_true, Bool.and_eq_true, decide_eq_true_eq, bne_iff_ne, and_assoc]
  refine and_congr_right fun (inside : nodeId < docs.nodeCount) => and_congr_right fun _ => ?_
  simp [live, markDead, List.getD_eq_getElem?_getD, inside]

end TurboHybrid.Index.DocState

namespace TurboHybrid.Scan

open TurboHybrid.Index TurboHybrid.Query TurboHybrid.Library

variable {R : Type*} [Field R] [LinearOrder R] [IsStrictOrderedRing R]

/-- An OR query and the search terms extracted from it. -/
structure OrQuery (tree : Tree) (terms : List SearchTerm) : Prop where
  extracted : extractTerms tree.toQuery = .ok (terms.map SearchTerm.term)
  disjunctive : tree.uses .and = false
  joined : tree.uses .or = true ∨ ∃ term prefixed, tree = .val term prefixed

/-- The test of the final selection: the compiled query on the matched terms. -/
def queryAccepts (tree : Tree) (terms : List QueryTerm) (matchedTerms : Nat) : Bool :=
  match matchedQuery tree.toQuery terms (some (compileQueryEval tree.toQuery terms)) matchedTerms with
  | .ok matched => matched
  | .error _ => false

/-- The context of a search without dense candidates. -/
def searchContext (corpus : ScoringMeta R) (docs : DocState) (tree : Tree)
    (terms : List SearchTerm) (k : Nat) : ScanContext R :=
  ⟨corpus, docs, queryAccepts tree (terms.map SearchTerm.term), k, none⟩

theorem orAll_matchedSet {items : List QueryItem} {terms : List SearchTerm}
    (collected : Collected items (terms.map SearchTerm.term)) {bits : List Nat}
    (nonempty : bits ≠ []) (known : ∀ bit ∈ bits, ∃ term ∈ terms, term.term.matchBit = bit) :
    MatchedSet (terms.map SearchTerm.term) (orAll bits) := by
  constructor
  · obtain ⟨bit, rest, rfl⟩ := List.exists_cons_of_ne_nil nonempty
    obtain ⟨term, member, rfl⟩ := known bit List.mem_cons_self
    obtain ⟨index, found⟩ := List.getElem?_of_mem (List.mem_map_of_mem (f := SearchTerm.term) member)
    have set : (orAll (term.term.matchBit :: rest)).testBit index = true := by
      rw [testBit_orAll, List.any_eq_true]
      refine ⟨term.term.matchBit, List.mem_cons_self, ?_⟩
      rw [collected.bits index term.term found]
      exact Nat.testBit_two_pow_self
    intro zero
    rw [zero, Nat.zero_testBit] at set
    cases set
  · refine Nat.eq_of_testBit_eq fun index => ?_
    rw [Nat.testBit_and]
    cases set : (orAll bits).testBit index with
    | false => rfl
    | true =>
      rw [testBit_orAll, List.any_eq_true] at set
      obtain ⟨bit, member, here⟩ := set
      obtain ⟨term, inside, rfl⟩ := known bit member
      rw [testBit_requiredMask, Bool.true_and, List.any_eq_true]
      exact ⟨term.term, List.mem_map_of_mem inside, here⟩

section OrQuery

variable {tree : Tree} {terms : List SearchTerm}

/-- **Any matched term satisfies an OR query.** -/
theorem OrQuery.accepts_orAll (query : OrQuery tree terms) {bits : List Nat} (nonempty : bits ≠ [])
    (known : ∀ bit ∈ bits, ∃ term ∈ terms, term.term.matchBit = bit) :
    queryAccepts tree (terms.map SearchTerm.term) (orAll bits) = true := by
  obtain ⟨collected, lexemes⟩ := extractTerms_spec query.extracted
  have matched := orAll_matchedSet collected nonempty known
  rcases query.joined with or | ⟨term, prefixed, rfl⟩
  · rw [queryAccepts, matchedQuery_pureOr or query.disjunctive matched]
  · rw [queryAccepts, matchedQuery_unmasked rfl collected lexemes matched,
      evalTsQuery_tree collected]
    obtain ⟨known, member, chosen⟩ := matchedSet_chosen collected matched
    refine holds_of_positives _ fun other positive => ?_
    have only := (lexemes known).mp member
    simp only [Tree.positives, Bool.false_eq_true, if_false, List.mem_singleton] at only positive
    rwa [positive, ← only]

/-- **Every document matches an OR query.** -/
theorem OrQuery.matching (query : OrQuery tree terms) {nodeId : Nat}
    (occurs : ∃ term ∈ terms, termAt nodeId term = true) :
    queryAccepts tree (terms.map SearchTerm.term) (fullMask terms nodeId) = true := by
  refine query.accepts_orAll (fun none => ?_) fun bit member => ?_
  · obtain ⟨term, member, here⟩ := occurs
    exact List.ne_nil_of_mem (List.mem_filter.mpr ⟨member, here⟩) (List.map_eq_nil_iff.mp none)
  · obtain ⟨term, inside, rfl⟩ := List.mem_map.mp member
    exact ⟨term, (List.mem_filter.mp inside).1, rfl⟩

theorem OrQuery.documents_matching (query : OrQuery tree terms) (corpus : ScoringMeta R)
    (docs : DocState) (k : Nat) : ∀ nodeId ∈ documents docs terms,
      (searchContext corpus docs tree terms k).accepts (fullMask terms nodeId) = true :=
  fun _ document => query.matching (mem_documents.mp document).2

end OrQuery

end TurboHybrid.Scan
