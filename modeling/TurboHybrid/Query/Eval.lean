/-
**Evaluating a tsquery on the set of matched terms, compiled and by recursion.**

The recursive evaluator walks the item array. The compiled one looks at which operators occur
anywhere in the array and replaces the walk by one test of a mask:

* `evalTsQueryItem_tree`: on the array of a tree the walk computes the tree's truth value, where a
  negated branch constrains nothing;
* `holds_iff_alternatives`: that value through the alternatives a tree offers;
* `compiledEval_agrees_iff`: the compiled test agrees with the walk on every non-empty set of
  matched terms exactly for the mask-faithful trees.
-/
import TurboHybrid.Query.Terms
import Mathlib.Data.Nat.Bitwise

namespace TurboHybrid.Query

/-! ### The recursive evaluator -/

def unsupportedError : String := "pgturbohybrid BM25 encountered an unsupported tsquery operator"

def termMatched (terms : List QueryTerm) (matchedTerms termNo : Nat) : Bool :=
  match terms[termNo]? with
  | some term => matchedTerms &&& term.matchBit != 0
  | none => false

/-- The recursive evaluator, at an index of the array. An index past the array or an exhausted fuel
is the error of an unsupported operator; no tree meets them. -/
def evalTsQueryItem (items : List QueryItem) (terms : List QueryTerm) (matchedTerms : Nat) :
    Nat → Nat → Except String Bool
  | 0, _ => .error unsupportedError
  | fuel + 1, idx =>
    match items[idx]? with
    | none => .error unsupportedError
    | some (.val term _) =>
      match (findQueryTermByItem terms idx).or (findQueryTerm terms term) with
      | some termNo => .ok (termMatched terms matchedTerms termNo)
      | none => .ok false
    | some (.opr .not _) => .ok true
    | some (.opr .or left) => do
      if ← evalTsQueryItem items terms matchedTerms fuel (idx + left) then return true
      evalTsQueryItem items terms matchedTerms fuel (idx + 1)
    | some (.opr _ left) => do
      if ← evalTsQueryItem items terms matchedTerms fuel (idx + left) then
        evalTsQueryItem items terms matchedTerms fuel (idx + 1)
      else return false

def evalTsQuery (query : TSQuery) (terms : List QueryTerm) (matchedTerms : Nat) :
    Except String Bool :=
  evalTsQueryItem query.items terms matchedTerms query.size 0

/-! ### The compiled evaluator -/

inductive QueryShape where
  | empty
  | single
  | pureOr
  | pureAnd
  | mixed
  deriving DecidableEq, Repr

inductive BooleanEvalMode where
  | none
  | single
  | mask
  | tree
  deriving DecidableEq, Repr

structure QueryEval where
  shape : QueryShape
  mode : BooleanEvalMode
  requiredMask : Nat
  deriving DecidableEq, Repr

def queryHasOperator (query : TSQuery) (oper : Oper) : Bool :=
  query.items.any fun
    | .opr other _ => other == oper
    | .val _ _ => false

def requiredMask (terms : List QueryTerm) : Nat :=
  terms.foldl (fun mask term => mask ||| term.matchBit) 0

def compileQueryEval (query : TSQuery) (terms : List QueryTerm) : QueryEval :=
  let hasOr := queryHasOperator query .or
  let hasAnd := queryHasOperator query .and
  let mask := requiredMask terms
  if terms.length = 0 then ⟨.empty, .none, mask⟩
  else if terms.length = 1 ∧ !hasOr ∧ !hasAnd then ⟨.single, .single, mask⟩
  else if hasOr ∧ !hasAnd then ⟨.pureOr, .mask, mask⟩
  else if hasAnd ∧ !hasOr then ⟨.pureAnd, .mask, mask⟩
  else ⟨.mixed, .tree, mask⟩

def matchedQuery (query : TSQuery) (terms : List QueryTerm) (eval : Option QueryEval)
    (matchedTerms : Nat) : Except String Bool :=
  if query.size = 0 then .ok false
  else
    match eval with
    | some ⟨_, .single, mask⟩ => .ok (matchedTerms &&& mask != 0)
    | some ⟨.pureOr, .mask, mask⟩ => .ok (matchedTerms &&& mask != 0)
    | some ⟨.pureAnd, .mask, mask⟩ => .ok (matchedTerms &&& mask == mask)
    | _ => evalTsQuery query terms matchedTerms

/-! ### The truth value of a tree -/

namespace Tree

/-- The value of a tree on a set of lexemes: a negated branch is satisfied, a phrase is a
conjunction. -/
def holds (chosen : Lexeme → Bool) : Tree → Bool
  | .val term _ => chosen term
  | .not _ => true
  | .node .or left right => left.holds chosen || right.holds chosen
  | .node _ left right => left.holds chosen && right.holds chosen

def unnegated : Tree → List Lexeme
  | .val term _ => [term]
  | .not _ => []
  | .node _ left right => left.unnegated ++ right.unnegated

/-- The ways to satisfy a tree: one side of each disjunction, both sides of the others. -/
def alternatives : Tree → List (List Lexeme)
  | .val term _ => [[term]]
  | .not _ => [[]]
  | .node .or left right => left.alternatives ++ right.alternatives
  | .node _ left right =>
    left.alternatives.flatMap fun one => right.alternatives.map fun other => one ++ other

/-- The connective occurs in the tree, also below a negation. -/
def uses (connective : Connective) : Tree → Bool
  | .val _ _ => false
  | .not operand => operand.uses connective
  | .node other left right => other == connective || left.uses connective || right.uses connective

theorem joint_satisfied (lefts rights : List (List Lexeme)) (chosen : Lexeme → Bool) :
    (∃ joint ∈ lefts.flatMap fun one => rights.map fun other => one ++ other,
      ∀ term ∈ joint, chosen term = true) ↔
      (∃ one ∈ lefts, ∀ term ∈ one, chosen term = true) ∧
        ∃ other ∈ rights, ∀ term ∈ other, chosen term = true := by
  simp only [List.mem_flatMap, List.mem_map]
  constructor
  · rintro ⟨_, ⟨one, onLeft, other, onRight, rfl⟩, satisfied⟩
    exact ⟨⟨one, onLeft, fun term member => satisfied term (List.mem_append_left _ member)⟩,
      ⟨other, onRight, fun term member => satisfied term (List.mem_append_right _ member)⟩⟩
  · rintro ⟨⟨one, onLeft, satisfied⟩, ⟨other, onRight, satisfied'⟩⟩
    exact ⟨_, ⟨one, onLeft, other, onRight, rfl⟩, fun term member =>
      (List.mem_append.mp member).elim (satisfied term) (satisfied' term)⟩

/-- **A tree is satisfied** when one of its alternatives is chosen. -/
theorem holds_iff_alternatives (tree : Tree) (chosen : Lexeme → Bool) :
    tree.holds chosen = true ↔
      ∃ alternative ∈ tree.alternatives, ∀ term ∈ alternative, chosen term = true := by
  induction tree with
  | val term prefixed => simp [holds, alternatives]
  | not operand => simp [holds, alternatives]
  | node connective left right ihLeft ihRight =>
    cases connective with
    | or =>
      simp only [holds, alternatives, Bool.or_eq_true, ihLeft, ihRight, List.mem_append,
        or_and_right, exists_or]
    | and => simp only [holds, alternatives, Bool.and_eq_true, ihLeft, ihRight, joint_satisfied]
    | phrase => simp only [holds, alternatives, Bool.and_eq_true, ihLeft, ihRight, joint_satisfied]

theorem unnegated_positive {tree : Tree} {term : Lexeme} (member : term ∈ tree.unnegated) :
    term ∈ tree.positives false := by
  induction tree with
  | val other prefixed => simpa [unnegated, positives] using member
  | not operand => simp [unnegated] at member
  | node connective left right ihLeft ihRight =>
    rw [positives, List.mem_append]
    rcases List.mem_append.mp member with onLeft | onRight
    · exact Or.inr (ihLeft onLeft)
    · exact Or.inl (ihRight onRight)

theorem alternatives_unnegated {tree : Tree} {alternative : List Lexeme}
    (offered : alternative ∈ tree.alternatives) {term : Lexeme} (member : term ∈ alternative) :
    term ∈ tree.unnegated := by
  induction tree generalizing alternative with
  | val other prefixed =>
    rw [alternatives, List.mem_singleton] at offered
    simpa [unnegated, offered] using member
  | not operand =>
    rw [alternatives, List.mem_singleton] at offered
    simp [offered] at member
  | node connective left right ihLeft ihRight =>
    rw [unnegated, List.mem_append]
    have both (joined : ∃ one ∈ left.alternatives, ∃ other ∈ right.alternatives,
        one ++ other = alternative) : term ∈ left.unnegated ∨ term ∈ right.unnegated := by
      obtain ⟨one, onLeft, other, onRight, rfl⟩ := joined
      exact (List.mem_append.mp member).imp (ihLeft onLeft) (ihRight onRight)
    cases connective with
    | or => exact (List.mem_append.mp offered).imp (ihLeft · member) (ihRight · member)
    | and => exact both (by simpa [alternatives] using offered)
    | phrase => exact both (by simpa [alternatives] using offered)

theorem alternatives_nonempty (tree : Tree) : ∃ alternative, alternative ∈ tree.alternatives := by
  induction tree with
  | val term prefixed => exact ⟨_, List.mem_singleton_self _⟩
  | not operand => exact ⟨_, List.mem_singleton_self _⟩
  | node connective left right ihLeft ihRight =>
    obtain ⟨one, onLeft⟩ := ihLeft
    obtain ⟨other, onRight⟩ := ihRight
    cases connective with
    | or => exact ⟨one, List.mem_append_left _ onLeft⟩
    | and => exact ⟨one ++ other, List.mem_flatMap.mpr ⟨one, onLeft, List.mem_map_of_mem onRight⟩⟩
    | phrase => exact ⟨one ++ other, List.mem_flatMap.mpr ⟨one, onLeft, List.mem_map_of_mem onRight⟩⟩

theorem unnegated_mem_alternative {tree : Tree} (conjunctive : tree.uses .or = false)
    {alternative : List Lexeme} (offered : alternative ∈ tree.alternatives) {term : Lexeme}
    (member : term ∈ tree.unnegated) : term ∈ alternative := by
  induction tree generalizing alternative with
  | val other prefixed =>
    rw [alternatives, List.mem_singleton] at offered
    simpa [unnegated, offered] using member
  | not operand => simp [unnegated] at member
  | node connective left right ihLeft ihRight =>
    simp only [uses, Bool.or_eq_false_iff] at conjunctive
    have both (joined : ∃ one ∈ left.alternatives, ∃ other ∈ right.alternatives,
        one ++ other = alternative) : term ∈ alternative := by
      obtain ⟨one, onLeft, other, onRight, rfl⟩ := joined
      rw [List.mem_append]
      exact (List.mem_append.mp member).imp (ihLeft conjunctive.1.2 onLeft)
        (ihRight conjunctive.2 onRight)
    cases connective with
    | or => simp at conjunctive
    | and => exact both (by simpa [alternatives] using offered)
    | phrase => exact both (by simpa [alternatives] using offered)

end Tree

/-! ### Match bits -/

def chosenTerm (terms : List QueryTerm) (matchedTerms : Nat) (term : Lexeme) : Bool :=
  terms.any fun candidate => candidate.term == term && matchedTerms &&& candidate.matchBit != 0

theorem and_two_pow_ne_zero (matchedTerms index : Nat) :
    (matchedTerms &&& 2 ^ index != 0) = matchedTerms.testBit index := by
  rw [Nat.and_two_pow]
  cases matchedTerms.testBit index <;> simp

theorem testBit_requiredMask (terms : List QueryTerm) (index : Nat) :
    (requiredMask terms).testBit index = terms.any fun term => term.matchBit.testBit index := by
  have gathered (mask : Nat) :
      (terms.foldl (fun mask term => mask ||| term.matchBit) mask).testBit index =
        (mask.testBit index || terms.any fun term => term.matchBit.testBit index) := by
    induction terms generalizing mask with
    | nil => simp
    | cons head rest ih => simp [ih, Bool.or_assoc]
  simpa [requiredMask] using gathered 0

section Collected

variable {items : List QueryItem} {terms : List QueryTerm}

theorem chosenTerm_getElem (collected : Collected items terms) {index : Nat} {term : QueryTerm}
    (found : terms[index]? = some term) (matchedTerms : Nat) :
    chosenTerm terms matchedTerms term.term = matchedTerms.testBit index := by
  have member := List.mem_of_getElem? found
  rw [chosenTerm, Bool.eq_iff_iff, List.any_eq_true]
  constructor
  · rintro ⟨candidate, known, satisfied⟩
    simp only [Bool.and_eq_true, beq_iff_eq] at satisfied
    obtain ⟨other, atOther⟩ := List.getElem?_of_mem known
    obtain rfl := collected_unique collected atOther found satisfied.1
    rw [← and_two_pow_ne_zero, ← collected.bits other candidate atOther]
    exact satisfied.2
  · intro bit
    refine ⟨term, member, ?_⟩
    rw [collected.bits index term found, and_two_pow_ne_zero, bit]
    simp

theorem termMatched_getElem (collected : Collected items terms) {index : Nat} {term : QueryTerm}
    (found : terms[index]? = some term) (matchedTerms : Nat) :
    termMatched terms matchedTerms index = chosenTerm terms matchedTerms term.term := by
  rw [chosenTerm_getElem collected found, termMatched, found]
  simp only [collected.bits index term found, and_two_pow_ne_zero]

theorem chosenTerm_mem {matchedTerms : Nat} {term : Lexeme}
    (chosen : chosenTerm terms matchedTerms term = true) :
    term ∈ terms.map QueryTerm.term := by
  obtain ⟨candidate, member, satisfied⟩ := List.any_eq_true.mp chosen
  simp only [Bool.and_eq_true, beq_iff_eq] at satisfied
  exact List.mem_map.mpr ⟨candidate, member, satisfied.1⟩

/-- **The walk computes the tree's value** on the chosen lexemes. -/
theorem evalTsQueryItem_tree (collected : Collected items terms) (matchedTerms : Nat)
    {tree : Tree} {fuel idx : Nat} (placed : Placed items tree idx) (enough : tree.size ≤ fuel) :
    evalTsQueryItem items terms matchedTerms fuel idx =
      .ok (tree.holds (chosenTerm terms matchedTerms)) := by
  induction tree generalizing fuel idx with
  | val term prefixed =>
    obtain ⟨fuel, rfl⟩ := Tree.exists_fuel enough
    have item : items[idx]? = some (.val term prefixed) := placed
    have resolved (termNo : Nat) (candidate : QueryTerm) (found : terms[termNo]? = some candidate)
        (same : candidate.term = term) :
        termMatched terms matchedTerms termNo = chosenTerm terms matchedTerms term := by
      rw [termMatched_getElem collected found, same]
    simp only [evalTsQueryItem, item, Tree.holds]
    cases byItem : findQueryTermByItem terms idx with
    | some termNo =>
      obtain ⟨bound, located, -⟩ := List.findIdx?_eq_some_iff_getElem.mp byItem
      obtain ⟨_, atItem⟩ := collected.located _ (List.getElem_mem bound)
      rw [beq_iff_eq.mp located, item] at atItem
      simp only [Option.some.injEq, QueryItem.val.injEq] at atItem
      have same : terms[termNo].term = term := atItem.1.symm
      exact congrArg Except.ok (resolved termNo _ (List.getElem?_eq_getElem bound) same)
    | none =>
      cases byText : findQueryTerm terms term with
      | some termNo =>
        obtain ⟨bound, located, -⟩ := List.findIdx?_eq_some_iff_getElem.mp byText
        simp only [Bool.and_eq_true, beq_iff_eq] at located
        exact congrArg Except.ok
          (resolved termNo _ (List.getElem?_eq_getElem bound) located.2)
      | none =>
        have absent : chosenTerm terms matchedTerms term = false := by
          by_contra chosen
          have known := chosenTerm_mem (Bool.not_eq_false _ ▸ chosen)
          rw [← findQueryTerm_isSome collected, byText] at known
          simp at known
        exact congrArg Except.ok absent.symm
  | not operand ih =>
    obtain ⟨fuel, rfl⟩ := Tree.exists_fuel enough
    simp only [evalTsQueryItem, placed.1, Tree.holds]
  | node connective left right ihLeft ihRight =>
    obtain ⟨fuel, rfl⟩ := Tree.exists_fuel enough
    simp only [Tree.size] at enough
    have onLeft := ihLeft placed.2.2 (by omega : left.size ≤ fuel)
    have onRight := ihRight placed.2.1 (by omega : right.size ≤ fuel)
    cases connective <;>
    · simp only [evalTsQueryItem, placed.1, Connective.oper, onLeft, onRight, Tree.holds]
      cases left.holds (chosenTerm terms matchedTerms) <;> rfl

end Collected

/-! ### Sets of matched terms -/

structure MatchedSet (terms : List QueryTerm) (matchedTerms : Nat) : Prop where
  nonempty : matchedTerms ≠ 0
  within : matchedTerms &&& requiredMask terms = matchedTerms

section Matched

variable {items : List QueryItem} {terms : List QueryTerm}

theorem testBit_requiredMask_iff (collected : Collected items terms) (index : Nat) :
    (requiredMask terms).testBit index = true ↔ index < terms.length := by
  rw [testBit_requiredMask, List.any_eq_true]
  constructor
  · rintro ⟨term, member, bit⟩
    obtain ⟨place, found⟩ := List.getElem?_of_mem member
    rw [collected.bits place term found, Nat.testBit_two_pow] at bit
    obtain ⟨bound, -⟩ := List.getElem?_eq_some_iff.mp found
    have : place = index := by simpa using bit
    omega
  · intro bound
    refine ⟨terms[index], List.getElem_mem bound, ?_⟩
    rw [collected.bits index _ (List.getElem?_eq_getElem bound)]
    simp

theorem matchedSet_chosen (collected : Collected items terms) {matchedTerms : Nat}
    (matched : MatchedSet terms matchedTerms) :
    ∃ term ∈ terms.map QueryTerm.term, chosenTerm terms matchedTerms term = true := by
  obtain ⟨index, bit⟩ := Nat.exists_testBit_of_ne_zero matched.nonempty
  have both := bit
  rw [← matched.within, Nat.testBit_and, Bool.and_eq_true] at both
  have bound := (testBit_requiredMask_iff collected index).mp both.2
  refine ⟨terms[index].term, List.mem_map_of_mem (List.getElem_mem bound), ?_⟩
  rw [chosenTerm_getElem collected (List.getElem?_eq_getElem bound), bit]

theorem mask_all_iff (collected : Collected items terms) (matchedTerms : Nat) :
    matchedTerms &&& requiredMask terms = requiredMask terms ↔
      ∀ term ∈ terms.map QueryTerm.term, chosenTerm terms matchedTerms term = true := by
  constructor
  · intro full term member
    obtain ⟨candidate, known, rfl⟩ := List.mem_map.mp member
    obtain ⟨index, found⟩ := List.getElem?_of_mem known
    have bit := (testBit_requiredMask_iff collected index).mpr
      (List.getElem?_eq_some_iff.mp found).1
    rw [← full, Nat.testBit_and, Bool.and_eq_true] at bit
    rw [chosenTerm_getElem collected found, bit.1]
  · intro every
    refine Nat.eq_of_testBit_eq fun index => ?_
    rw [Nat.testBit_and]
    by_cases bound : index < terms.length
    · have chosen := every _ (List.mem_map_of_mem (List.getElem_mem bound))
      rw [chosenTerm_getElem collected (List.getElem?_eq_getElem bound)] at chosen
      rw [chosen, Bool.true_and]
    · have outside : (requiredMask terms).testBit index = false := by
        rw [← Bool.not_eq_true, testBit_requiredMask_iff collected]
        exact bound
      rw [outside, Bool.and_false]

theorem exists_matchedSet (collected : Collected items terms) (select : Lexeme → Bool)
    {term : Lexeme} (known : term ∈ terms.map QueryTerm.term) (selected : select term = true) :
    ∃ matchedTerms, MatchedSet terms matchedTerms ∧
      ∀ other ∈ terms.map QueryTerm.term, chosenTerm terms matchedTerms other = select other := by
  let chosen := terms.filter fun candidate => select candidate.term
  have bits (index : Nat) (bound : index < terms.length) :
      (requiredMask chosen).testBit index = select terms[index].term := by
    rw [testBit_requiredMask, Bool.eq_iff_iff, List.any_eq_true]
    constructor
    · rintro ⟨candidate, member, bit⟩
      obtain ⟨old, satisfied⟩ := List.mem_filter.mp member
      obtain ⟨place, found⟩ := List.getElem?_of_mem old
      rw [collected.bits place candidate found, Nat.testBit_two_pow] at bit
      obtain rfl : place = index := by simpa using bit
      rw [List.getElem?_eq_getElem bound, Option.some.injEq] at found
      rwa [found]
    · intro satisfied
      refine ⟨terms[index], List.mem_filter.mpr ⟨List.getElem_mem bound, satisfied⟩, ?_⟩
      rw [collected.bits index _ (List.getElem?_eq_getElem bound)]
      simp
  have agree (other : Lexeme) (member : other ∈ terms.map QueryTerm.term) :
      chosenTerm terms (requiredMask chosen) other = select other := by
    obtain ⟨candidate, old, rfl⟩ := List.mem_map.mp member
    obtain ⟨index, found⟩ := List.getElem?_of_mem old
    obtain ⟨bound, rfl⟩ := List.getElem?_eq_some_iff.mp found
    rw [chosenTerm_getElem collected found, bits index bound]
  refine ⟨requiredMask chosen, ⟨fun zero => ?_, Nat.eq_of_testBit_eq fun index => ?_⟩, agree⟩
  · have unchosen := agree term known
    rw [zero, selected] at unchosen
    simp [chosenTerm] at unchosen
  · rw [Nat.testBit_and, testBit_requiredMask, testBit_requiredMask]
    by_cases bit : chosen.any (fun candidate => candidate.matchBit.testBit index) = true
    · obtain ⟨candidate, member, atIndex⟩ := List.any_eq_true.mp bit
      have old : (terms.any fun term => term.matchBit.testBit index) = true :=
        List.any_eq_true.mpr ⟨candidate, List.mem_of_mem_filter member, atIndex⟩
      rw [bit, old, Bool.true_and]
    · rw [Bool.eq_false_iff.mpr bit, Bool.false_and]

end Matched

/-! ### When the compiled test agrees -/

theorem queryHasOperator_toQuery (tree : Tree) (connective : Connective) :
    queryHasOperator tree.toQuery connective.oper = tree.uses connective := by
  have flattened : (tree.flatten.any fun
      | .opr other _ => other == connective.oper
      | .val _ _ => false) = tree.uses connective := by
    induction tree with
    | val term prefixed => rfl
    | not operand ih =>
      rw [Tree.flatten, List.any_cons, ih]
      cases connective <;> rfl
    | node other left right ihLeft ihRight =>
      rw [Tree.flatten, List.any_cons, List.any_append, ihLeft, ihRight, Tree.uses,
        Bool.or_comm (right.uses connective), Bool.or_assoc]
      cases other <;> cases connective <;> rfl
  exact flattened

/-- The trees the compiled masks decide as the walk does. A query of disjunctions without a
conjunction must offer each positive lexeme alone; a query of conjunctions without a disjunction
must have at most one positive lexeme, or each of them outside every negation. -/
structure MaskFaithful (tree : Tree) : Prop where
  anyTerm : tree.uses .or = true → tree.uses .and = false → ∀ term ∈ tree.positives false,
    ∃ alternative ∈ tree.alternatives, ∀ other ∈ alternative, other = term
  allTerms : tree.uses .and = true → tree.uses .or = false →
    (∀ term ∈ tree.positives false, ∀ other ∈ tree.positives false, term = other) ∨
      ∀ term ∈ tree.positives false, term ∈ tree.unnegated

theorem holds_of_positives (tree : Tree) {chosen : Lexeme → Bool}
    (every : ∀ term ∈ tree.positives false, chosen term = true) : tree.holds chosen = true := by
  obtain ⟨alternative, offered⟩ := tree.alternatives_nonempty
  exact (tree.holds_iff_alternatives chosen).mpr ⟨alternative, offered, fun term member =>
    every term (Tree.unnegated_positive (Tree.alternatives_unnegated offered member))⟩

section Agreement

variable {tree : Tree} {terms : List QueryTerm}

theorem evalTsQuery_tree (collected : Collected tree.flatten terms) (matchedTerms : Nat) :
    evalTsQuery tree.toQuery terms matchedTerms =
      .ok (tree.holds (chosenTerm terms matchedTerms)) :=
  evalTsQueryItem_tree collected matchedTerms (placed_flatten tree) (by simp)

theorem toQuery_size_ne_zero (tree : Tree) : tree.toQuery.size ≠ 0 := by
  have := tree.size_pos
  rw [Tree.toQuery_size]
  omega

theorem terms_ne_nil {matchedTerms : Nat} (matched : MatchedSet terms matchedTerms) :
    terms.length ≠ 0 := by
  intro empty
  obtain rfl := List.length_eq_zero_iff.mp empty
  exact matched.nonempty (by rw [← matched.within]; simp [requiredMask])

theorem matched_mask_ne_zero {matchedTerms : Nat} (matched : MatchedSet terms matchedTerms) :
    (matchedTerms &&& requiredMask terms != 0) = true := by
  rw [matched.within]
  simpa using matched.nonempty

theorem matchedQuery_pureOr (or : tree.uses .or = true) (and : tree.uses .and = false)
    {matchedTerms : Nat} (matched : MatchedSet terms matchedTerms) :
    matchedQuery tree.toQuery terms (some (compileQueryEval tree.toQuery terms)) matchedTerms =
      .ok true := by
  have compiled : compileQueryEval tree.toQuery terms = ⟨.pureOr, .mask, requiredMask terms⟩ := by
    have hasOr := (queryHasOperator_toQuery tree .or).trans or
    have hasAnd := (queryHasOperator_toQuery tree .and).trans and
    simp only [Connective.oper] at hasOr hasAnd
    simp [compileQueryEval, hasOr, hasAnd, terms_ne_nil matched]
  rw [compiled, matchedQuery, if_neg (toQuery_size_ne_zero tree)]
  exact congrArg Except.ok (matched_mask_ne_zero matched)

theorem compileQueryEval_pureAnd (and : tree.uses .and = true) (or : tree.uses .or = false)
    (nonempty : terms.length ≠ 0) :
    compileQueryEval tree.toQuery terms = ⟨.pureAnd, .mask, requiredMask terms⟩ := by
  have hasOr := (queryHasOperator_toQuery tree .or).trans or
  have hasAnd := (queryHasOperator_toQuery tree .and).trans and
  simp only [Connective.oper] at hasOr hasAnd
  simp [compileQueryEval, hasOr, hasAnd, nonempty]

theorem matchedQuery_pureAnd (and : tree.uses .and = true) (or : tree.uses .or = false)
    {matchedTerms : Nat} (matched : MatchedSet terms matchedTerms) :
    matchedQuery tree.toQuery terms (some (compileQueryEval tree.toQuery terms)) matchedTerms =
      .ok (matchedTerms &&& requiredMask terms == requiredMask terms) := by
  rw [compileQueryEval_pureAnd and or (terms_ne_nil matched), matchedQuery,
    if_neg (toQuery_size_ne_zero tree)]

theorem matchedQuery_unmasked (same : tree.uses .or = tree.uses .and)
    (collected : Collected tree.flatten terms)
    (lexemes : ∀ term, term ∈ terms.map QueryTerm.term ↔ term ∈ tree.positives false)
    {matchedTerms : Nat} (matched : MatchedSet terms matchedTerms) :
    matchedQuery tree.toQuery terms (some (compileQueryEval tree.toQuery terms)) matchedTerms =
      evalTsQuery tree.toQuery terms matchedTerms := by
  have or : queryHasOperator tree.toQuery .or = tree.uses .or := queryHasOperator_toQuery tree .or
  have and : queryHasOperator tree.toQuery .and = tree.uses .or :=
    same ▸ queryHasOperator_toQuery tree .and
  by_cases single : terms.length = 1 ∧ tree.uses .or = false
  · have compiled : compileQueryEval tree.toQuery terms = ⟨.single, .single, requiredMask terms⟩ := by
      simp [compileQueryEval, or, and, single]
    rw [compiled, matchedQuery, if_neg (toQuery_size_ne_zero tree), evalTsQuery_tree collected]
    -- the one term is matched, and it is the only positive lexeme
    obtain ⟨known, member, chosen⟩ := matchedSet_chosen collected matched
    obtain ⟨only, rfl⟩ := List.length_eq_one_iff.mp single.1
    have every : tree.holds (chosenTerm [only] matchedTerms) = true := by
      refine holds_of_positives tree fun term positive => ?_
      have := (lexemes term).mpr positive
      simp only [List.map_cons, List.map_nil, List.mem_singleton] at member this
      rwa [this, ← member]
    rw [every]
    exact congrArg Except.ok (matched_mask_ne_zero matched)
  · have compiled : compileQueryEval tree.toQuery terms = ⟨.mixed, .tree, requiredMask terms⟩ := by
      cases uses : tree.uses .or
      · simp [compileQueryEval, or, and, terms_ne_nil matched, uses]
        exact fun one => single ⟨one, uses⟩
      · simp [compileQueryEval, or, and, terms_ne_nil matched, uses]
    simp [compiled, matchedQuery, tree.size_pos.ne']

theorem anyTerm_iff (collected : Collected tree.flatten terms)
    (lexemes : ∀ term, term ∈ terms.map QueryTerm.term ↔ term ∈ tree.positives false) :
    (∀ matchedTerms, MatchedSet terms matchedTerms →
      tree.holds (chosenTerm terms matchedTerms) = true) ↔
      ∀ term ∈ tree.positives false,
        ∃ alternative ∈ tree.alternatives, ∀ other ∈ alternative, other = term := by
  constructor
  · intro every term positive
    obtain ⟨matchedTerms, matched, agree⟩ := exists_matchedSet collected (fun other => other == term)
      ((lexemes term).mpr positive) (beq_self_eq_true term)
    obtain ⟨alternative, offered, satisfied⟩ :=
      (tree.holds_iff_alternatives _).mp (every matchedTerms matched)
    refine ⟨alternative, offered, fun other member => ?_⟩
    have chosen := satisfied other member
    rw [agree other (chosenTerm_mem chosen)] at chosen
    exact beq_iff_eq.mp chosen
  · intro alone matchedTerms matched
    obtain ⟨term, member, chosen⟩ := matchedSet_chosen collected matched
    obtain ⟨alternative, offered, only⟩ := alone term ((lexemes term).mp member)
    refine (tree.holds_iff_alternatives _).mpr ⟨alternative, offered, fun other inside => ?_⟩
    rw [only other inside, chosen]

/-- A selection that leaves out a term but satisfies the tree: the mask of a conjunction rejects
it. -/
theorem exists_partial_selection {first second missing : Lexeme}
    (one : first ∈ tree.positives false) (other : second ∈ tree.positives false)
    (different : first ≠ second) (positive : missing ∈ tree.positives false)
    (negated : missing ∉ tree.unnegated) :
    ∃ select : Lexeme → Bool, (∃ term ∈ tree.positives false, select term = true) ∧
      (∃ term ∈ tree.positives false, select term = false) ∧
      ∀ term ∈ tree.unnegated, select term = true := by
  by_cases some : ∃ term, term ∈ tree.unnegated
  · obtain ⟨term, member⟩ := some
    exact ⟨fun term => decide (term ∈ tree.unnegated),
      ⟨term, Tree.unnegated_positive member, by simpa using member⟩,
      ⟨missing, positive, by simpa using negated⟩, fun term inside => by simpa using inside⟩
  · exact ⟨fun term => term == first, ⟨first, one, beq_self_eq_true first⟩,
      ⟨second, other, by simpa using different.symm⟩, fun term inside => absurd ⟨term, inside⟩ some⟩

/-- A pure conjunction agrees when it has one positive lexeme or none of them below a negation. -/
theorem allTerms_iff (collected : Collected tree.flatten terms)
    (lexemes : ∀ term, term ∈ terms.map QueryTerm.term ↔ term ∈ tree.positives false)
    (conjunctive : tree.uses .or = false) :
    (∀ matchedTerms, MatchedSet terms matchedTerms →
      (tree.holds (chosenTerm terms matchedTerms) = true ↔
        ∀ term ∈ terms.map QueryTerm.term, chosenTerm terms matchedTerms term = true)) ↔
      (∀ term ∈ tree.positives false, ∀ other ∈ tree.positives false, term = other) ∨
        ∀ term ∈ tree.positives false, term ∈ tree.unnegated := by
  constructor
  · intro agree
    by_contra neither
    push Not at neither
    obtain ⟨⟨first, one, second, other, different⟩, missing, positive, negated⟩ := neither
    obtain ⟨select, ⟨chosen, known, selected⟩, ⟨left, out, unselected⟩, satisfied⟩ :=
      exists_partial_selection one other different positive negated
    obtain ⟨matchedTerms, matched, same⟩ :=
      exists_matchedSet collected select ((lexemes chosen).mpr known) selected
    obtain ⟨alternative, offered⟩ := tree.alternatives_nonempty
    have holds : tree.holds (chosenTerm terms matchedTerms) = true := by
      refine (tree.holds_iff_alternatives _).mpr ⟨alternative, offered, fun term member => ?_⟩
      have outside := Tree.alternatives_unnegated offered member
      rw [same term ((lexemes term).mpr (Tree.unnegated_positive outside)), satisfied term outside]
    have every := (agree matchedTerms matched).mp holds left ((lexemes left).mpr out)
    rw [same left ((lexemes left).mpr out), unselected] at every
    exact Bool.false_ne_true every
  · intro faithful matchedTerms matched
    constructor
    · intro holds term member
      rcases faithful with alike | outside
      · obtain ⟨known, inside, chosen⟩ := matchedSet_chosen collected matched
        rw [alike term ((lexemes term).mp member) known ((lexemes known).mp inside), chosen]
      · obtain ⟨alternative, offered, satisfied⟩ := (tree.holds_iff_alternatives _).mp holds
        exact satisfied term (Tree.unnegated_mem_alternative conjunctive offered
          (outside term ((lexemes term).mp member)))
    · intro every
      exact holds_of_positives tree fun term positive => every term ((lexemes term).mpr positive)

end Agreement

/-- **When the compiled evaluation is the recursive one**: on every non-empty set of matched terms
of a tree's query, exactly for the mask-faithful trees. -/
theorem compiledEval_agrees_iff {tree : Tree} {terms : List QueryTerm}
    (extracted : extractTerms tree.toQuery = .ok terms) :
    (∀ matchedTerms, MatchedSet terms matchedTerms →
      matchedQuery tree.toQuery terms (some (compileQueryEval tree.toQuery terms)) matchedTerms =
        evalTsQuery tree.toQuery terms matchedTerms) ↔ MaskFaithful tree := by
  obtain ⟨collected, lexemes⟩ := extractTerms_spec extracted
  cases or : tree.uses .or <;> cases and : tree.uses .and
  · refine ⟨fun _ => ⟨by simp [or], by simp [and]⟩, fun _ matchedTerms matched => ?_⟩
    exact matchedQuery_unmasked (or.trans and.symm) collected lexemes matched
  · have conjunction := allTerms_iff collected lexemes or
    refine Iff.trans ?_ (conjunction.trans ⟨fun all => ⟨by simp [or], fun _ _ => all⟩,
      fun faithful => faithful.allTerms and or⟩)
    refine forall₂_congr fun matchedTerms matched => ?_
    rw [matchedQuery_pureAnd and or matched, evalTsQuery_tree collected, ← mask_all_iff collected,
      Except.ok.injEq, Bool.eq_iff_iff, beq_iff_eq]
    exact Iff.comm
  · refine Iff.trans ?_ ((anyTerm_iff collected lexemes).trans ⟨fun alone => ⟨fun _ _ => alone,
      by simp [and]⟩, fun faithful => faithful.anyTerm or and⟩)
    refine forall₂_congr fun matchedTerms matched => ?_
    rw [matchedQuery_pureOr or and matched, evalTsQuery_tree collected, Except.ok.injEq, eq_comm]
  · refine ⟨fun _ => ⟨by simp [and], by simp [or]⟩, fun _ matchedTerms matched => ?_⟩
    exact matchedQuery_unmasked (or.trans and.symm) collected lexemes matched

/-- The query `a & b`. -/
def conjunctionTree : Tree := .node .and (.val [97] false) (.val [98] false)

/-- The query `(a <-> b) | c`. -/
def phraseTree : Tree := .node .or (.node .phrase (.val [97] false) (.val [98] false)) (.val [99] false)

def conjunctionTerms : List QueryTerm :=
  [⟨[98], hashTerm [98], 1, 1⟩, ⟨[97], hashTerm [97], 2, 2⟩]

def phraseTerms : List QueryTerm :=
  [⟨[99], hashTerm [99], 1, 1⟩, ⟨[98], hashTerm [98], 2, 3⟩, ⟨[97], hashTerm [97], 4, 4⟩]

theorem extractTerms_conjunctionTree :
    extractTerms conjunctionTree.toQuery = .ok conjunctionTerms := rfl

theorem conjunctionTree_faithful : MaskFaithful conjunctionTree :=
  ⟨fun or _ => absurd or (by decide), fun _ _ => Or.inr (by decide)⟩

/-- On `a & b` the compiled evaluation is the recursive one. -/
theorem compiledEval_agrees_conjunction : MaskFaithful conjunctionTree ∧
    ∀ matchedTerms, MatchedSet conjunctionTerms matchedTerms →
      matchedQuery conjunctionTree.toQuery conjunctionTerms
          (some (compileQueryEval conjunctionTree.toQuery conjunctionTerms)) matchedTerms =
        evalTsQuery conjunctionTree.toQuery conjunctionTerms matchedTerms :=
  ⟨conjunctionTree_faithful,
    (compiledEval_agrees_iff extractTerms_conjunctionTree).mpr conjunctionTree_faithful⟩

/-- On `(a <-> b) | c` with `a` alone the compiled test says yes, the recursive one no. -/
theorem compiledEval_phrase_diverges :
    extractTerms phraseTree.toQuery = .ok phraseTerms ∧ MatchedSet phraseTerms 4 ∧
      matchedQuery phraseTree.toQuery phraseTerms
        (some (compileQueryEval phraseTree.toQuery phraseTerms)) 4 = .ok true ∧
      evalTsQuery phraseTree.toQuery phraseTerms 4 = .ok false :=
  ⟨rfl, ⟨by decide, by decide⟩, rfl, rfl⟩

end TurboHybrid.Query
