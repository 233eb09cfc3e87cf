/-
**The tsquery item array and the positive terms drawn from it.**

A tsquery is an array of items in prefix order: an operator is followed by its right operand, and
names the offset of its left operand. Over that array:

* `Tree`, `Tree.flatten`: the query trees and the arrays PostgreSQL stores for them;
* `collectPositiveTerms`: the walk that gathers the distinct lexemes outside an odd number of
  negations, with a match bit for each;
* `collectPositiveTerms_spec`: on the array of a tree the walk gathers exactly the tree's positive
  lexemes, each once, the `i`-th under the bit `2 ^ i`;
* `extractTerms_total`: it fails only on a prefix operand or beyond 64 lexemes.
-/
import Mathlib.Algebra.Ring.Nat
import Mathlib.Data.Finset.Card
import Mathlib.Tactic.Common

namespace TurboHybrid.Query

/-! ### Items -/

abbrev Lexeme := List UInt8

inductive Oper where
  | not
  | and
  | or
  | phrase
  deriving DecidableEq, Repr

/-- An item of the array: an operand, or an operator with the offset of its left operand. -/
inductive QueryItem where
  | val (term : Lexeme) (prefixed : Bool)
  | opr (oper : Oper) (left : Nat)
  deriving DecidableEq, Repr

structure TSQuery where
  items : List QueryItem
  deriving DecidableEq, Repr

def TSQuery.size (query : TSQuery) : Nat := query.items.length

/-! ### Trees -/

inductive Connective where
  | and
  | or
  | phrase
  deriving DecidableEq, Repr

def Connective.oper : Connective → Oper
  | .and => .and
  | .or => .or
  | .phrase => .phrase

inductive Tree where
  | val (term : Lexeme) (prefixed : Bool)
  | not (operand : Tree)
  | node (connective : Connective) (left right : Tree)
  deriving DecidableEq, Repr

namespace Tree

def size : Tree → Nat
  | .val _ _ => 1
  | .not operand => operand.size + 1
  | .node _ left right => left.size + right.size + 1

/-- The stored array: the operator, its right operand, its left operand. -/
def flatten : Tree → List QueryItem
  | .val term prefixed => [.val term prefixed]
  | .not operand => .opr .not 1 :: operand.flatten
  | .node connective left right =>
    .opr connective.oper (right.size + 1) :: (right.flatten ++ left.flatten)

def toQuery (tree : Tree) : TSQuery := ⟨tree.flatten⟩

/-- The lexemes under an even number of negations, in prefix order. -/
def positives (negated : Bool) : Tree → List Lexeme
  | .val term _ => if negated then [] else [term]
  | .not operand => operand.positives (!negated)
  | .node _ left right => right.positives negated ++ left.positives negated

def hasPrefixed : Tree → Bool
  | .val _ prefixed => prefixed
  | .not operand => operand.hasPrefixed
  | .node _ left right => left.hasPrefixed || right.hasPrefixed

@[simp] theorem flatten_length (tree : Tree) : tree.flatten.length = tree.size := by
  induction tree with
  | val => rfl
  | not operand ih => simp [flatten, size, ih]
  | node connective left right ihLeft ihRight => simp [flatten, size, ihLeft, ihRight]; omega

theorem size_pos (tree : Tree) : 0 < tree.size := by
  cases tree <;> simp [size]

theorem exists_fuel {tree : Tree} {fuel : Nat} (enough : tree.size ≤ fuel) :
    ∃ less, fuel = less + 1 :=
  ⟨fuel - 1, by have := tree.size_pos; omega⟩

@[simp] theorem toQuery_size (tree : Tree) : tree.toQuery.size = tree.size := by
  simp [TSQuery.size, toQuery]

end Tree

/-- The array holds the tree's items from an index on. -/
def Placed (items : List QueryItem) : Tree → Nat → Prop
  | .val term prefixed, idx => items[idx]? = some (.val term prefixed)
  | .not operand, idx => items[idx]? = some (.opr .not 1) ∧ Placed items operand (idx + 1)
  | .node connective left right, idx =>
    items[idx]? = some (.opr connective.oper (right.size + 1)) ∧
      Placed items right (idx + 1) ∧ Placed items left (idx + (right.size + 1))

theorem placed_append (tree : Tree) (before after : List QueryItem) :
    Placed (before ++ (tree.flatten ++ after)) tree before.length := by
  induction tree generalizing before after with
  | val term prefixed => simp [Placed, Tree.flatten]
  | not operand ih =>
    refine ⟨by simp [Tree.flatten], ?_⟩
    have inner := ih (before ++ [.opr .not 1]) after
    simpa [Tree.flatten, List.append_assoc] using inner
  | node connective left right ihLeft ihRight =>
    refine ⟨by simp [Tree.flatten], ?_, ?_⟩
    · have inner := ihRight (before ++ [.opr connective.oper (right.size + 1)])
        (left.flatten ++ after)
      simpa [Tree.flatten, List.append_assoc] using inner
    · have inner := ihLeft
        (before ++ (.opr connective.oper (right.size + 1) :: right.flatten)) after
      simpa [Tree.flatten, List.append_assoc] using inner

theorem placed_flatten (tree : Tree) : Placed tree.flatten tree 0 := by
  simpa using placed_append tree [] []

/-! ### Query terms -/

def hashTerm (term : Lexeme) : UInt64 :=
  term.foldl (fun hash byte => (hash ^^^ byte.toUInt64) * 1099511628211) 1469598103934665603

/-- A distinct lexeme of the query, with its bit and the item it was first met at. -/
structure QueryTerm where
  term : Lexeme
  termHash : UInt64
  matchBit : Nat
  qitemIndex : Nat
  deriving DecidableEq, Repr

def findQueryTerm (terms : List QueryTerm) (term : Lexeme) : Option Nat :=
  terms.findIdx? fun candidate =>
    candidate.term.length == term.length && candidate.termHash == hashTerm term &&
      candidate.term == term

def findQueryTermByItem (terms : List QueryTerm) (qitemIndex : Nat) : Option Nat :=
  terms.findIdx? fun candidate => candidate.qitemIndex == qitemIndex

def prefixError : String := "pgturbohybrid BM25 prefix tsquery terms are not supported yet"

def termLimitError : String := "turbohybrid BM25 queries currently support at most 64 terms"

def maxQueryTerms : Nat := 64

/-- The walk from an index: the index past the subtree, and the terms met so far. The fuel bounds
the depth of the recursion, and the array's length is always enough. -/
def collectPositiveTerms (items : List QueryItem) :
    Nat → Nat → Bool → List QueryTerm → Except String (Nat × List QueryTerm)
  | 0, idx, _, out => .ok (idx, out)
  | fuel + 1, idx, negated, out =>
    match items[idx]? with
    | none => .ok (idx, out)
    | some (.val term prefixed) =>
      if prefixed then .error prefixError
      else if negated then .ok (idx + 1, out)
      else if (findQueryTerm out term).isSome then .ok (idx + 1, out)
      else if maxQueryTerms ≤ out.length then .error termLimitError
      else .ok (idx + 1, out ++ [⟨term, hashTerm term, 2 ^ out.length, idx⟩])
    | some (.opr .not _) => collectPositiveTerms items fuel (idx + 1) (!negated) out
    | some (.opr _ _) => do
      let (next, out) ← collectPositiveTerms items fuel (idx + 1) negated out
      collectPositiveTerms items fuel next negated out

def extractTerms (query : TSQuery) : Except String (List QueryTerm) := do
  let (_, terms) ← collectPositiveTerms query.items query.size 0 false []
  return terms

/-! ### What the walk gathers -/

/-- The terms gathered so far: distinct, with their hashes, the `i`-th under the bit `2 ^ i`, each
met at an operand of the array that carries its lexeme. -/
structure Collected (items : List QueryItem) (terms : List QueryTerm) : Prop where
  distinct : (terms.map QueryTerm.term).Nodup
  hashed : ∀ term ∈ terms, term.termHash = hashTerm term.term
  bits : ∀ (index : Nat) (term : QueryTerm), terms[index]? = some term →
    term.matchBit = 2 ^ index
  located : ∀ term ∈ terms, ∃ prefixed, items[term.qitemIndex]? = some (.val term.term prefixed)

theorem collected_nil (items : List QueryItem) : Collected items [] :=
  ⟨by simp, by simp, by simp, by simp⟩

theorem findQueryTerm_isSome {items : List QueryItem} {terms : List QueryTerm}
    (collected : Collected items terms) (term : Lexeme) :
    (findQueryTerm terms term).isSome ↔ term ∈ terms.map QueryTerm.term := by
  rw [findQueryTerm, List.findIdx?_isSome, List.any_eq_true, List.mem_map]
  constructor
  · rintro ⟨candidate, member, found⟩
    simp only [Bool.and_eq_true, beq_iff_eq] at found
    exact ⟨candidate, member, found.2⟩
  · rintro ⟨candidate, member, same⟩
    refine ⟨candidate, member, ?_⟩
    simp [collected.hashed candidate member, same]

theorem collected_snoc {items : List QueryItem} {terms : List QueryTerm}
    (collected : Collected items terms) {term : Lexeme} {prefixed : Bool} {idx : Nat}
    (item : items[idx]? = some (.val term prefixed))
    (fresh : term ∉ terms.map QueryTerm.term) :
    Collected items (terms ++ [⟨term, hashTerm term, 2 ^ terms.length, idx⟩]) := by
  refine ⟨?_, ?_, ?_, ?_⟩
  · rw [List.map_append, List.nodup_append]
    refine ⟨collected.distinct, by simp, ?_⟩
    rintro old member new single rfl
    exact fresh (by simpa [List.mem_singleton.mp single] using member)
  · intro candidate member
    rcases List.mem_append.mp member with old | new
    · exact collected.hashed candidate old
    · rw [List.mem_singleton.mp new]
  · intro index candidate found
    rcases Nat.lt_or_ge index terms.length with old | new
    · rw [List.getElem?_append_left old] at found
      exact collected.bits index candidate found
    · rw [List.getElem?_append_right new] at found
      obtain ⟨bound, rfl⟩ := List.getElem?_eq_some_iff.mp found
      have : index = terms.length := by simp at bound; omega
      subst this
      simp
  · intro candidate member
    rcases List.mem_append.mp member with old | new
    · exact collected.located candidate old
    · rw [List.mem_singleton.mp new]
      exact ⟨prefixed, item⟩

theorem collected_unique {items : List QueryItem} {terms : List QueryTerm}
    (collected : Collected items terms) {first second : Nat} {one other : QueryTerm}
    (atFirst : terms[first]? = some one) (atSecond : terms[second]? = some other)
    (same : one.term = other.term) : first = second := by
  have lengthMap : (terms.map QueryTerm.term).length = terms.length := List.length_map ..
  obtain ⟨firstBound, rfl⟩ := List.getElem?_eq_some_iff.mp atFirst
  obtain ⟨secondBound, rfl⟩ := List.getElem?_eq_some_iff.mp atSecond
  have inFirst : first < (terms.map QueryTerm.term).length := by omega
  have inSecond : second < (terms.map QueryTerm.term).length := by omega
  have equal : (terms.map QueryTerm.term)[first] = (terms.map QueryTerm.term)[second] := by
    simpa using same
  exact collected.distinct.getElem_inj_iff.mp equal

/-- What the walk of one subtree did to the gathered terms. -/
structure Gathered (items : List QueryItem) (tree : Tree) (idx : Nat) (negated : Bool)
    (terms : List QueryTerm) (result : Nat × List QueryTerm) : Prop where
  next : result.1 = idx + tree.size
  collected : Collected items result.2
  lexemes : ∀ term, term ∈ result.2.map QueryTerm.term ↔
    term ∈ terms.map QueryTerm.term ∨ term ∈ tree.positives negated

theorem collectPositiveTerms_node {items : List QueryItem} {connective : Connective}
    {offset idx : Nat} (item : items[idx]? = some (.opr connective.oper offset)) (fuel : Nat)
    (negated : Bool) (terms : List QueryTerm) :
    collectPositiveTerms items (fuel + 1) idx negated terms =
      (collectPositiveTerms items fuel (idx + 1) negated terms).bind fun walked =>
        collectPositiveTerms items fuel walked.1 negated walked.2 := by
  simp only [collectPositiveTerms, item]
  cases connective <;> rfl

/-- **The walk of a subtree** gathers its positive lexemes and stops right past it. -/
theorem collectPositiveTerms_spec {items : List QueryItem} {tree : Tree} {fuel idx : Nat}
    {negated : Bool} {terms : List QueryTerm} {result : Nat × List QueryTerm}
    (placed : Placed items tree idx) (enough : tree.size ≤ fuel)
    (collected : Collected items terms)
    (gathered : collectPositiveTerms items fuel idx negated terms = .ok result) :
    Gathered items tree idx negated terms result := by
  induction tree generalizing fuel idx negated terms result with
  | val term prefixed =>
    obtain ⟨fuel, rfl⟩ := Tree.exists_fuel enough
    have item : items[idx]? = some (.val term prefixed) := placed
    simp only [collectPositiveTerms, item] at gathered
    split at gathered
    · cases gathered
    · split_ifs at gathered with negative known full
      · cases gathered
        exact ⟨rfl, collected, by simp [Tree.positives, negative]⟩
      · cases gathered
        refine ⟨rfl, collected, fun other => ?_⟩
        have member := (findQueryTerm_isSome collected term).mp known
        simp only [Tree.positives, negative]
        constructor
        · exact Or.inl
        · rintro (old | same)
          · exact old
          · rwa [List.mem_singleton.mp same]
      · cases gathered
        have fresh := fun member => known ((findQueryTerm_isSome collected term).mpr member)
        refine ⟨rfl, collected_snoc collected item fresh, fun other => ?_⟩
        simp [Tree.positives, negative]
  | not operand ih =>
    obtain ⟨fuel, rfl⟩ := Tree.exists_fuel enough
    simp only [collectPositiveTerms, placed.1] at gathered
    have inner := ih placed.2 (by simp [Tree.size] at enough; omega) collected gathered
    exact ⟨by rw [inner.next, Tree.size]; omega, inner.collected, inner.lexemes⟩
  | node connective left right ihLeft ihRight =>
    obtain ⟨fuel, rfl⟩ := Tree.exists_fuel enough
    simp only [Tree.size] at enough
    rw [collectPositiveTerms_node placed.1] at gathered
    cases first : collectPositiveTerms items fuel (idx + 1) negated terms with
    | error message => rw [first] at gathered; cases gathered
    | ok walked =>
      rw [first] at gathered
      have onRight := ihRight placed.2.1 (by omega) collected first
      have position : walked.1 = idx + (right.size + 1) := by rw [onRight.next]; omega
      have second : collectPositiveTerms items fuel (idx + (right.size + 1)) negated walked.2 =
          .ok result := position ▸ gathered
      have onLeft := ihLeft placed.2.2 (by omega) onRight.collected second
      refine ⟨by rw [onLeft.next, Tree.size]; omega, onLeft.collected, fun term => ?_⟩
      rw [onLeft.lexemes, onRight.lexemes, Tree.positives, List.mem_append, or_assoc]

theorem collectPositiveTerms_total {items : List QueryItem} {tree : Tree} {fuel idx : Nat}
    {negated : Bool} {terms : List QueryTerm}
    (placed : Placed items tree idx) (enough : tree.size ≤ fuel)
    (collected : Collected items terms) (plain : tree.hasPrefixed = false)
    (few : (terms.map QueryTerm.term ++ tree.positives negated).toFinset.card ≤ maxQueryTerms) :
    ∃ result, collectPositiveTerms items fuel idx negated terms = .ok result := by
  induction tree generalizing fuel idx negated terms with
  | val term prefixed =>
    obtain ⟨fuel, rfl⟩ := Tree.exists_fuel enough
    have item : items[idx]? = some (.val term prefixed) := placed
    simp only [Tree.hasPrefixed] at plain
    simp only [collectPositiveTerms, item, plain, Bool.false_eq_true, if_false]
    split_ifs with negative known full
    · exact ⟨_, rfl⟩
    · exact ⟨_, rfl⟩
    · exfalso
      have fresh := fun member => known ((findQueryTerm_isSome collected term).mpr member)
      have distinct : (terms.map QueryTerm.term ++ [term]).Nodup :=
        List.Nodup.append collected.distinct (by simp) (by simpa using fresh)
      have count := List.toFinset_card_of_nodup distinct
      simp only [Tree.positives, negative] at few
      simp only [List.length_append, List.length_map, List.length_singleton] at count
      simp only [Bool.false_eq_true, if_false] at few
      omega
    · exact ⟨_, rfl⟩
  | not operand ih =>
    obtain ⟨fuel, rfl⟩ := Tree.exists_fuel enough
    simp only [collectPositiveTerms, placed.1]
    exact ih placed.2 (by simp [Tree.size] at enough; omega) collected plain few
  | node connective left right ihLeft ihRight =>
    obtain ⟨fuel, rfl⟩ := Tree.exists_fuel enough
    simp only [Tree.size] at enough
    simp only [Tree.hasPrefixed, Bool.or_eq_false_iff] at plain
    simp only [Tree.positives] at few
    have fewer : (terms.map QueryTerm.term ++ right.positives negated).toFinset ⊆
        (terms.map QueryTerm.term ++ (right.positives negated ++ left.positives negated)).toFinset := by
      intro term
      simp only [List.mem_toFinset, List.mem_append, ← or_assoc]
      exact Or.inl
    obtain ⟨walked, first⟩ := ihRight placed.2.1 (by omega : right.size ≤ fuel) collected plain.2
      ((Finset.card_le_card fewer).trans few)
    have onRight := collectPositiveTerms_spec placed.2.1 (by omega) collected first
    have position : walked.1 = idx + (right.size + 1) := by rw [onRight.next]; omega
    have sameTerms : (walked.2.map QueryTerm.term ++ left.positives negated).toFinset =
        (terms.map QueryTerm.term ++ (right.positives negated ++ left.positives negated)).toFinset := by
      ext term
      simp only [List.mem_toFinset, List.mem_append, onRight.lexemes, or_assoc]
    obtain ⟨result, second⟩ := ihLeft placed.2.2 (by omega : left.size ≤ fuel) onRight.collected
      plain.1 (sameTerms ▸ few)
    refine ⟨result, ?_⟩
    rw [collectPositiveTerms_node placed.1, first]
    show collectPositiveTerms items fuel walked.1 negated walked.2 = .ok result
    rw [position, second]

/-! ### The terms of a query -/

/-- **The terms of a tree's query** are its positive lexemes. -/
theorem extractTerms_spec {tree : Tree} {terms : List QueryTerm}
    (extracted : extractTerms tree.toQuery = .ok terms) :
    Collected tree.flatten terms ∧
      ∀ term, term ∈ terms.map QueryTerm.term ↔ term ∈ tree.positives false := by
  rw [extractTerms, show tree.toQuery.items = tree.flatten from rfl] at extracted
  cases walk : collectPositiveTerms tree.flatten tree.toQuery.size 0 false [] with
  | error message => rw [walk] at extracted; cases extracted
  | ok result =>
    rw [walk] at extracted
    have gathered := collectPositiveTerms_spec (placed_flatten tree) (by simp)
      (collected_nil tree.flatten) walk
    obtain rfl : result.2 = terms := Except.ok.inj extracted
    exact ⟨gathered.collected, fun term => by simpa using gathered.lexemes term⟩

/-- **Extraction succeeds** on every tree without prefix operands and with at most 64 lexemes. -/
theorem extractTerms_total {tree : Tree} (plain : tree.hasPrefixed = false)
    (few : (tree.positives false).toFinset.card ≤ maxQueryTerms) :
    ∃ terms, extractTerms tree.toQuery = .ok terms := by
  obtain ⟨result, walk⟩ := collectPositiveTerms_total (placed_flatten tree)
    (by simp : tree.size ≤ tree.toQuery.size) (collected_nil tree.flatten) plain (by simpa using few)
  refine ⟨result.2, ?_⟩
  rw [extractTerms, show tree.toQuery.items = tree.flatten from rfl, walk]
  rfl

theorem extractTerms_total_pair : ∃ terms,
    extractTerms (Tree.node .phrase (.val [97] false) (.not (.val [98] false))).toQuery = .ok terms :=
  extractTerms_total rfl (by decide)

end TurboHybrid.Query
