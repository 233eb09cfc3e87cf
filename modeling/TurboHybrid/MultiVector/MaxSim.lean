/-
**The exact score of a document under a multi-vector query.**

A query token scores its best inner product with the document's tokens; the document scores the
weighted sum over the query tokens that are not masked. An index that scores by context takes the
best of the document's contexts.

* `maxSimWeighted_of_no_weights`: without weights and masks every query token counts once.
-/
import Mathlib.Algebra.BigOperators.Group.List.Basic
import Mathlib.Algebra.Order.Ring.Rat
import Mathlib.Data.List.MinMax
import Mathlib.Tactic.Common

namespace TurboHybrid.MaxSim

/-- A multi-vector that passed its checks. A document without contexts has no context offsets. -/
structure MultiVector where
  dim : Nat
  values : List (List Rat)
  contextOffsets : List Nat
  nonempty : values ≠ []
  rows : ∀ row ∈ values, row.length = dim
  contexts : contextOffsets = [] ∨ contextOffsets.head? = some 0
  rising : contextOffsets.Pairwise (· < ·)
  inside : ∀ start ∈ contextOffsets, start < values.length

namespace MultiVector

def count (multiVector : MultiVector) : Nat := multiVector.values.length

def hasContexts (multiVector : MultiVector) : Bool := !multiVector.contextOffsets.isEmpty

end MultiVector

/-! ### Token scores -/

def dotProduct (one other : List Rat) : Rat := (List.zipWith (· * ·) one other).sum

/-- The best inner product of a query token with a range of document tokens. -/
def bestDot (queryRow : List Rat) (tokens : List (List Rat)) : Rat :=
  (tokens.map (dotProduct queryRow)).max?.getD 0

/-- The weights and the mask of a query's tokens; a query may have neither. -/
structure QueryTokens where
  weights : Option (List Rat)
  mask : Option (List Bool)
  nonneg : ∀ list ∈ weights, ∀ weight ∈ list, 0 ≤ weight

namespace QueryTokens

def weight (tokens : QueryTokens) (qi : Nat) : Rat :=
  match tokens.weights with
  | some weights => weights.getD qi 1
  | none => 1

def masked (tokens : QueryTokens) (qi : Nat) : Bool :=
  match tokens.mask with
  | some mask => mask.getD qi false
  | none => false

end QueryTokens

def tokenScore (tokens : QueryTokens) (range : List (List Rat)) (row : List Rat) (qi : Nat) :
    Rat :=
  if tokens.masked qi then 0
  else if tokens.weight qi = 0 then 0
  else tokens.weight qi * bestDot row range

def maxSimTokenRangeWeighted (query : MultiVector) (tokens : QueryTokens)
    (range : List (List Rat)) : Rat :=
  (query.values.zipIdx.map fun token => tokenScore tokens range token.1 token.2).sum

def maxSimWeighted (query doc : MultiVector) (tokens : QueryTokens) : Rat :=
  maxSimTokenRangeWeighted query tokens doc.values

/-! ### Contexts -/

/-- The ranges that start at each offset and end at the next. -/
def rangesFrom (values : List (List Rat)) : List Nat → List (List (List Rat))
  | [] => []
  | [start] => [values.drop start]
  | start :: next :: rest =>
    (values.drop start).take (next - start) :: rangesFrom values (next :: rest)

def contextRanges (doc : MultiVector) : List (List (List Rat)) :=
  rangesFrom doc.values doc.contextOffsets

def maxSimContextLevelWeighted (query doc : MultiVector) (tokens : QueryTokens) : Rat :=
  if doc.hasContexts then
    ((contextRanges doc).map (maxSimTokenRangeWeighted query tokens)).max?.getD 0
  else maxSimWeighted query doc tokens

def indexMaxSim (contextLevel : Bool) (query doc : MultiVector) (tokens : QueryTokens) : Rat :=
  if contextLevel then maxSimContextLevelWeighted query doc tokens
  else maxSimWeighted query doc tokens

theorem maxSimWeighted_of_no_weights (query doc : MultiVector) {tokens : QueryTokens}
    (plain : tokens.weights = none) (unmasked : tokens.mask = none) :
    maxSimWeighted query doc tokens =
      (query.values.map fun row => bestDot row doc.values).sum := by
  have each (row : List Rat) (qi : Nat) : tokenScore tokens doc.values row qi =
      bestDot row doc.values := by
    simp [tokenScore, QueryTokens.masked, QueryTokens.weight, plain, unmasked]
  rw [maxSimWeighted, maxSimTokenRangeWeighted]
  simp only [each]
  conv_rhs => rw [← List.zipIdx_map_fst 0 query.values, List.map_map]
  rfl

end TurboHybrid.MaxSim
