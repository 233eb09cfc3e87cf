/-
**Pooling the tokens of a document.**

Seeds are chosen farthest first by their cosines; every token goes to the cluster of largest inner
product, and a cluster's vector becomes the normalized mean of its tokens, or its seed where it has
none. k-means makes four such passes, the greedy mode one.

* `selectSeeds_follows`: the seeds are distinct and follow the plain rule from the first token on;
* `runPass_isPass`: the loop over the tokens assigns each once and sums up the clusters;
* `poolDocumentTokens_right`: what pooling returns.
-/
import TurboHybrid.Library.FarthestFirst
import Mathlib.Algebra.BigOperators.Fin
import Mathlib.Algebra.Field.Defs
import Mathlib.Algebra.Order.Floor.Ring
import Mathlib.Data.Rat.Floor

namespace TurboHybrid.TokenPooling

open TurboHybrid.Library TurboHybrid.Library.FarthestFirst

variable {K : Type*} [Field K] [LinearOrder K] {dim : Nat}

/-! ### Multi-vectors -/

/-- A multi-vector of `count` tokens; entries behind the last are not read. -/
structure TokenVectors (K : Type*) (dim : Nat) where
  count : Nat
  positive : 0 < count
  vector : Nat → Fin dim → K
  hasContexts : Bool

inductive PoolingMode
  | off
  | kmeans
  | greedyCosine
  deriving DecidableEq, Repr

def dotProduct (one other : Fin dim → K) : K :=
  ∑ i, one i * other i

section Arithmetic

variable (sqrt : K → K)

/-- `PgturbohybridMultiVectorTokenNorm`. -/
def tokenNorm (vector : Fin dim → K) : K :=
  if 0 < dotProduct vector vector then sqrt (dotProduct vector vector) else 0

/-- `PgturbohybridMultiVectorTokenCosineWithNorms`. -/
def tokenCosine (one other : Fin dim → K) : K :=
  let denom := tokenNorm sqrt one * tokenNorm sqrt other
  if denom ≤ 0 then 0 else dotProduct one other / denom

/-- `PgturbohybridMultiVectorNormalizeToken`. -/
def normalizeToken (vector : Fin dim → K) : Fin dim → K :=
  if dotProduct vector vector ≤ 0 then vector
  else fun i => vector i / sqrt (dotProduct vector vector)

variable (mv : TokenVectors K dim)

def cosine (one other : Nat) : K :=
  tokenCosine sqrt (mv.vector one) (mv.vector other)

/-! ### Seeds -/

/-- The chosen seeds and, for every other token, its largest cosine to them. -/
structure SeedState (K : Type*) where
  selected : List Nat
  nearest : Nat → K

def firstSeed : SeedState K where
  selected := [0]
  nearest := fun token => cosine sqrt mv token 0

/-- The scan for the token whose nearest seed is least similar. -/
def leastSimilar (state : SeedState K) : Option Nat :=
  scanBest (fun new old => state.nearest new < state.nearest old)
    (fun token => token ∉ state.selected) mv.count

/-- One more seed; without a token left the number of the cluster stands in. -/
def nextSeed (state : SeedState K) (cluster : Nat) : SeedState K :=
  let best := (leastSimilar mv state).getD cluster
  { selected := state.selected ++ [best]
    nearest := fun token =>
      if token ∈ state.selected ++ [best] then state.nearest token
      else if state.nearest token < cosine sqrt mv token best then cosine sqrt mv token best
      else state.nearest token }

def selectSeeds (targetCount : Nat) : SeedState K :=
  (List.range' 1 (targetCount - 1)).foldl (nextSeed sqrt mv) (firstSeed sqrt mv)

/-! ### Clusters -/

/-- The cluster of largest inner product, the first of several. -/
def bestCluster (targetCount : Nat) (centroids : Nat → Fin dim → K) (token : Nat) : Nat :=
  (scanBest (fun new old => dotProduct (mv.vector token) (centroids old) <
      dotProduct (mv.vector token) (centroids new)) (fun _ => True) targetCount).getD 0

structure ClusterSums (K : Type*) (dim : Nat) where
  counts : Nat → Nat
  sums : Nat → Fin dim → K

/-- A token is counted in its cluster and added to its sum. -/
def addToken (targetCount : Nat) (centroids : Nat → Fin dim → K) (clusters : ClusterSums K dim)
    (token : Nat) : ClusterSums K dim :=
  let cluster := bestCluster mv targetCount centroids token
  { counts := Function.update clusters.counts cluster (clusters.counts cluster + 1)
    sums := Function.update clusters.sums cluster fun i =>
      clusters.sums cluster i + mv.vector token i }

/-- One pass: all tokens are assigned, then every cluster gets its new vector. -/
def runPass (targetCount : Nat) (seeds : List Nat) (centroids : Nat → Fin dim → K) :
    Nat → Fin dim → K :=
  let clusters := (List.range mv.count).foldl (addToken mv targetCount centroids)
    { counts := fun _ => 0, sums := fun _ _ => 0 }
  fun cluster =>
    if clusters.counts cluster = 0 then mv.vector (seeds.getD cluster 0)
    else normalizeToken sqrt fun i => clusters.sums cluster i / clusters.counts cluster

def passes (mode : PoolingMode) : Nat :=
  if mode = .kmeans then 4 else 1

def centroidsAfter (targetCount : Nat) (seeds : List Nat) : Nat → Nat → Fin dim → K
  | 0 => fun cluster => mv.vector (seeds.getD cluster 0)
  | pass + 1 => runPass sqrt mv targetCount seeds (centroidsAfter targetCount seeds pass)

/-- `targetCount`: the part of the tokens that is left, rounded up. -/
def targetCountOf (count : Nat) (targetRatio : Rat) : Nat :=
  max 1 (min ⌈(count : Rat) * targetRatio⌉.toNat count)

/-- `PgturbohybridMultiVectorPoolDocumentTokens`. -/
def poolDocumentTokens (mode : PoolingMode) (targetRatio : Rat) (minTokens : Int) :
    Except String (TokenVectors K dim) :=
  if mode = .off ∨ mv.count ≤ 1 ∨ minTokens ≤ 0 ∨ (mv.count : Int) < minTokens ∨
      1 ≤ targetRatio then
    .ok mv
  else if targetRatio ≤ 0 then
    .error "multivector token pooling target ratio must be greater than zero"
  else if mv.count ≤ targetCountOf mv.count targetRatio then .ok mv
  else if mv.hasContexts then
    .error "multivector token pooling does not support context-aware multivectors"
  else
    let targetCount := targetCountOf mv.count targetRatio
    let seeds := (selectSeeds sqrt mv targetCount).selected
    .ok
      { count := targetCount
        positive := Nat.le_max_left ..
        vector := centroidsAfter sqrt mv targetCount seeds (passes mode)
        hasContexts := mv.hasContexts }

/-! ### The seeds -/

/-- Tokens are the nearer the more similar they are. -/
def dissimilarity (one other : Nat) : Kᵒᵈ :=
  OrderDual.toDual (cosine sqrt mv one other)

/-- The seeds so far follow the rule, and the table holds the largest cosines to them. -/
structure SeedsRight (seeds : Nat) (state : SeedState K) : Prop where
  follows : ∃ picked, state.selected = [0] ++ picked ∧ picked.length = seeds ∧
    FollowsRule (fun token => token < mv.count) (dissimilarity sqrt mv) [0] picked
  table : ∀ token, token ∉ state.selected →
    IsSmallest (dissimilarity sqrt mv) state.selected token (OrderDual.toDual (state.nearest token))

variable {sqrt mv}

theorem firstSeed_right : SeedsRight sqrt mv 0 (firstSeed sqrt mv) := by
  refine ⟨⟨[], rfl, rfl, trivial⟩, fun token _ => ⟨⟨0, List.mem_cons_self, rfl⟩, ?_⟩⟩
  intro one member
  rw [List.mem_singleton.mp member]
  exact le_rfl

theorem SeedsRight.nextSeed {seeds cluster : Nat} {state : SeedState K}
    (right : SeedsRight sqrt mv seeds state) (room : seeds + 1 < mv.count) :
    SeedsRight sqrt mv (seeds + 1) (nextSeed sqrt mv state cluster) := by
  obtain ⟨⟨picked, chosen, length, follows⟩, table⟩ := right
  have ordered (old new : Nat) (_ : old < new) : state.nearest new < state.nearest old ↔
      OrderDual.toDual (state.nearest old) < OrderDual.toDual (state.nearest new) := Iff.rfl
  obtain ⟨best, found⟩ : ∃ best, leastSimilar mv state = some best := by
    rcases scan : leastSimilar mv state with _ | best
    · have closed := (scanBest_spec ordered).2 scan
      have inside : List.range mv.count ⊆ state.selected := fun token member =>
        not_not.mp (closed token (List.mem_range.mp member))
      have many := (List.subperm_of_subset List.nodup_range inside).length_le
      rw [List.length_range, chosen, List.length_append, List.length_singleton] at many
      omega
    · exact ⟨best, rfl⟩
  have isBest := (scanBest_spec ordered).1 best found
  have next : IsNext (fun token => token < mv.count) (dissimilarity sqrt mv) state.selected best :=
    by
      refine ⟨isBest.inside, isBest.opened, fun other least otherLeast ready new here there => ?_⟩
      rw [here.unique (table best isBest.opened), there.unique (table other new)]
      exact isBest.most other ready new
  have grown : (TokenPooling.nextSeed sqrt mv state cluster).selected =
      state.selected ++ [best] := by
    rw [TokenPooling.nextSeed, found]
    rfl
  refine ⟨⟨picked ++ [best], ?_, ?_, ?_⟩, fun token new => ?_⟩
  · rw [grown, chosen, List.append_assoc]
  · rw [List.length_append, List.length_singleton, length]
  · exact followsRule_append follows (chosen ▸ next)
  · have outside := new
    rw [grown] at outside ⊢
    have before := table token fun member => outside (List.mem_append_left _ member)
    convert before.add using 1
    rw [TokenPooling.nextSeed, found]
    dsimp only [Option.getD_some]
    rw [if_neg outside]
    split_ifs with closer
    · have nearer : dissimilarity sqrt mv token best ≤ OrderDual.toDual (state.nearest token) :=
        closer.le
      exact (min_eq_right nearer).symm
    · have farther : OrderDual.toDual (state.nearest token) ≤ dissimilarity sqrt mv token best :=
        not_lt.mp closer
      exact (min_eq_left farther).symm

/-- **The seeds** are distinct tokens and follow the plain rule from the first token on. -/
theorem selectSeeds_right {targetCount : Nat} (room : targetCount < mv.count) :
    SeedsRight sqrt mv (targetCount - 1) (selectSeeds sqrt mv targetCount) := by
  have run (seeds : Nat) (bound : seeds < mv.count) : SeedsRight sqrt mv seeds
      ((List.range' 1 seeds).foldl (nextSeed sqrt mv) (firstSeed sqrt mv)) := by
    induction seeds with
    | zero => exact firstSeed_right
    | succ seeds ih =>
      rw [List.range'_1_concat, List.foldl_append]
      exact (ih (by omega)).nextSeed bound
  exact run _ (by omega)

/-! ### A pass -/

variable (mv) in
def members (assign : Nat → Nat) (cluster : Nat) : List Nat :=
  (List.range mv.count).filter fun token => assign token = cluster

variable (sqrt mv) in
/-- **A pass**: every token has one cluster, of largest inner product; a cluster becomes the
normalized mean of its tokens, or its seed where it has none. -/
def IsPass (targetCount : Nat) (seeds : List Nat) (before after : Nat → Fin dim → K) : Prop :=
  ∃ assign : Nat → Nat,
    (∀ token, assign token < targetCount ∧ ∀ cluster < targetCount,
      dotProduct (mv.vector token) (before cluster) ≤
        dotProduct (mv.vector token) (before (assign token))) ∧
    ∀ cluster, after cluster =
      if members mv assign cluster = [] then mv.vector (seeds.getD cluster 0)
      else normalizeToken sqrt fun i =>
        ((members mv assign cluster).map fun token => mv.vector token i).sum /
          (members mv assign cluster).length

theorem bestCluster_largest {targetCount : Nat} (positive : 0 < targetCount)
    (centroids : Nat → Fin dim → K) (token : Nat) :
    bestCluster mv targetCount centroids token < targetCount ∧ ∀ cluster < targetCount,
      dotProduct (mv.vector token) (centroids cluster) ≤
        dotProduct (mv.vector token) (centroids (bestCluster mv targetCount centroids token)) := by
  have spec := @scanBest_spec K _ (fun new old => dotProduct (mv.vector token) (centroids old) <
    dotProduct (mv.vector token) (centroids new)) _ (fun _ => True) _
    (fun cluster => dotProduct (mv.vector token) (centroids cluster)) targetCount
    (fun _ _ _ => Iff.rfl)
  rw [bestCluster]
  rcases scan : scanBest (fun new old => dotProduct (mv.vector token) (centroids old) <
    dotProduct (mv.vector token) (centroids new)) (fun _ => True) targetCount with _ | best
  · exact absurd trivial (spec.2 scan 0 positive)
  · have isBest := spec.1 best scan
    refine ⟨isBest.inside, fun cluster inside => ?_⟩
    rcases isBest.most cluster inside trivial with less | ⟨same, -⟩
    · exact less.le
    · exact same.le

/-- **The loop over the tokens** counts and sums up each cluster. -/
theorem addToken_sums (targetCount : Nat) (centroids : Nat → Fin dim → K) (n cluster : Nat) :
    let clusters := (List.range n).foldl (addToken mv targetCount centroids)
      { counts := fun _ => 0, sums := fun _ _ => 0 }
    let inside := (List.range n).filter fun token =>
      bestCluster mv targetCount centroids token = cluster
    clusters.counts cluster = inside.length ∧
      ∀ i, clusters.sums cluster i = (inside.map fun token => mv.vector token i).sum := by
  induction n with
  | zero => exact ⟨rfl, fun _ => rfl⟩
  | succ n ih =>
    dsimp only at ih ⊢
    obtain ⟨counted, summed⟩ := ih
    rw [List.range_succ, List.foldl_append, List.foldl_cons, List.foldl_nil, List.filter_append,
      List.filter_singleton]
    by_cases here : bestCluster mv targetCount centroids n = cluster
    · simp only [addToken, here, Function.update_self, decide_true, Bool.cond_true,
        List.length_append, List.length_singleton, List.map_append, List.map_cons, List.map_nil,
        List.sum_append, List.sum_singleton, counted, summed]
      exact ⟨trivial, fun _ => trivial⟩
    · have other : cluster ≠ bestCluster mv targetCount centroids n := Ne.symm here
      simp only [addToken, here, Function.update_of_ne other, decide_false, Bool.cond_false,
        List.append_nil]
      exact ⟨counted, summed⟩

theorem runPass_isPass {targetCount : Nat} (positive : 0 < targetCount) (seeds : List Nat)
    (centroids : Nat → Fin dim → K) :
    IsPass sqrt mv targetCount seeds centroids
      (runPass sqrt mv targetCount seeds centroids) := by
  refine ⟨bestCluster mv targetCount centroids, bestCluster_largest positive centroids,
    fun cluster => ?_⟩
  obtain ⟨counted, summed⟩ := @addToken_sums _ _ _ _ mv targetCount centroids mv.count cluster
  rw [runPass]
  dsimp only
  rw [counted]
  simp only [summed, List.length_eq_zero_iff]
  rfl

/-! ### The pooled document -/

variable (sqrt mv) in
/-- **A pooled document**: as many vectors as the ratio asks for, from seeds chosen farthest first
from the first token on, after the passes of the mode. -/
structure Pooled (mode : PoolingMode) (targetRatio : Rat) (pooled : TokenVectors K dim) : Prop where
  count : pooled.count = max 1 ⌈(mv.count : Rat) * targetRatio⌉.toNat
  plain : pooled.hasContexts = false
  vectors : ∃ picked, (0 :: picked).Nodup ∧ (0 :: picked).length = pooled.count ∧
    (∀ token ∈ 0 :: picked, token < mv.count) ∧
    FollowsRule (fun token => token < mv.count) (dissimilarity sqrt mv) [0] picked ∧
    ∃ centroids : Nat → Nat → Fin dim → K,
      (∀ cluster, centroids 0 cluster = mv.vector ((0 :: picked).getD cluster 0)) ∧
      (∀ pass < passes mode,
        IsPass sqrt mv pooled.count (0 :: picked) (centroids pass) (centroids (pass + 1))) ∧
      pooled.vector = centroids (passes mode)

/-- **Pooling** returns its input, or a pooled document, or refuses a ratio that is not positive or
a multi-vector with contexts. -/
theorem poolDocumentTokens_right (sqrt : K → K) (mv : TokenVectors K dim) (mode : PoolingMode)
    (targetRatio : Rat) (minTokens : Int) :
    poolDocumentTokens sqrt mv mode targetRatio minTokens = .ok mv ∨
      (∃ pooled, poolDocumentTokens sqrt mv mode targetRatio minTokens = .ok pooled ∧
        Pooled sqrt mv mode targetRatio pooled) ∨
      ∃ message, poolDocumentTokens sqrt mv mode targetRatio minTokens = .error message ∧
        (targetRatio ≤ 0 ∨ mv.hasContexts = true) := by
  rw [poolDocumentTokens]
  split_ifs with unchanged negative many contexts
  · exact .inl rfl
  · exact .inr (.inr ⟨_, rfl, .inl negative⟩)
  · exact .inl rfl
  · exact .inr (.inr ⟨_, rfl, .inr contexts⟩)
  · refine .inr (.inl ⟨_, rfl, ?_⟩)
    rw [not_le] at many
    obtain ⟨⟨picked, chosen, length, follows⟩, -⟩ := @selectSeeds_right _ _ _ _ sqrt _ _ many
    have positive : 0 < targetCountOf mv.count targetRatio := Nat.le_max_left ..
    refine ⟨?_, Bool.eq_false_iff.mpr contexts, picked, ?_, ?_, fun token member => ?_, follows,
      centroidsAfter sqrt mv _ _, fun cluster => ?_, fun pass _ => ?_, rfl⟩
    · show targetCountOf mv.count targetRatio = _
      rw [targetCountOf] at many ⊢
      have some_ := mv.positive
      omega
    · exact follows.distinct (List.nodup_singleton 0)
    · show picked.length + 1 = targetCountOf mv.count targetRatio
      omega
    · rcases List.mem_cons.mp member with rfl | inside
      · exact mv.positive
      · exact follows.ready token inside
    · rw [centroidsAfter, chosen]
      rfl
    · have step := @runPass_isPass _ _ _ _ sqrt mv _ positive (0 :: picked)
        (centroidsAfter sqrt mv (targetCountOf mv.count targetRatio)
          (selectSeeds sqrt mv (targetCountOf mv.count targetRatio)).selected pass)
      rw [centroidsAfter]
      rw [chosen] at step ⊢
      exact step

end Arithmetic

end TurboHybrid.TokenPooling
