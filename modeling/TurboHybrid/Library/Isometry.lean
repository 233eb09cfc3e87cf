/-
**Linear maps in place that scale inner products.**

A pass over an array of numbers is linear on a set of positions, multiplies every inner product
over it by a constant and writes nothing else (`Scales`):

* `Scales.comp`: one pass after another on the same positions, the constants multiply;
* `Scales.union`, `Scales.foldl_disjoint`: passes over disjoint positions;
* `Scales.mono`: a pass of constant one keeps the inner products over any larger set;
* `scales_butterfly`, `scales_multiply`: a sum and difference of two positions, a multiplication by
  one factor.
-/
import Mathlib.Algebra.BigOperators.Group.Finset.Basic
import Mathlib.Algebra.BigOperators.Ring.Finset
import Mathlib.Algebra.Module.Pi
import Mathlib.Tactic.LinearCombination
import Mathlib.Tactic.Ring

set_option linter.unusedSectionVars false

namespace TurboHybrid.Library

variable {ι K : Type*} [DecidableEq ι] [CommRing K]

/-- **A pass over the positions of `places`** that multiplies inner products by `factor`. -/
structure Scales (places : Finset ι) (factor : K) (pass : (ι → K) → ι → K) : Prop where
  add : ∀ x y, pass (x + y) = pass x + pass y
  smul : ∀ (a : K) x, pass (a • x) = a • pass x
  inner : ∀ x y, ∑ i ∈ places, pass x i * pass y i = factor * ∑ i ∈ places, x i * y i
  frame : ∀ x, ∀ i ∉ places, pass x i = x i
  localTo : ∀ x y, (∀ i ∈ places, x i = y i) → ∀ i ∈ places, pass x i = pass y i

namespace Scales

variable {places others : Finset ι} {factor other : K} {pass next : (ι → K) → ι → K}

theorem id : Scales places (1 : K) fun x => x :=
  ⟨fun _ _ => rfl, fun _ _ => rfl, fun _ _ => (one_mul _).symm, fun _ _ _ => rfl,
    fun _ _ same => same⟩

theorem congr (scales : Scales places factor pass) (same : ∀ x, next x = pass x) :
    Scales places factor next := by
  rw [funext same]
  exact scales

/-- **One pass after another.** -/
theorem comp (first : Scales places factor pass) (second : Scales places other next) :
    Scales places (other * factor) fun x => next (pass x) where
  add x y := by rw [first.add, second.add]
  smul a x := by rw [first.smul, second.smul]
  inner x y := by rw [second.inner, first.inner, mul_assoc]
  frame x i outside := by rw [second.frame _ i outside, first.frame x i outside]
  localTo x y same := second.localTo _ _ (first.localTo x y same)

/-- **Passes over disjoint positions** with one factor. -/
theorem union (first : Scales places factor pass) (second : Scales others factor next)
    (apart : Disjoint places others) :
    Scales (places ∪ others) factor fun x => next (pass x) where
  add x y := by rw [first.add, second.add]
  smul a x := by rw [first.smul, second.smul]
  inner x y := by
    have left : ∀ z, ∀ i ∈ places, next (pass z) i = pass z i := fun z i member =>
      second.frame _ i (Finset.disjoint_left.mp apart member)
    have right : ∀ z, ∀ i ∈ others, pass z i = z i := fun z i member =>
      first.frame _ i (Finset.disjoint_right.mp apart member)
    have early : ∑ i ∈ places, next (pass x) i * next (pass y) i =
        ∑ i ∈ places, pass x i * pass y i :=
      Finset.sum_congr rfl fun i member => by rw [left x i member, left y i member]
    have late : ∑ i ∈ others, pass x i * pass y i = ∑ i ∈ others, x i * y i :=
      Finset.sum_congr rfl fun i member => by rw [right x i member, right y i member]
    rw [Finset.sum_union apart, Finset.sum_union apart, mul_add, second.inner, ← first.inner,
      early, late]
  frame x i outside := by
    rw [Finset.mem_union, not_or] at outside
    rw [second.frame _ i outside.2, first.frame x i outside.1]
  localTo x y same i member := by
    have before : ∀ j ∈ places ∪ others, pass x j = pass y j := by
      intro j inside
      by_cases early : j ∈ places
      · exact first.localTo x y (fun k mem => same k (Finset.mem_union_left _ mem)) j early
      · rw [first.frame x j early, first.frame y j early, same j inside]
    by_cases late : i ∈ others
    · exact second.localTo _ _ (fun j mem => before j (Finset.mem_union_right _ mem)) i late
    · rw [second.frame _ i late, second.frame _ i late, before i member]

theorem mono (scales : Scales places (1 : K) pass) (larger : places ⊆ others) :
    Scales others (1 : K) pass where
  add := scales.add
  smul := scales.smul
  inner x y := by
    have rest : ∀ z w : ι → K, ∑ i ∈ others, z i * w i =
        ∑ i ∈ places, z i * w i + ∑ i ∈ others \ places, z i * w i := fun z w => by
      rw [add_comm, Finset.sum_sdiff larger]
    have kept : ∀ i ∈ others \ places, pass x i * pass y i = x i * y i := fun i member => by
      have outside := (Finset.mem_sdiff.mp member).2
      rw [scales.frame x i outside, scales.frame y i outside]
    rw [one_mul, rest, rest x y, scales.inner, one_mul, Finset.sum_congr rfl kept]
  frame x i outside := scales.frame x i fun member => outside (larger member)
  localTo x y same i member := by
    by_cases inside : i ∈ places
    · exact scales.localTo x y (fun j mem => same j (larger mem)) i inside
    · rw [scales.frame x i inside, scales.frame y i inside, same i member]

theorem foldl {α : Type*} {passes : α → (ι → K) → ι → K} (items : List α)
    (each : ∀ item ∈ items, Scales places (1 : K) (passes item)) :
    Scales places (1 : K) fun x => items.foldl (fun x item => passes item x) x := by
  induction items with
  | nil => exact id
  | cons item items ih =>
    have tail := ih fun other member => each other (List.mem_cons_of_mem _ member)
    have both := (each item List.mem_cons_self).comp tail
    rw [one_mul] at both
    exact both

/-- **Passes over pairwise disjoint positions**, one for each item of a list. -/
theorem foldl_disjoint {α : Type*} [DecidableEq α] {passes : α → (ι → K) → ι → K}
    {area : α → Finset ι} (items : List α)
    (each : ∀ item ∈ items, Scales (area item) factor (passes item))
    (apart : items.Pairwise fun first second => Disjoint (area first) (area second)) :
    Scales (items.toFinset.biUnion area) factor
      fun x => items.foldl (fun x item => passes item x) x := by
  induction items with
  | nil =>
    exact ⟨fun _ _ => rfl, fun _ _ => rfl, fun _ _ => by simp, fun _ _ _ => rfl,
      fun _ _ same => same⟩
  | cons item items ih =>
    rw [List.pairwise_cons] at apart
    have tail := ih (fun other member => each other (List.mem_cons_of_mem _ member)) apart.2
    have disjoint : Disjoint (area item) (items.toFinset.biUnion area) := by
      rw [Finset.disjoint_biUnion_right]
      exact fun other member => apart.1 other (List.mem_toFinset.mp member)
    have both := (each item List.mem_cons_self).union tail disjoint
    rw [List.toFinset_cons, Finset.biUnion_insert]
    exact both

end Scales

/-! ### Three elementary passes -/

def exchange (i j : ι) (x : ι → K) : ι → K :=
  Function.update (Function.update x i (x j)) j (x i)

theorem exchange_apply (i j : ι) (x : ι → K) (k : ι) :
    exchange i j x k = x (Equiv.swap i j k) := by
  unfold exchange
  by_cases last : k = j
  · rw [last, Function.update_self, Equiv.swap_apply_right]
  · rw [Function.update_of_ne last]
    by_cases first : k = i
    · rw [first, Function.update_self, Equiv.swap_apply_left]
    · rw [Function.update_of_ne first, Equiv.swap_apply_of_ne_of_ne first last]

/-- **An exchange keeps inner products.** -/
theorem scales_exchange {places : Finset ι} {i j : ι} (first : i ∈ places) (second : j ∈ places) :
    Scales places (1 : K) (exchange i j) where
  add x y := by
    ext k
    simp only [exchange_apply, Pi.add_apply]
  smul a x := by
    ext k
    simp only [exchange_apply, Pi.smul_apply]
  inner x y := by
    have inside : ∀ k, k ∈ places ↔ Equiv.swap i j k ∈ places := by
      intro k
      by_cases early : k = i
      · rw [early, Equiv.swap_apply_left]
        exact iff_of_true first second
      · by_cases late : k = j
        · rw [late, Equiv.swap_apply_right]
          exact iff_of_true second first
        · rw [Equiv.swap_apply_of_ne_of_ne early late]
    rw [one_mul]
    refine Finset.sum_equiv (Equiv.swap i j) inside fun k _ => ?_
    rw [exchange_apply, exchange_apply]
  frame x k outside := by
    have early : k ≠ i := fun same => outside (same ▸ first)
    have late : k ≠ j := fun same => outside (same ▸ second)
    rw [exchange_apply, Equiv.swap_apply_of_ne_of_ne early late]
  localTo x y same k member := by
    rw [exchange_apply, exchange_apply]
    refine same _ ?_
    by_cases early : k = i
    · rw [early, Equiv.swap_apply_left]
      exact second
    · by_cases late : k = j
      · rw [late, Equiv.swap_apply_right]
        exact first
      · rw [Equiv.swap_apply_of_ne_of_ne early late]
        exact member

/-- The sum and the difference of two positions in their places. -/
def butterfly (i j : ι) (x : ι → K) : ι → K :=
  Function.update (Function.update x i (x i + x j)) j (x i - x j)

theorem butterfly_left {i j : ι} (apart : i ≠ j) (x : ι → K) :
    butterfly i j x i = x i + x j := by
  rw [butterfly, Function.update_of_ne apart, Function.update_self]

theorem butterfly_right (i j : ι) (x : ι → K) : butterfly i j x j = x i - x j := by
  rw [butterfly, Function.update_self]

theorem butterfly_of_ne {i j k : ι} (first : k ≠ i) (second : k ≠ j) (x : ι → K) :
    butterfly i j x k = x k := by
  rw [butterfly, Function.update_of_ne second, Function.update_of_ne first]

/-- **A butterfly doubles inner products.** -/
theorem scales_butterfly {i j : ι} (apart : i ≠ j) :
    Scales {i, j} ((1 : K) + 1) (butterfly i j) where
  add x y := by
    ext k
    by_cases right : k = j
    · rw [right, Pi.add_apply]
      simp only [butterfly_right, Pi.add_apply]
      ring
    · by_cases left : k = i
      · rw [left, Pi.add_apply]
        simp only [butterfly_left apart, Pi.add_apply]
        ring
      · simp only [Pi.add_apply, butterfly_of_ne left right]
  smul a x := by
    ext k
    by_cases right : k = j
    · rw [right, Pi.smul_apply]
      simp only [butterfly_right, Pi.smul_apply, smul_eq_mul]
      ring
    · by_cases left : k = i
      · rw [left, Pi.smul_apply]
        simp only [butterfly_left apart, Pi.smul_apply, smul_eq_mul]
        ring
      · simp only [Pi.smul_apply, butterfly_of_ne left right]
  inner x y := by
    rw [Finset.sum_pair apart, Finset.sum_pair apart, butterfly_left apart, butterfly_left apart,
      butterfly_right, butterfly_right]
    ring
  frame x k outside := by
    rw [Finset.mem_insert, Finset.mem_singleton, not_or] at outside
    exact butterfly_of_ne outside.1 outside.2 x
  localTo x y same k member := by
    have left := same i (Finset.mem_insert_self _ _)
    have right := same j (Finset.mem_insert_of_mem (Finset.mem_singleton_self _))
    rcases Finset.mem_insert.mp member with rfl | last
    · rw [butterfly_left apart, butterfly_left apart, left, right]
    · rw [Finset.mem_singleton.mp last, butterfly_right, butterfly_right, left, right]

/-- The positions of a set multiplied by one factor. -/
def multiply (places : Finset ι) (a : K) (x : ι → K) : ι → K :=
  fun i => if i ∈ places then x i * a else x i

/-- **A multiplication by one factor** scales inner products by its square. -/
theorem scales_multiply (places : Finset ι) (a : K) :
    Scales places (a * a) (multiply places a) where
  add x y := by
    ext k
    simp only [multiply, Pi.add_apply]
    split <;> ring
  smul b x := by
    ext k
    simp only [multiply, Pi.smul_apply, smul_eq_mul]
    split <;> ring
  inner x y := by
    rw [Finset.mul_sum]
    refine Finset.sum_congr rfl fun k member => ?_
    rw [multiply, multiply, if_pos member, if_pos member]
    ring
  frame x k outside := if_neg outside
  localTo x y same k member := by
    rw [multiply, multiply, if_pos member, if_pos member, same k member]

end TurboHybrid.Library
