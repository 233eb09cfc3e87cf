/-
**Selections that ignore hopeless elements.**

An element that at least `k` others come before is not among the `k` least. Where the elements of
a list are computed and some of them are given up with a substitute, the selection is the same as
long as the substitute and the true element both stay behind `k` of the others.

* `best_append_behind`: hopeless elements change nothing;
* `best_eq_of_substitutes`: two lists that agree on all but hopeless elements have the same best;
* `skipAll_same_iff`: when a bounded heap that skips elements keeps the best of all.
-/
import TurboHybrid.Library.BoundedHeap
import Mathlib.Algebra.BigOperators.Group.List.Basic
import Mathlib.Algebra.Order.Monoid.Defs

set_option linter.unusedSectionVars false

namespace TurboHybrid.Library.TopK

variable {α β : Type*} [LinearOrder α]

theorem length_filter_best (k : Nat) (items : List α) (item : α) :
    ((best k items).filter fun other => other ≤ item).length =
      min k (items.filter fun other => other ≤ item).length := by
  obtain ⟨rest, perm, below⟩ := (best_selects k items).split
  have count := (perm.filter fun other => other ≤ item).length_eq
  rw [List.filter_append, List.length_append] at count
  have bound := List.length_filter_le (fun other => decide (other ≤ item)) (best k items)
  have chosen := (best_selects k items).count
  have lengths := perm.length_eq
  rw [List.length_append] at lengths
  by_cases late : ∃ other ∈ rest, other ≤ item
  · obtain ⟨other, left, early⟩ := late
    have all : (best k items).filter (fun other => other ≤ item) = best k items :=
      List.filter_eq_self.mpr fun one member => by
        simpa using (below one member other left).trans early
    have some_ := List.length_pos_of_mem left
    rw [all] at count ⊢
    omega
  · have none_ : rest.filter (fun other => other ≤ item) = [] :=
      List.filter_eq_nil_iff.mpr fun other left => by
        simpa using fun early => late ⟨other, left, early⟩
    rw [none_] at count
    simp only [List.length_nil] at count
    omega

/-- **Further elements change nothing** exactly if each of them is behind `k` others. -/
theorem best_append_iff {k : Nat} {items late : List α} :
    best k (items ++ late) = best k items ↔
      ∀ other ∈ late, k ≤ (items.filter fun item => item ≤ other).length := by
  constructor
  · intro same other member
    have whole := length_filter_best k (items ++ late) other
    rw [same, length_filter_best, List.filter_append, List.length_append] at whole
    have itself : other ∈ late.filter fun item => item ≤ other :=
      List.mem_filter.mpr ⟨member, by simp⟩
    have := List.length_pos_of_mem itself
    omega
  · intro behind
    obtain ⟨rest, perm, below⟩ := (best_selects k items).split
    have selects : Selects k (items ++ late) (best k items) := by
      refine ⟨⟨rest ++ late, ?_, ?_⟩, ?_⟩
      · rw [← List.append_assoc]
        exact perm.append_right late
      · intro one member other member'
        rcases List.mem_append.mp member' with left | hopeless
        · exact below one member other left
        · by_contra above
          have early : (items.filter fun item => item ≤ other).Sublist
              (items.filter fun item => item < one) := by
            apply List.monotone_filter_right
            intro item before
            simpa using (of_decide_eq_true before).trans_lt (not_le.mp above)
          have few := before_lt_of_mem_best member
          have many := behind other hopeless
          have := early.length_le
          omega
      · have count := (best_selects k items).count
        rcases late with _ | ⟨other, late⟩
        · simpa using count
        · have many := behind other List.mem_cons_self
          have bound := List.length_filter_le (fun item => decide (item ≤ other)) items
          rw [count, List.length_append]
          omega
    rw [← selects.sort_eq, (best_selects k items).sort_eq]

/-- **Hopeless elements** change nothing. -/
theorem best_append_behind {k : Nat} {items late : List α}
    (behind : ∀ other ∈ late, k ≤ (items.filter fun item => item < other).length) :
    best k (items ++ late) = best k items := by
  refine best_append_iff.mpr fun other member => (behind other member).trans ?_
  apply List.Sublist.length_le
  apply List.monotone_filter_right
  intro item before
  simpa using (of_decide_eq_true before).le

/-- The elements of a lower part come before all others. -/
def LowerPart (low : α → Prop) : Prop := ∀ one other, low one → ¬low other → one < other

/-- An element with its actual value, or a substitute for a hopeless one. -/
def Substituted (low : α → Prop) (givenUp : β → Bool) (value actual : β → α) (item : β) : Prop :=
  if givenUp item then ¬low (value item) ∧ ¬low (actual item) else value item = actual item

variable {low : α → Prop} [DecidablePred low] {givenUp : β → Bool} {value actual : β → α}

theorem perm_givenUp (items : List β) (f : β → α) : (items.map f).Perm
    ((items.filter fun item => !givenUp item).map f ++
      (items.filter fun item => givenUp item).map f) := by
  rw [← List.map_append]
  refine (List.Perm.trans ?_ List.perm_append_comm).map f
  exact (List.filter_append_perm givenUp items).symm

/-- **Two lists that agree on all but hopeless elements** have the same best. -/
theorem best_eq_of_substitutes (lower : LowerPart low) {k : Nat} {items : List β}
    (same : ∀ item ∈ items, Substituted low givenUp value actual item)
    (many : k ≤ items.countP fun item => !givenUp item && decide (low (value item))) :
    best k (items.map value) = best k (items.map actual) := by
  have kept : (items.filter fun item => !givenUp item).map value =
      (items.filter fun item => !givenUp item).map actual := by
    apply List.map_congr_left
    intro item member
    obtain ⟨inside, plain⟩ := List.mem_filter.mp member
    have here := same item inside
    rw [Substituted, if_neg (by simpa using plain)] at here
    exact here
  have behind (f : β → α) (late : ∀ item ∈ items, givenUp item → ¬low (f item)) :
      ∀ other ∈ (items.filter fun item => givenUp item).map f,
        k ≤ (((items.filter fun item => !givenUp item).map value).filter
          fun item => item < other).length := by
    intro other member
    obtain ⟨item, inside, rfl⟩ := List.mem_map.mp member
    obtain ⟨inside, hopeless⟩ := List.mem_filter.mp inside
    have above := late item inside hopeless
    refine many.trans ?_
    rw [List.countP_eq_length_filter, List.filter_map, List.length_map, List.filter_filter]
    apply List.Sublist.length_le
    apply List.monotone_filter_right
    intro other early
    simp only [Bool.and_eq_true, decide_eq_true_eq, Function.comp_apply] at early ⊢
    exact ⟨lower _ _ early.2 above, early.1⟩
  have values (item : β) (inside : item ∈ items) (hopeless : givenUp item) :
      ¬low (value item) ∧ ¬low (actual item) := by
    have here := same item inside
    rwa [Substituted, if_pos hopeless] at here
  rw [best_perm (perm_givenUp items value),
    best_perm (perm_givenUp items actual),
    best_append_behind (behind value fun item inside hopeless => (values item inside hopeless).1),
    kept, best_append_behind]
  rw [← kept]
  exact behind actual fun item inside hopeless => (values item inside hopeless).2

end TurboHybrid.Library.TopK

/-! ### A heap that skips elements -/

namespace TurboHybrid.Library.BoundedHeap

variable {ι α K : Type*} [LinearOrder K] {key : α → K} {worse : α → α → Bool} {k : Nat}

/-- A heap, with the items that were offered to it and those that were skipped. -/
structure SkipState (ι α : Type*) where
  heap : Array α
  offered : List ι
  skipped : List ι

/-- An item is offered, unless the test says to skip it. -/
def skipOffer (worse : α → α → Bool) (k : Nat) (value : ι → α) (skips : Array α → ι → Bool)
    (state : SkipState ι α) (item : ι) : SkipState ι α :=
  if skips state.heap item then { state with skipped := state.skipped ++ [item] }
  else
    { state with
      heap := offer worse k state.heap (value item)
      offered := state.offered ++ [item] }

def skipAll (worse : α → α → Bool) (k : Nat) (value : ι → α) (skips : Array α → ι → Bool)
    (items : List ι) : SkipState ι α :=
  items.foldl (skipOffer worse k value skips) ⟨#[], [], []⟩

variable {value : ι → α} {skips : Array α → ι → Bool}

/-- The heap after a stream is that of the offered items. -/
structure SkipsOf (worse : α → α → Bool) (k : Nat) (value : ι → α) (seen : List ι)
    (state : SkipState ι α) : Prop where
  heap : state.heap = (state.offered.map value).foldl (offer worse k) #[]
  split : seen.Perm (state.offered ++ state.skipped)

theorem SkipsOf.skipOffer {seen : List ι} {state : SkipState ι α}
    (skipsOf : SkipsOf worse k value seen state) (item : ι) :
    SkipsOf worse k value (seen ++ [item]) (skipOffer worse k value skips state item) := by
  rw [BoundedHeap.skipOffer]
  split_ifs
  · refine ⟨skipsOf.heap, ?_⟩
    rw [← List.append_assoc]
    exact skipsOf.split.append_right [item]
  · refine ⟨?_, ?_⟩
    · dsimp only
      rw [List.map_append, List.foldl_append, ← skipsOf.heap]
      rfl
    · refine (skipsOf.split.append_right [item]).trans ?_
      rw [List.append_assoc, List.append_assoc]
      exact List.perm_append_comm.append_left _

theorem skipAll_skipsOf (items : List ι) :
    SkipsOf worse k value items (skipAll worse k value skips items) := by
  have run (items seen : List ι) (state : SkipState ι α)
      (skipsOf : SkipsOf worse k value seen state) :
      SkipsOf worse k value (seen ++ items)
        (items.foldl (BoundedHeap.skipOffer worse k value skips) state) := by
    induction items generalizing seen state with
    | nil => rwa [List.append_nil]
    | cons item items ih =>
      rw [List.append_cons, List.foldl_cons]
      exact ih _ _ (skipsOf.skipOffer item)
  exact run items [] _ ⟨rfl, List.Perm.refl _⟩

theorem skipAll_none (items : List ι) :
    skipAll worse k value (fun _ _ => false) items =
      ⟨(items.map value).foldl (offer worse k) #[], items, []⟩ := by
  have run (items offered : List ι) (heap : Array α) :
      items.foldl (skipOffer worse k value fun _ _ => false) ⟨heap, offered, []⟩ =
        ⟨(items.map value).foldl (offer worse k) heap, offered ++ items, []⟩ := by
    induction items generalizing offered heap with
    | nil => rw [List.append_nil]; rfl
    | cons item items ih =>
      rw [List.append_cons]
      exact ih _ _
  exact run items [] #[]

/-- **A heap that skips elements** keeps the best of all exactly if at least `k` offered elements
are at or before each skipped one. -/
theorem skipAll_same_iff (compares : BinaryHeap.Compares (OrderDual.toDual ∘ key) worse)
    (positive : 0 < k) (items : List ι) :
    ((skipAll worse k value skips items).heap.toList.map key).insertionSort (· ≤ ·) =
        TopK.best k (items.map fun item => key (value item)) ↔
      ∀ item ∈ (skipAll worse k value skips items).skipped,
        k ≤ ((skipAll worse k value skips items).offered.filter fun other =>
          key (value other) ≤ key (value item)).length := by
  obtain ⟨heap, split⟩ := @skipAll_skipsOf _ _ worse k value skips items
  generalize skipAll worse k value skips items = state at heap split
  have keeps := (offerAll_keepsBy compares positive (keepsBy_empty key k)
    (state.offered.map value)).selects
  rw [List.nil_append, ← heap, List.map_map] at keeps
  have whole := TopK.best_perm (k := k) (split.map fun item => key (value item))
  rw [keeps.sort_eq, whole, List.map_append, eq_comm]
  refine TopK.best_append_iff.trans ?_
  rw [List.forall_mem_map]
  refine forall_congr' fun item => forall_congr' fun _ => ?_
  rw [List.filter_map, List.length_map]
  rfl

end TurboHybrid.Library.BoundedHeap
