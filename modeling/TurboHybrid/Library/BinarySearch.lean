/-
**Binary search in a sorted list.**

The loop halves an interval of indexes by a test that holds on an initial part only.

* `search_eq`: the loop ends at the boundary of the test;
* `search_countP`: in a list, the boundary is the number of entries that pass;
* `range_eq_filter`: two boundaries cut out the entries that pass the second test and not the first.
-/
import Mathlib.Data.List.Basic
import Mathlib.Tactic.Common

namespace TurboHybrid.Library.BinarySearch

/-- The loop over the indexes from `lo` on below `hi`. -/
def search (before : Nat → Bool) (lo hi : Nat) : Nat :=
  if lo < hi then
    let mid := lo + (hi - lo) / 2
    if before mid then search before (mid + 1) hi
    else search before lo mid
  else lo
termination_by hi - lo

/-- **The loop ends at the boundary** of the test. -/
theorem search_eq {before : Nat → Bool} {lo hi boundary : Nat} (above : lo ≤ boundary)
    (below : boundary ≤ hi) (passes : ∀ i < boundary, before i = true)
    (fails : ∀ i, boundary ≤ i → i < hi → before i = false) : search before lo hi = boundary := by
  induction lo, hi using search.induct before with
  | case1 lo hi inside mid pass ih =>
    rw [search, if_pos inside]
    simp only
    rw [if_pos pass]
    have after : mid + 1 ≤ boundary := by
      by_contra early
      have failed := fails mid (by omega) (by omega)
      rw [pass] at failed
      cases failed
    exact ih after below fails
  | case2 lo hi inside mid fail ih =>
    rw [search, if_pos inside]
    simp only
    rw [if_neg fail]
    have before_ : boundary ≤ mid := by
      by_contra late
      exact fail (passes mid (by omega))
    exact ih above before_ fun i after early => fails i after (by omega)
  | case3 lo hi outside =>
    rw [search, if_neg outside]
    omega

section Lists

variable {α : Type*} {items : List α} {one other : α → Bool}

theorem eq_filter_append (initial : items.Pairwise fun first second => one second → one first) :
    items = items.filter one ++ items.filter fun item => !one item := by
  induction items with
  | nil => rfl
  | cons head rest ih =>
    obtain ⟨start, initial⟩ := List.pairwise_cons.mp initial
    by_cases pass : one head
    · rw [List.filter_cons_of_pos pass, List.filter_cons_of_neg (by simp [pass]), List.cons_append,
        ← ih initial]
    · have none : rest.filter one = [] :=
        List.filter_eq_nil_iff.mpr fun item member passes => pass (start item member passes)
      have all : rest.filter (fun item => !one item) = rest :=
        List.filter_eq_self.mpr fun item member => by
          simpa using fun passes => pass (start item member passes)
      rw [List.filter_cons_of_neg pass, List.filter_cons_of_pos (by simp [pass]), none, all,
        List.nil_append]

theorem take_countP (initial : items.Pairwise fun first second => one second → one first) :
    items.take (items.countP one) = items.filter one := by
  have split := congrArg (List.take (items.countP one)) (eq_filter_append initial)
  rwa [List.take_left' List.countP_eq_length_filter.symm] at split

theorem drop_countP (initial : items.Pairwise fun first second => one second → one first) :
    items.drop (items.countP one) = items.filter fun item => !one item := by
  have split := congrArg (List.drop (items.countP one)) (eq_filter_append initial)
  rwa [List.drop_left' List.countP_eq_length_filter.symm] at split

/-- **The boundary in a list** is the number of entries that pass. -/
theorem search_countP (initial : items.Pairwise fun first second => one second → one first)
    {lo : Nat} (above : lo ≤ items.countP one) :
    search (fun i => items[i]?.any one) lo items.length = items.countP one := by
  have length : (items.filter one).length = items.countP one := List.countP_eq_length_filter.symm
  refine search_eq above List.countP_le_length (fun i inside => ?_) fun i outside _ => ?_
  · rw [eq_filter_append initial, List.getElem?_append_left (length ▸ inside),
      List.getElem?_eq_getElem (length ▸ inside), Option.any_some]
    exact (List.mem_filter.mp (List.getElem_mem _)).2
  · rw [eq_filter_append initial, List.getElem?_append_right (length ▸ outside)]
    cases found : (items.filter fun item => !one item)[i - (items.filter one).length]? with
    | none => rfl
    | some item => simpa using (List.mem_filter.mp (List.mem_of_getElem? found)).2

/-- **Two boundaries** cut out the entries between them. -/
theorem range_eq_filter (initial : items.Pairwise fun first second => one second → one first)
    (initial' : items.Pairwise fun first second => other second → other first)
    (wider : ∀ item ∈ items, one item → other item) :
    (items.drop (items.countP one)).take (items.countP other - items.countP one) =
      items.filter fun item => !one item && other item := by
  have count : (items.filter other).countP one = items.countP one := by
    rw [List.countP_filter]
    refine List.countP_congr fun item member => ?_
    rw [Bool.and_eq_true]
    exact ⟨And.left, fun passes => ⟨passes, wider item member passes⟩⟩
  rw [← List.drop_take, take_countP initial', ← count, drop_countP (initial.filter other),
    List.filter_filter]

end Lists

end TurboHybrid.Library.BinarySearch
