/-
**Sorting by exchanges.**

Each position is compared with every later one and the two are exchanged when they are in the
wrong order.

* `Rearranges`: the entries from `low` up to `high` are a permutation of the earlier ones, the
  others are untouched;
* `passFrom_spec`: a pass leaves the least of the rest at its position;
* `exchangeSort_sorted`, `exchangeSort_rearranges`: the result is in order and a rearrangement.
-/
import TurboHybrid.Library.Isometry
import Mathlib.Order.Lattice

set_option linter.unusedSectionVars false

namespace TurboHybrid.Library

variable {K : Type*} [CommRing K] [LinearOrder K]

def exchangeIfLess (i : Nat) (values : Nat → K) (j : Nat) : Nat → K :=
  if values j < values i then exchange i j values else values

/-- The comparisons of position `i` with `count` positions after it. -/
def passFrom (i count : Nat) (values : Nat → K) : Nat → K :=
  (List.range' (i + 1) count).foldl (exchangeIfLess i) values

/-- **The sort** of the first `n` entries. -/
def exchangeSort (n : Nat) (values : Nat → K) : Nat → K :=
  (List.range' 0 (n - 1)).foldl (fun values i => passFrom i (n - (i + 1)) values) values

/-- **A rearrangement** of the entries from `low` up to `high`. -/
def Rearranges (low high : Nat) (before after : Nat → K) : Prop :=
  ∃ move : Equiv.Perm Nat, (∀ k, after k = before (move k)) ∧
    ∀ k, ¬(low ≤ k ∧ k < high) → move k = k

namespace Rearranges

variable {low high : Nat} {before after later : Nat → K}

theorem refl (low high : Nat) (values : Nat → K) : Rearranges low high values values :=
  ⟨Equiv.refl Nat, fun _ => rfl, fun _ _ => rfl⟩

theorem trans (first : Rearranges low high before after) (second : Rearranges low high after later) :
    Rearranges low high before later := by
  obtain ⟨move, moved, fixed⟩ := first
  obtain ⟨move', moved', fixed'⟩ := second
  refine ⟨move'.trans move, fun k => ?_, fun k outside => ?_⟩
  · rw [moved', moved]
    rfl
  · rw [Equiv.trans_apply, fixed' k outside, fixed k outside]

theorem mono {low' : Nat} (lower : low' ≤ low) (rearranges : Rearranges low high before after) :
    Rearranges low' high before after := by
  obtain ⟨move, moved, fixed⟩ := rearranges
  exact ⟨move, moved, fun k outside => fixed k (by omega)⟩

theorem exchangeIfLess {i j : Nat} (first : low ≤ i) (order : i < j) (last : j < high)
    (values : Nat → K) : Rearranges low high values (Library.exchangeIfLess i values j) := by
  unfold Library.exchangeIfLess
  split
  · refine ⟨Equiv.swap i j, fun k => exchange_apply i j values k, fun k outside => ?_⟩
    exact Equiv.swap_apply_of_ne_of_ne (by omega) (by omega)
  · exact refl low high values

theorem outside (rearranges : Rearranges low high before after) {k : Nat}
    (out : ¬(low ≤ k ∧ k < high)) : after k = before k := by
  obtain ⟨move, moved, fixed⟩ := rearranges
  rw [moved, fixed k out]

theorem source (rearranges : Rearranges low high before after) {k : Nat}
    (inside : low ≤ k ∧ k < high) : ∃ j, (low ≤ j ∧ j < high) ∧ after k = before j := by
  obtain ⟨move, moved, fixed⟩ := rearranges
  refine ⟨move k, ?_, moved k⟩
  by_contra out
  have same : move k = k := move.injective (fixed _ out)
  exact out (same.symm ▸ inside)

theorem target (rearranges : Rearranges low high before after) {k : Nat}
    (inside : low ≤ k ∧ k < high) : ∃ j, (low ≤ j ∧ j < high) ∧ after j = before k := by
  obtain ⟨move, moved, fixed⟩ := rearranges
  refine ⟨move.symm k, ?_, by rw [moved, Equiv.apply_symm_apply]⟩
  by_contra out
  have same := fixed _ out
  rw [Equiv.apply_symm_apply] at same
  exact out (same ▸ inside)

end Rearranges

/-- **A pass** leaves at its position an entry not above those it was compared with. -/
theorem passFrom_spec {i count high : Nat} (room : i + count < high) (values : Nat → K) :
    Rearranges i high values (passFrom i count values) ∧
      ∀ j, i ≤ j → j ≤ i + count → passFrom i count values i ≤ passFrom i count values j := by
  induction count with
  | zero =>
    refine ⟨Rearranges.refl i high values, fun j low top => ?_⟩
    rw [show j = i by omega]
  | succ count ih =>
    obtain ⟨rearranged, least⟩ := ih (by omega)
    have step : passFrom i (count + 1) values =
        exchangeIfLess i (passFrom i count values) (i + 1 + count) := by
      rw [passFrom, List.range'_concat, List.foldl_append, Nat.one_mul]
      rfl
    rw [step]
    refine ⟨rearranged.trans (Rearranges.exchangeIfLess le_rfl (by omega) (by omega) _), ?_⟩
    intro j low top
    unfold exchangeIfLess
    by_cases less : passFrom i count values (i + 1 + count) < passFrom i count values i
    · rw [if_pos less, exchange_apply, exchange_apply, Equiv.swap_apply_left]
      by_cases last : j = i + 1 + count
      · rw [last, Equiv.swap_apply_right]
        exact less.le
      · by_cases first : j = i
        · rw [first, Equiv.swap_apply_left]
        · rw [Equiv.swap_apply_of_ne_of_ne first last]
          exact less.le.trans (least j low (by omega))
    · rw [if_neg less]
      by_cases last : j = i + 1 + count
      · rw [last]
        exact not_lt.mp less
      · exact least j low (by omega)

/-- After the passes of the positions below `done` these hold the least entries in order. -/
theorem passes_spec {n done : Nat} (enough : done ≤ n - 1) (values : Nat → K) :
    Rearranges 0 n values ((List.range' 0 done).foldl
        (fun values i => passFrom i (n - (i + 1)) values) values) ∧
      ∀ i j, i < done → i ≤ j → j < n →
        (List.range' 0 done).foldl (fun values i => passFrom i (n - (i + 1)) values) values i ≤
          (List.range' 0 done).foldl (fun values i => passFrom i (n - (i + 1)) values) values j := by
  induction done with
  | zero => exact ⟨Rearranges.refl 0 n values, fun i j less => absurd less (Nat.not_lt_zero i)⟩
  | succ done ih =>
    obtain ⟨rearranged, order⟩ := ih (by omega)
    rw [List.range'_concat, List.foldl_append, Nat.one_mul, Nat.zero_add, List.foldl_cons,
      List.foldl_nil]
    generalize (List.range' 0 done).foldl (fun values i => passFrom i (n - (i + 1)) values) values =
      sorted at *
    obtain ⟨moved, least⟩ := passFrom_spec (show done + (n - (done + 1)) < n by omega) sorted
    refine ⟨rearranged.trans (moved.mono (Nat.zero_le done)), fun i j early later inside => ?_⟩
    by_cases fresh : i = done
    · rw [fresh] at later ⊢
      exact least j later (by omega)
    · rw [moved.outside (k := i) (by omega)]
      by_cases settled : j < done
      · rw [moved.outside (k := j) (by omega)]
        exact order i j (by omega) later inside
      · obtain ⟨source, bounds, same⟩ := moved.source (k := j) ⟨by omega, inside⟩
        rw [same]
        exact order i source (by omega) (by omega) bounds.2

theorem exchangeSort_rearranges (n : Nat) (values : Nat → K) :
    Rearranges 0 n values (exchangeSort n values) :=
  (passes_spec le_rfl values).1

/-- **The sorted entries** are in order. -/
theorem exchangeSort_sorted {n i j : Nat} (order : i ≤ j) (inside : j < n) (values : Nat → K) :
    exchangeSort n values i ≤ exchangeSort n values j := by
  by_cases last : i < n - 1
  · exact (passes_spec le_rfl values).2 i j last order inside
  · rw [show j = i by omega]

end TurboHybrid.Library
