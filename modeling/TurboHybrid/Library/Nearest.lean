/-
**Nearest points.**

* `findIdx_nearest`: the first boundary not below a value, with the boundaries halfway between
  neighbouring points of an ordered list, selects a nearest point of the list;
* `roundEven_nearest`: rounding to an integer, ties to the even one, gives a nearest integer;
* `clamp_nearest`: on an interval, a point nearest to the clamped value is nearest to the value.
-/
import Mathlib.Algebra.Order.Floor.Ring
import Mathlib.Data.List.GetD
import Mathlib.Tactic.Linarith
import Mathlib.Tactic.Ring

set_option linter.unusedSectionVars false

namespace TurboHybrid.Library

variable {K : Type*} [Field K] [LinearOrder K] [IsStrictOrderedRing K]

/-! ### Boundaries halfway between points -/

theorem nearest_low {value low high : K} (order : low ≤ high)
    (below : value + value ≤ low + high) : |value - low| ≤ |value - high| := by
  have right : value - high ≤ 0 := by linarith
  rw [abs_of_nonpos right, abs_le]
  constructor <;> linarith

theorem nearest_high {value low high : K} (order : low ≤ high)
    (above : low + high ≤ value + value) : |value - high| ≤ |value - low| := by
  have left : 0 ≤ value - low := by linarith
  rw [abs_of_nonneg left, abs_le]
  constructor <;> linarith

/-- **Ordered points with boundaries halfway between neighbours.** -/
structure Halfway (points boundaries : List K) : Prop where
  length : points.length = boundaries.length + 1
  order : points.Pairwise (· ≤ ·)
  middle : ∀ i < boundaries.length, boundaries.getD i 0 + boundaries.getD i 0 =
    points.getD i 0 + points.getD (i + 1) 0

theorem Halfway.getD_le {points boundaries : List K} (halfway : Halfway points boundaries)
    {i j : Nat} (order : i ≤ j) (inside : j < points.length) :
    points.getD i 0 ≤ points.getD j 0 := by
  rcases Nat.eq_or_lt_of_le order with rfl | less
  · exact le_rfl
  · rw [List.getD_eq_getElem _ _ (by omega), List.getD_eq_getElem _ _ inside]
    exact List.pairwise_iff_getElem.mp halfway.order i j (by omega) inside less

/-- **The first boundary not below the value** selects a nearest point. -/
theorem findIdx_nearest {points boundaries : List K} (halfway : Halfway points boundaries)
    (value : K) {other : Nat} (inside : other < points.length) :
    |value - points.getD (boundaries.findIdx fun boundary => decide (value ≤ boundary)) 0| ≤
      |value - points.getD other 0| := by
  have length := halfway.length
  have bound : boundaries.findIdx (fun boundary => decide (value ≤ boundary)) ≤
      boundaries.length := List.findIdx_le_length
  have found (inside : boundaries.findIdx (fun boundary => decide (value ≤ boundary)) <
      boundaries.length) :
      value ≤ boundaries.getD (boundaries.findIdx fun boundary => decide (value ≤ boundary)) 0 := by
    rw [List.getD_eq_getElem _ _ inside]
    exact of_decide_eq_true (List.findIdx_getElem (w := inside))
  have passed (i : Nat) (before : i < boundaries.findIdx fun boundary => decide (value ≤ boundary)) :
      boundaries.getD i 0 < value := by
    have within : i < boundaries.length := lt_of_lt_of_le before bound
    have missed := List.not_of_lt_findIdx before
    rw [List.getD_eq_getElem _ _ within]
    exact not_le.mp (of_decide_eq_false missed)
  generalize boundaries.findIdx (fun boundary => decide (value ≤ boundary)) = index at *
  rcases lt_trichotomy other index with less | same | greater
  · have less' : index - 1 < index := by omega
    have above := passed (index - 1) less'
    have middle := halfway.middle (index - 1) (by omega)
    have farther := halfway.getD_le (show other ≤ index - 1 by omega) (by omega)
    rw [show index - 1 + 1 = index by omega] at middle
    exact nearest_high (halfway.getD_le (by omega) (by omega)) (by linarith)
  · rw [same]
  · have below := found (by omega)
    have middle := halfway.middle index (by omega)
    have farther := halfway.getD_le (show index + 1 ≤ other by omega) inside
    exact nearest_low (halfway.getD_le (by omega) inside) (by linarith)

/-! ### Rounding to the nearest integer -/

section Rounding

variable [FloorRing K]

def roundEven (value : K) : Int :=
  let low := ⌊value⌋
  if value - low < 1 - (value - low) then low
  else if 1 - (value - low) < value - low then low + 1
  else if low % 2 = 0 then low
  else low + 1

theorem roundEven_error (value : K) :
    |value - roundEven value| + |value - roundEven value| ≤ 1 := by
  have low := Int.floor_le value
  have high := Int.lt_floor_add_one value
  have below : value - ⌊value⌋ ≤ 1 - (value - ⌊value⌋) →
      |value - ⌊value⌋| + |value - ⌊value⌋| ≤ 1 := fun near => by
    rw [abs_of_nonneg (by linarith)]
    linarith
  have above : 1 - (value - ⌊value⌋) ≤ value - ⌊value⌋ →
      |value - (⌊value⌋ + 1 : Int)| + |value - (⌊value⌋ + 1 : Int)| ≤ 1 := fun far => by
    rw [Int.cast_add, Int.cast_one, abs_of_nonpos (by linarith)]
    linarith
  unfold roundEven
  by_cases near : value - ⌊value⌋ < 1 - (value - ⌊value⌋)
  · rw [if_pos near]
    exact below near.le
  · rw [if_neg near]
    by_cases far : 1 - (value - ⌊value⌋) < value - ⌊value⌋
    · rw [if_pos far]
      exact above far.le
    · rw [if_neg far]
      by_cases even : ⌊value⌋ % 2 = 0
      · rw [if_pos even]
        exact below (not_lt.mp far)
      · rw [if_neg even]
        exact above (not_lt.mp near)

/-- **Rounding** gives a nearest integer. -/
theorem roundEven_nearest (value : K) (other : Int) :
    |value - roundEven value| ≤ |value - other| := by
  have error := roundEven_error value
  by_cases same : other = roundEven value
  · rw [same]
  · have apart : (1 : K) ≤ |(roundEven value : K) - other| := by
      rw [← Int.cast_sub, ← Int.cast_abs]
      exact_mod_cast Int.one_le_abs (sub_ne_zero.mpr (Ne.symm same))
    have triangle := abs_sub_le (roundEven value : K) value other
    rw [abs_sub_comm (roundEven value : K) value] at triangle
    linarith

theorem roundEven_between {value : K} (low high : Int) (above : (low : K) ≤ value)
    (below : value ≤ high) : low ≤ roundEven value ∧ roundEven value ≤ high := by
  have error := roundEven_error value
  have bounds := abs_le.mp (show |value - roundEven value| ≤ 1 - |value - roundEven value| by
    linarith)
  have left := neg_abs_le (value - roundEven value)
  have right := le_abs_self (value - roundEven value)
  constructor
  · by_contra less
    have step : roundEven value + 1 ≤ low := by omega
    have cast : (roundEven value : K) + 1 ≤ low := by exact_mod_cast step
    linarith
  · by_contra greater
    have step : high + 1 ≤ roundEven value := by omega
    have cast : (high : K) + 1 ≤ roundEven value := by exact_mod_cast step
    linarith

end Rounding

/-! ### Clamping -/

/-- The value, or the end of the interval it lies beyond. -/
def clamp (low high value : K) : K :=
  if value < low then low else if high < value then high else value

theorem clamp_mem {low high : K} (order : low ≤ high) (value : K) :
    low ≤ clamp low high value ∧ clamp low high value ≤ high := by
  unfold clamp
  split
  · exact ⟨le_rfl, order⟩
  · split
    · exact ⟨order, le_rfl⟩
    · exact ⟨not_lt.mp (by assumption), not_lt.mp (by assumption)⟩

theorem abs_sub_clamp {low high value point : K} (left : low ≤ point) (right : point ≤ high) :
    |value - point| = |value - clamp low high value| + |clamp low high value - point| := by
  unfold clamp
  by_cases below : value < low
  · rw [if_pos below, abs_of_neg (by linarith), abs_of_neg (by linarith),
      abs_of_nonpos (by linarith)]
    ring
  · rw [if_neg below]
    by_cases above : high < value
    · rw [if_pos above, abs_of_pos (by linarith), abs_of_pos (by linarith),
        abs_of_nonneg (by linarith)]
      ring
    · rw [if_neg above, sub_self, abs_zero, zero_add]

/-- **A point nearest to the clamped value** is nearest to the value. -/
theorem clamp_nearest {low high value point other : K} (left : low ≤ point) (right : point ≤ high)
    (left' : low ≤ other) (right' : other ≤ high)
    (nearest : |clamp low high value - point| ≤ |clamp low high value - other|) :
    |value - point| ≤ |value - other| := by
  rw [abs_sub_clamp left right, abs_sub_clamp left' right']
  exact add_le_add le_rfl nearest

end TurboHybrid.Library
