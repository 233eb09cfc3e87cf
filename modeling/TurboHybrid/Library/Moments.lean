/-
**Count, mean and squared deviations of a sample.**

* `Moments.of`: by two passes over the sample;
* `of_append`: the moments of two parts, merged, are those of the whole;
* `push_of`, `pushRun_of`: one more value, and a run of equal values;
* `of_perm`: the order of the sample does not matter.
-/
import Mathlib.Algebra.BigOperators.Group.List.Lemmas
import Mathlib.Algebra.BigOperators.Ring.List
import Mathlib.Algebra.CharZero.Defs
import Mathlib.Tactic.FieldSimp
import Mathlib.Tactic.Ring

namespace TurboHybrid.Library

/-- How many values, their mean, and the sum of their squared deviations from it. -/
@[ext] structure Moments (K : Type*) where
  count : Nat
  mean : K
  squares : K
  deriving DecidableEq, Repr

namespace Moments

variable {K : Type*} [Field K]

def of (values : List K) : Moments K :=
  let mean := values.sum / values.length
  ⟨values.length, mean, (values.map fun value => (value - mean) ^ 2).sum⟩

def push (moments : Moments K) (value : K) : Moments K :=
  let delta := value - moments.mean
  let mean := moments.mean + delta / (moments.count + 1)
  ⟨moments.count + 1, mean, moments.squares + delta * (value - mean)⟩

def pushRun (moments : Moments K) (value : K) (times : Nat) : Moments K :=
  let total : K := moments.count + times
  let delta := value - moments.mean
  ⟨moments.count + times, moments.mean + delta * times / total,
    moments.squares + delta * delta * moments.count * times / total⟩

def merge (moments other : Moments K) : Moments K :=
  let total : K := moments.count + other.count
  let delta := other.mean - moments.mean
  ⟨moments.count + other.count, moments.mean + delta * (other.count / total),
    moments.squares + (other.squares + delta * delta * (moments.count * other.count / total))⟩

@[simp] theorem of_nil : of ([] : List K) = ⟨0, 0, 0⟩ := by
  simp [of]

variable [CharZero K]

theorem length_ne_zero {values : List K} (filled : values ≠ []) : (values.length : K) ≠ 0 := by
  rw [Nat.cast_ne_zero]
  exact fun empty => filled (List.length_eq_zero_iff.mp empty)

omit [CharZero K] in
theorem sum_squares (values : List K) (point : K) :
    (values.map fun value => (value - point) ^ 2).sum =
      (values.map fun value => value ^ 2).sum - 2 * point * values.sum +
        values.length * point ^ 2 := by
  induction values with
  | nil => simp
  | cons value values ih =>
    rw [List.map_cons, List.sum_cons, ih, List.map_cons, List.sum_cons, List.sum_cons,
      List.length_cons, Nat.cast_succ]
    ring

theorem squares_of {values : List K} (filled : values ≠ []) :
    (of values).squares =
      (values.map fun value => value ^ 2).sum - values.sum ^ 2 / values.length := by
  have positive := length_ne_zero filled
  refine (sum_squares values (values.sum / values.length)).trans ?_
  field_simp
  ring

/-- **The moments of two parts, merged, are those of the whole.** -/
theorem of_append (values others : List K) : of (values ++ others) = (of values).merge (of others) := by
  rcases eq_or_ne values [] with rfl | filled
  · rcases eq_or_ne others [] with rfl | filled'
    · simp [merge]
    · have positive := length_ne_zero filled'
      have mean : (of others).mean * ((of others).count / (of others).count) = (of others).mean := by
        rw [div_self (show ((of others).count : K) ≠ 0 from positive), mul_one]
      ext <;> simp [merge, mean]
  · rcases eq_or_ne others [] with rfl | filled'
    · ext <;> simp [merge]
    · have positive := length_ne_zero filled
      have positive' := length_ne_zero filled'
      have total : (values.length : K) + others.length ≠ 0 := by
        rw [← Nat.cast_add, ← List.length_append]
        exact length_ne_zero (by simp [filled])
      have whole : values ++ others ≠ [] := by simp [filled]
      ext
      · simp [of, merge]
      · show (values ++ others).sum / ((values ++ others).length : K) =
          values.sum / values.length + (others.sum / others.length - values.sum / values.length) *
            ((others.length : K) / (values.length + others.length))
        rw [List.sum_append, List.length_append, Nat.cast_add]
        field_simp
        ring
      · rw [squares_of whole, show ((of values).merge (of others)).squares =
          (of values).squares + ((of others).squares +
            (others.sum / others.length - values.sum / values.length) *
            (others.sum / others.length - values.sum / values.length) *
            ((values.length : K) * others.length / (values.length + others.length))) from rfl,
          squares_of filled, squares_of filled', List.sum_append, List.map_append, List.sum_append,
          List.length_append, Nat.cast_add]
        field_simp
        ring

/-- **A run of equal values behind a sample.** -/
theorem pushRun_of (values : List K) (value : K) (times : Nat) :
    (of values).pushRun value times = of (values ++ List.replicate times value) := by
  rw [of_append]
  rcases times.eq_zero_or_pos with rfl | some
  · ext <;> simp [pushRun, merge]
  · have positive : (times : K) ≠ 0 := Nat.cast_ne_zero.mpr some.ne'
    have mean : (of (List.replicate times value)).mean = value := by
      simp [of, positive]
    have squares : (of (List.replicate times value)).squares = 0 := by
      simp [of, positive]
    have count : (of (List.replicate times value)).count = times := by
      simp [of]
    ext
    · simp [pushRun, merge, count]
    · simp only [pushRun, merge, count, mean]
      rw [mul_div_assoc]
    · simp only [pushRun, merge, count, mean, squares]
      ring

/-- **One more value behind a sample.** -/
theorem push_of (values : List K) (value : K) : (of values).push value = of (values ++ [value]) := by
  rw [show [value] = List.replicate 1 value from rfl, ← pushRun_of]
  have total : ((of values).count : K) + 1 ≠ 0 := by
    rw [← Nat.cast_succ]
    exact Nat.cast_ne_zero.mpr (Nat.succ_ne_zero _)
  ext
  · rfl
  · simp [push, pushRun]
  · simp only [push, pushRun, Nat.cast_one]
    field_simp
    ring

omit [CharZero K] in
/-- **The order of the sample does not matter.** -/
theorem of_perm {values others : List K} (same : values.Perm others) : of values = of others := by
  unfold of
  simp only [same.sum_eq, same.length_eq]
  rw [(same.map _).sum_eq]

end Moments

end TurboHybrid.Library
