/-
**Integer lanes of vector registers.**

A register is read as the integer of each lane. Sums wrap around in the width of a lane, and the
multiply-add of unsigned by signed bytes saturates.

* `wrap_eq`, `saturate_eq`: values of the width pass unchanged;
* `madd16_maddubs`: bytes of seven bits neither saturate nor wrap;
* `sum_blocks`: a sum over blocks of lanes is the sum over all of them.
-/
import Mathlib.Algebra.BigOperators.Group.Finset.Basic
import Mathlib.Algebra.BigOperators.Ring.Finset
import Mathlib.Algebra.Order.BigOperators.Group.Finset
import Mathlib.Algebra.Order.BigOperators.Ring.Finset
import Mathlib.Algebra.Order.Ring.Abs
import Mathlib.Algebra.Order.Ring.Int
import Mathlib.Tactic.NormNum
import Mathlib.Tactic.Ring

namespace TurboHybrid.Library.Lanes

open Finset

abbrev Register := Nat → Int

/-! ### Machine integers -/

def wrap (bits : Nat) (value : Int) : Int := value.bmod (2 ^ bits)

def saturate (bits : Nat) (value : Int) : Int :=
  max (-2 ^ (bits - 1)) (min value (2 ^ (bits - 1) - 1))

theorem wrap_eq {bits : Nat} (positive : 0 < bits) {value : Int} (low : -2 ^ (bits - 1) ≤ value)
    (high : value < 2 ^ (bits - 1)) : wrap bits value = value := by
  obtain ⟨less, rfl⟩ := Nat.exists_eq_succ_of_ne_zero positive.ne'
  rw [Nat.succ_sub_one] at low high
  refine Int.bmod_eq_of_le_mul_two ?_ ?_ <;> push_cast [pow_succ] <;> omega

theorem saturate_eq {bits : Nat} {value : Int} (low : -2 ^ (bits - 1) ≤ value)
    (high : value < 2 ^ (bits - 1)) : saturate bits value = value := by
  rw [saturate, min_eq_left (Int.le_sub_one_of_lt high), max_eq_right low]

theorem wrap_add (bits : Nat) (one other : Int) :
    wrap bits (wrap bits one + other) = wrap bits (one + other) := Int.bmod_add_bmod

theorem add_wrap (bits : Nat) (one other : Int) :
    wrap bits (one + wrap bits other) = wrap bits (one + other) := Int.add_bmod_bmod

theorem wrap_wrap (bits : Nat) (value : Int) : wrap bits (wrap bits value) = wrap bits value :=
  Int.bmod_bmod

/-- How many times the width a value lies outside it. -/
def overflow (bits : Nat) (value : Int) : Int := value.bdiv (2 ^ bits)

theorem wrap_add_overflow (bits : Nat) (value : Int) :
    wrap bits value + 2 ^ bits * overflow bits value = value := by
  have whole := Int.bdiv_add_bmod value (2 ^ bits)
  push_cast at whole
  rw [wrap, overflow]
  omega

/-! ### Registers -/

def zero : Register := fun _ => 0

def add32 (one other : Register) : Register := fun lane => wrap 32 (one lane + other lane)

/-- Products of 16-bit lanes, added in pairs to lanes of 32 bits. -/
def madd16 (one other : Register) : Register := fun lane =>
  wrap 32 (one (2 * lane) * other (2 * lane) + one (2 * lane + 1) * other (2 * lane + 1))

/-- Products of unsigned by signed bytes, added in pairs to lanes of 16 bits with saturation. -/
def maddubs (unsigned signed : Register) : Register := fun lane =>
  saturate 16 (unsigned (2 * lane) * signed (2 * lane) +
    unsigned (2 * lane + 1) * signed (2 * lane + 1))

/-- Products of unsigned by signed bytes, four of them added to a lane of 32 bits. -/
def dpbusd (acc unsigned signed : Register) : Register := fun lane =>
  wrap 32 (acc lane + ∑ part ∈ range 4, unsigned (4 * lane + part) * signed (4 * lane + part))

theorem foldl_add {M : Type*} [AddCommMonoid M] (terms : Nat → M) (start : M) (count : Nat) :
    (List.range count).foldl (fun acc step => acc + terms step) start =
      start + ∑ step ∈ range count, terms step := by
  induction count with
  | zero => rw [List.range_zero, List.foldl_nil, sum_range_zero, add_zero]
  | succ count ih =>
    rw [List.range_succ, List.foldl_append, List.foldl_cons, List.foldl_nil, sum_range_succ, ih,
      add_assoc]

theorem wrap_eq_of_abs {bits : Nat} (positive : 0 < bits) {value : Int}
    (fits : |value| < 2 ^ (bits - 1)) : wrap bits value = value :=
  wrap_eq positive (abs_lt.mp fits).1.le (abs_lt.mp fits).2

/-! ### Lanes that do not overflow -/

/-- A lane of a multiply-add chain: four products of bytes. -/
def quad (unsigned signed : Register) : Register := fun lane =>
  ∑ part ∈ range 4, unsigned (4 * lane + part) * signed (4 * lane + part)

theorem foldl_add32_exact {terms : Nat → Register} {limit : Int} {count lane : Nat}
    (bounded : ∀ step < count, |terms step lane| ≤ limit) (fits : count * limit < 2 ^ 31) :
    (List.range count).foldl (fun acc step => add32 acc (terms step)) zero lane =
        ∑ step ∈ range count, terms step lane ∧
      |∑ step ∈ range count, terms step lane| ≤ count * limit := by
  induction count with
  | zero => exact ⟨rfl, by simp⟩
  | succ count ih =>
    have last := bounded count (Nat.lt_succ_self count)
    have nonneg : 0 ≤ limit := (abs_nonneg _).trans last
    rw [Nat.cast_succ, add_mul, one_mul] at fits
    obtain ⟨same, below⟩ := ih
      (fun step before => bounded step (before.trans_le (Nat.le_succ _))) (by omega)
    have whole : |∑ step ∈ range (count + 1), terms step lane| ≤
        ((count + 1 : Nat) : Int) * limit := by
      rw [sum_range_succ, Nat.cast_succ, add_mul, one_mul]
      exact (abs_add_le _ _).trans (add_le_add below last)
    refine ⟨?_, whole⟩
    rw [List.range_succ, List.foldl_append, List.foldl_cons, List.foldl_nil, add32, same,
      ← sum_range_succ]
    refine wrap_eq_of_abs (by decide) (whole.trans_lt ?_)
    rw [Nat.cast_succ, add_mul, one_mul]
    exact fits

/-- Unsigned bytes against signed bytes of seven bits. -/
structure ByteLanes (unsigned signed : Register) : Prop where
  bytes : ∀ i, 0 ≤ unsigned i ∧ unsigned i ≤ 255
  halves : ∀ i, |signed i| ≤ 64

section Bytes

variable {unsigned signed : Register}

theorem product_bound (small : ByteLanes unsigned signed) (i : Nat) :
    |unsigned i * signed i| ≤ 16320 := by
  rw [abs_mul, abs_of_nonneg (small.bytes i).1]
  exact mul_le_mul (small.bytes i).2 (small.halves i) (abs_nonneg _) (by decide)

/-- **No pair saturates.** -/
theorem maddubs_exact (small : ByteLanes unsigned signed) (lane : Nat) :
    maddubs unsigned signed lane =
      unsigned (2 * lane) * signed (2 * lane) +
        unsigned (2 * lane + 1) * signed (2 * lane + 1) := by
  have one := abs_le.mp (product_bound small (2 * lane))
  have other := abs_le.mp (product_bound small (2 * lane + 1))
  refine saturate_eq ?_ ?_
  · norm_num
    omega
  · norm_num
    omega

theorem quad_bound (small : ByteLanes unsigned signed) (lane : Nat) :
    |quad unsigned signed lane| ≤ 65280 := by
  refine (abs_sum_le_sum_abs _ _).trans ?_
  refine (sum_le_sum fun part _ => product_bound small (4 * lane + part)).trans ?_
  simp

/-- **No sum of pairs wraps.** -/
theorem madd16_maddubs (small : ByteLanes unsigned signed) (lane : Nat) :
    madd16 (maddubs unsigned signed) (fun _ => 1) lane = quad unsigned signed lane := by
  have first : 2 * (2 * lane) = 4 * lane := by ring
  have second : 2 * (2 * lane + 1) = 4 * lane + 2 := by ring
  have value : maddubs unsigned signed (2 * lane) * 1 + maddubs unsigned signed (2 * lane + 1) * 1 =
      quad unsigned signed lane := by
    rw [maddubs_exact small, maddubs_exact small, first, second, quad]
    simp only [sum_range_succ, sum_range_zero, mul_one, Nat.add_zero, Nat.add_assoc, Nat.reduceAdd]
    ring
  rw [madd16, value]
  exact wrap_eq_of_abs (by decide) ((quad_bound small lane).trans_lt (by decide))

end Bytes

/-! ### Sums over blocks -/

theorem sum_blocks {M : Type*} [AddCommMonoid M] (terms : Nat → M) (width count : Nat) :
    ∑ block ∈ range count, ∑ lane ∈ range width, terms (width * block + lane) =
      ∑ i ∈ range (width * count), terms i := by
  induction count with
  | zero => rfl
  | succ count ih => rw [sum_range_succ, ih, Nat.mul_succ, sum_range_add]

theorem sum_blocks_tail {M : Type*} [AddCommMonoid M] (terms : Nat → M) (width count : Nat) :
    ∑ block ∈ range (count / width), ∑ lane ∈ range width, terms (width * block + lane) +
        ∑ tail ∈ range (count % width), terms (width * (count / width) + tail) =
      ∑ i ∈ range count, terms i := by
  rw [sum_blocks, ← sum_range_add, Nat.div_add_mod]

theorem sum_blocks_min {M : Type*} [AddCommMonoid M] (terms : Nat → M) {width : Nat}
    (positive : 0 < width) (count : Nat) :
    ∑ block ∈ range ((count + width - 1) / width),
        ∑ lane ∈ range (min (count - width * block) width), terms (width * block + lane) =
      ∑ i ∈ range count, terms i := by
  have inner (block : Nat) :
      ∑ lane ∈ range (min (count - width * block) width), terms (width * block + lane) =
        ∑ lane ∈ range width,
          if width * block + lane < count then terms (width * block + lane) else 0 := by
    rw [← sum_filter]
    refine sum_congr ?_ fun _ _ => rfl
    ext lane
    rw [mem_filter, mem_range, mem_range]
    omega
  have enough : count ≤ width * ((count + width - 1) / width) := by
    have whole := Nat.div_add_mod (count + width - 1) width
    have small := Nat.mod_lt (count + width - 1) positive
    omega
  rw [sum_congr rfl fun block _ => inner block,
    sum_blocks (fun i => if i < count then terms i else 0), ← sum_filter]
  refine sum_congr ?_ fun _ _ => rfl
  ext i
  rw [mem_filter, mem_range, mem_range]
  omega

end TurboHybrid.Library.Lanes
