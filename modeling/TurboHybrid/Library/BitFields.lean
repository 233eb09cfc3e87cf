/-
**Fields of bits in bytes.**

Fields of one, two, four or eight bits lie one after another in bytes, the first in the lowest
bits; a byte is split into whole fields.

* `PackedFields`: the first fields are written, the bits above them are clear, the bytes from a given
  size on are as before;
* `PackedFields.clear`, `PackedFields.orField`: the cleared bytes, and one more field by a bitwise or;
* `PackedFields.field_eq`, `PackedFields.trailing`: reading gives what was written, nothing lies above it.
-/
import Mathlib.Logic.Function.Basic
import Mathlib.Tactic.Linarith

namespace TurboHybrid.Library

def FieldWidth (w : Nat) : Prop :=
  w = 1 ∨ w = 2 ∨ w = 4 ∨ w = 8

/-- The field `i` of width `w`. -/
def field (w : Nat) (memory : Nat → BitVec 8) (i : Nat) : BitVec 8 :=
  memory (i * w / 8) >>> (i * w % 8) &&& BitVec.ofNat 8 (2 ^ w - 1)

/-- The field `i` or-ed into its byte. -/
def orField (w : Nat) (memory : Nat → BitVec 8) (i : Nat) (value : BitVec 8) : Nat → BitVec 8 :=
  Function.update memory (i * w / 8) (memory (i * w / 8) ||| value <<< (i * w % 8))

/-- The first `size` bytes cleared. -/
def clearBytes (memory : Nat → BitVec 8) (size : Nat) : Nat → BitVec 8 :=
  fun j => if j < size then 0 else memory j

/-- **The first `count` fields are `values`**, the other bits of the `size` bytes are clear, and
the bytes from `size` on are those of `before`. -/
structure PackedFields (w size count : Nat) (values : Nat → BitVec 8) (before memory : Nat → BitVec 8) :
    Prop where
  bits : ∀ j < size, ∀ t < 8, (memory j).getLsbD t =
    if 8 * j + t < count * w then (values ((8 * j + t) / w)).getLsbD ((8 * j + t) % w) else false
  frame : ∀ j, size ≤ j → memory j = before j

namespace PackedFields

variable {w size count : Nat} {values before memory : Nat → BitVec 8}

theorem clear (w : Nat) (values memory : Nat → BitVec 8) (size : Nat) :
    PackedFields w size 0 values memory (clearBytes memory size) where
  bits j inside t _ := by
    rw [Nat.zero_mul, if_neg (Nat.not_lt_zero _), clearBytes, if_pos inside]
    exact BitVec.getLsbD_zero
  frame j outside := by
    rw [clearBytes, if_neg (Nat.not_lt.mpr outside)]

/-- **One more field.** -/
theorem orField (packed : PackedFields w size count values before memory) (width : FieldWidth w)
    (inside : count * w / 8 < size) (fits : ∀ t, w ≤ t → (values count).getLsbD t = false) :
    PackedFields w size (count + 1) values before
      (Library.orField w memory count (values count)) where
  bits j within t byte := by
    have next : (count + 1) * w = count * w + w := Nat.succ_mul _ _
    -- a field does not cross the end of its byte
    have whole : count * w % 8 + w ≤ 8 := by
      rcases width with rfl | rfl | rfl | rfl <;> omega
    unfold Library.orField
    by_cases same : j = count * w / 8
    · have old := packed.bits j within t byte
      rw [← same, Function.update_self, BitVec.getLsbD_or, BitVec.getLsbD_shiftLeft, old]
      by_cases low : t < count * w % 8
      · have written : 8 * j + t < count * w := by omega
        rw [if_pos written, if_pos (by omega)]
        simp only [low, decide_true, Bool.not_true, Bool.and_false, Bool.false_and, Bool.or_false]
      · have fresh : ¬8 * j + t < count * w := by omega
        simp only [if_neg fresh, Bool.false_or, byte, low, decide_true, decide_false,
          Bool.not_false, Bool.true_and]
        by_cases here : 8 * j + t < (count + 1) * w
        · have place : (8 * j + t) / w = count ∧ (8 * j + t) % w = t - count * w % 8 := by
            rcases width with rfl | rfl | rfl | rfl <;> omega
          rw [if_pos here, place.1, place.2]
        · rw [if_neg here, fits _ (by omega)]
    · have agree : 8 * j + t < (count + 1) * w ↔ 8 * j + t < count * w := by
        have elsewhere : 8 * j + t < count * w ∨ count * w + w ≤ 8 * j + t := by omega
        omega
      rw [Function.update_of_ne same, packed.bits j within t byte]
      simp only [agree]
  frame j outside := by
    unfold Library.orField
    rw [Function.update_of_ne (by omega), packed.frame j outside]

/-- **Reading** a written field. -/
theorem field_eq (packed : PackedFields w size count values before memory) (width : FieldWidth w)
    {i : Nat} (written : i < count) (inside : i * w / 8 < size)
    (fits : ∀ t, w ≤ t → (values i).getLsbD t = false) : field w memory i = values i := by
  have last : i * w + w ≤ count * w := by
    rw [← Nat.succ_mul]
    exact Nat.mul_le_mul_right w written
  have whole : i * w % 8 + w ≤ 8 := by
    rcases width with rfl | rfl | rfl | rfl <;> omega
  ext t byte
  rw [← BitVec.getLsbD_eq_getElem, ← BitVec.getLsbD_eq_getElem, field, BitVec.getLsbD_and,
    BitVec.getLsbD_ushiftRight, BitVec.getLsbD_ofNat, Nat.testBit_two_pow_sub_one]
  by_cases low : t < w
  · have place : (8 * (i * w / 8) + (i * w % 8 + t)) / w = i ∧
        (8 * (i * w / 8) + (i * w % 8 + t)) % w = t := by
      rcases width with rfl | rfl | rfl | rfl <;> omega
    rw [packed.bits _ inside _ (by omega), if_pos (by omega), place.1, place.2]
    simp only [byte, low, decide_true, Bool.and_true]
  · rw [fits t (by omega)]
    simp only [low, decide_false, Bool.and_false]

theorem trailing (packed : PackedFields w size count values before memory) {j t : Nat} (within : j < size)
    (byte : t < 8) (above : count * w ≤ 8 * j + t) : (memory j).getLsbD t = false := by
  rw [packed.bits j within t byte, if_neg (Nat.not_lt.mpr above)]

end PackedFields

end TurboHybrid.Library
