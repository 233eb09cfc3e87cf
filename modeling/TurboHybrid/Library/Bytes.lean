/-
**Words and variable-length numbers in bytes.**

* `takeUint16_putUint16`: two bytes, the lower one first;
* `getVarint_putVarint`: seven bits a byte, the lower ones first, with a bit that says more follow.
-/
import Mathlib.Data.Nat.Bitwise
import Mathlib.Tactic.Common
import Mathlib.Tactic.Ring

namespace TurboHybrid.Library

/-! ### Words -/

def putUint16 (value : Nat) : List UInt8 := [UInt8.ofNat value, UInt8.ofNat (value >>> 8)]

def takeUint16 : List UInt8 → Nat × List UInt8
  | low :: high :: rest => (low.toNat ||| high.toNat <<< 8, rest)
  | _ => (0, [])

def wordAt (bytes : List UInt8) (index : Nat) : Nat := (takeUint16 (bytes.drop (2 * index))).1

@[simp] theorem length_putUint16 (value : Nat) : (putUint16 value).length = 2 := rfl

theorem takeUint16_putUint16 {value : Nat} (fits : value < 2 ^ 16) (rest : List UInt8) :
    takeUint16 (putUint16 value ++ rest) = (value, rest) := by
  have low : (UInt8.ofNat value).toNat = value % 2 ^ 8 := UInt8.toNat_ofNat'
  have high : (UInt8.ofNat (value >>> 8)).toNat = value / 2 ^ 8 := by
    rw [UInt8.toNat_ofNat', Nat.shiftRight_eq_div_pow]
    exact Nat.mod_eq_of_lt (by omega)
  change ((UInt8.ofNat value).toNat ||| (UInt8.ofNat (value >>> 8)).toNat <<< 8, rest) = _
  rw [low, high, Nat.lor_comm, ← Nat.shiftLeft_add_eq_or_of_lt (Nat.mod_lt _ (by decide)),
    Nat.shiftLeft_eq]
  congr 1
  omega

theorem wordAt_flatMap {words : List Nat} (fit : ∀ word ∈ words, word < 2 ^ 16)
    (rest : List UInt8) {index : Nat} (inside : index < words.length) :
    wordAt (words.flatMap putUint16 ++ rest) index = words[index] := by
  unfold wordAt
  induction words generalizing index with
  | nil => cases inside
  | cons word words ih =>
    cases index with
    | zero =>
      simp only [List.flatMap_cons, List.append_assoc, Nat.mul_zero, List.drop_zero,
        takeUint16_putUint16 (fit word List.mem_cons_self), List.getElem_cons_zero]
    | succ index =>
      have skip : List.drop (2 * (index + 1)) ((word :: words).flatMap putUint16 ++ rest) =
          List.drop (2 * index) (words.flatMap putUint16 ++ rest) := rfl
      rw [skip, ih fun other member => fit other (List.mem_cons_of_mem _ member)]
      rfl

theorem length_flatMap_putUint16 (words : List Nat) :
    (words.flatMap putUint16).length = 2 * words.length := by
  induction words with
  | nil => rfl
  | cons word words ih =>
    rw [List.flatMap_cons, List.length_append, ih, length_putUint16, List.length_cons]
    omega

theorem wordAt_take {bytes : List UInt8} {index length : Nat} (inside : 2 * index + 2 ≤ length)
    (reaches : length ≤ bytes.length) : wordAt (bytes.take length) index = wordAt bytes index := by
  unfold wordAt
  rw [List.drop_take]
  have long : 2 ≤ (bytes.drop (2 * index)).length := by
    rw [List.length_drop]
    omega
  match shape : bytes.drop (2 * index) with
  | low :: high :: rest =>
    obtain ⟨more, enough⟩ : ∃ more, length - 2 * index = more + 2 := ⟨length - 2 * index - 2, by omega⟩
    rw [enough]
    rfl
  | [] | [_] =>
    rw [shape] at long
    simp at long

/-! ### Variable-length numbers -/

theorem shiftRight_seven_lt {value : Nat} (more : 128 ≤ value) : value >>> 7 < value := by
  rw [Nat.shiftRight_eq_div_pow]
  omega

def putVarint (value : Nat) : List UInt8 :=
  if 128 ≤ value then UInt8.ofNat ((value &&& 127) ||| 128) :: putVarint (value >>> 7)
  else [UInt8.ofNat value]
termination_by value
decreasing_by exact shiftRight_seven_lt ‹_›

def varintLen (value : Nat) : Nat :=
  if 128 ≤ value then varintLen (value >>> 7) + 1 else 1
termination_by value
decreasing_by exact shiftRight_seven_lt ‹_›

/-- Read a number of 32 bits: at most five bytes, none behind the end. -/
def getVarint (result shift : Nat) : List UInt8 → Option (Nat × List UInt8)
  | [] => none
  | byte :: rest =>
    if shift ≤ 28 then
      let result := (result ||| (byte.toNat &&& 127) <<< shift) % 2 ^ 32
      if byte.toNat &&& 128 = 0 then some (result, rest) else getVarint result (shift + 7) rest
    else none

theorem length_putVarint (value : Nat) : (putVarint value).length = varintLen value := by
  fun_induction putVarint value with
  | case1 value more ih =>
    rw [varintLen, if_pos more, List.length_cons, ih]
  | case2 value few =>
    rw [varintLen, if_neg few]
    rfl

theorem varintLen_le {value bytes : Nat} (fits : value < 2 ^ (7 * (bytes + 1))) :
    varintLen value ≤ bytes + 1 := by
  induction bytes generalizing value with
  | zero =>
    rw [varintLen, if_neg (by omega)]
  | succ bytes ih =>
    rw [varintLen]
    split_ifs
    · refine Nat.succ_le_succ (ih ?_)
      rw [Nat.shiftRight_eq_div_pow]
      refine Nat.div_lt_of_lt_mul ?_
      rw [← Nat.pow_add]
      exact lt_of_lt_of_eq fits (by congr 1; omega)
    · omega

theorem more_byte (value : Nat) :
    (UInt8.ofNat ((value &&& 127) ||| 128)).toNat = value % 128 + 128 := by
  have masked : value &&& 127 = value % 128 := Nat.and_two_pow_sub_one_eq_mod value 7
  have joined : value % 128 ||| 128 = value % 128 + 128 := by
    have apart : 128 * 1 + value % 128 = 128 * 1 ||| value % 128 :=
      Nat.two_pow_add_eq_or_of_lt (i := 7) (Nat.mod_lt value (by decide)) 1
    rw [Nat.lor_comm, ← apart]
    omega
  rw [UInt8.toNat_ofNat', masked, joined]
  omega

theorem and_128 {byte : Nat} (fits : byte < 256) : byte &&& 128 = byte / 128 * 128 := by
  have all : ∀ byte : Fin 256, byte.val &&& 128 = byte.val / 128 * 128 := by decide +kernel
  exact all ⟨byte, fits⟩

theorem joined_bits {result shift part : Nat} (low : result < 2 ^ shift) :
    result ||| part <<< shift = result + part * 2 ^ shift := by
  rw [Nat.lor_comm, ← Nat.shiftLeft_add_eq_or_of_lt low, Nat.shiftLeft_eq, Nat.add_comm]

/-- **Reading a number back**, with any bytes behind it: the bits read before are below the shift,
and the number fits in the 32 bits left above it. -/
theorem getVarint_append {value : Nat} (group : Nat) (rest : List UInt8) {result : Nat}
    (low : result < 2 ^ (7 * group)) (small : group ≤ 4)
    (fits : result + value * 2 ^ (7 * group) < 2 ^ 32) :
    getVarint result (7 * group) (putVarint value ++ rest) =
      some (result + value * 2 ^ (7 * group), rest) := by
  fun_induction putVarint value generalizing group result with
  | case1 value more ih =>
    rw [Nat.shiftRight_eq_div_pow] at ih ⊢
    have split : value % 128 + 128 * (value / 128) = value := Nat.mod_add_div value 128
    have next : 2 ^ (7 * (group + 1)) = 128 * 2 ^ (7 * group) := by
      rw [Nat.mul_add, Nat.pow_add, Nat.mul_comm]
    have whole : result + value % 128 * 2 ^ (7 * group) + value / 128 * 2 ^ (7 * (group + 1)) =
        result + value * 2 ^ (7 * group) := by
      conv_rhs => rw [← split]
      rw [next]
      ring
    have room : group ≤ 3 := by
      by_contra full
      obtain rfl : group = 4 := by omega
      have large : 128 * 2 ^ (7 * 4) ≤ value * 2 ^ (7 * 4) := Nat.mul_le_mul_right _ more
      omega
    have below : result + value % 128 * 2 ^ (7 * group) < 2 ^ (7 * (group + 1)) := by
      have part : value % 128 * 2 ^ (7 * group) ≤ 127 * 2 ^ (7 * group) :=
        Nat.mul_le_mul_right _ (by omega)
      rw [next]
      omega
    rw [List.cons_append, getVarint, if_pos (by omega), more_byte]
    have bits : value % 128 + 128 &&& 127 = value % 128 := by
      rw [show (127 : Nat) = 2 ^ 7 - 1 from rfl, Nat.and_two_pow_sub_one_eq_mod]
      omega
    have flag : value % 128 + 128 &&& 128 ≠ 0 := by
      rw [and_128 (by omega)]
      omega
    dsimp only
    rw [if_neg flag, bits, joined_bits low,
      Nat.mod_eq_of_lt (lt_of_le_of_lt (Nat.le_add_right _ _) (whole ▸ fits))]
    rw [← whole]
    exact ih (group + 1) below (by omega) (whole ▸ fits)
  | case2 value few =>
    have byte : (UInt8.ofNat value).toNat = value := by
      rw [UInt8.toNat_ofNat']
      omega
    have bits : value &&& 127 = value := by
      rw [show (127 : Nat) = 2 ^ 7 - 1 from rfl, Nat.and_two_pow_sub_one_eq_mod]
      omega
    have flag : value &&& 128 = 0 := by
      rw [and_128 (by omega)]
      omega
    rw [List.singleton_append, getVarint, if_pos (by omega), byte]
    dsimp only
    rw [if_pos flag, bits, joined_bits low, Nat.mod_eq_of_lt fits]

theorem getVarint_putVarint {value : Nat} (fits : value < 2 ^ 32) (rest : List UInt8) :
    getVarint 0 0 (putVarint value ++ rest) = some (value, rest) := by
  have read : getVarint 0 (7 * 0) (putVarint value ++ rest) = some (0 + value * 2 ^ (7 * 0), rest) :=
    getVarint_append 0 rest (Nat.two_pow_pos _) (by decide) (by simpa using fits)
  simpa using read

end TurboHybrid.Library
