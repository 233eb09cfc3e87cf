/-
**The score payload of a posting.**

The build stores a score with every posting of the quantized inverted lists: for the deterministic
codebook the token's norm as an unsigned fraction of 65535, for an external codebook the product
with the codeword as a signed fraction of 32767. The scan decodes both as fractions of 32767. In
exact arithmetic:

* `agrees_external`: a signed payload decodes to the stored product within half a step;
* `agrees_deterministic_iff`: an unsigned payload decodes to the stored norm within a step only for
  norms next to nothing and next to one;
* `payload_decodes_iff`: this and the order of decoded payloads.
-/
import TurboHybrid.Library.Nearest
import TurboHybrid.MultiVector.HeapRerank
import Mathlib.Analysis.Real.Sqrt
import Mathlib.Tactic.NormNum

namespace TurboHybrid.Postings

open TurboHybrid.Library TurboHybrid.MaxSim TurboHybrid.Rerank

variable {K : Type*} [Field K] [LinearOrder K] [FloorRing K]

/-! ### Encoders and decoders -/

inductive CodebookSource where
  | deterministic
  | external
  deriving DecidableEq, Repr

/-- A document token and the codeword it is posted under. -/
structure PostedToken where
  row : List Rat
  codeword : List Rat

/-- `QuantizedInvertedScorePayload`: the norm as a fraction of 65535. -/
def quantizedInvertedScorePayload (sqrt : K → K) (row : List Rat) : BitVec 16 :=
  let norm2 : K := (dotProduct row row : Rat)
  if norm2 ≤ 0 then 0
  else
    let scaled := sqrt norm2 * ((65535 : Nat) : K)
    if ((65535 : Nat) : K) ≤ scaled then 65535
    else BitVec.ofInt 16 (roundEven (max 0 scaled))

/-- `QuantizedInvertedCompactScorePayload`: a score as a signed fraction of 32767. -/
def quantizedInvertedCompactScorePayload (score : K) : Int :=
  let clamped := max (-1) (min 1 score)
  if 1 ≤ clamped then 32767
  else if clamped ≤ -1 then -32767
  else roundEven (clamped * ((32767 : Nat) : K))

def scorePayload (sqrt : K → K) (source : CodebookSource) (token : PostedToken) : BitVec 16 :=
  match source with
  | .external =>
    BitVec.ofInt 16
      (quantizedInvertedCompactScorePayload ((dotProduct token.row token.codeword : Rat) : K))
  | .deterministic => quantizedInvertedScorePayload sqrt token.row

/-- `QuantizedInvertedCompactPayload`. -/
def quantizedInvertedCompactPayload (payload : BitVec 16) : Int := min payload.toNat 32767

/-- `QuantizedInvertedSignedCompactPayload`. -/
def quantizedInvertedSignedCompactPayload (payload : BitVec 16) : Int := payload.toInt

def compactPayload (source : CodebookSource) (payload : BitVec 16) : Int :=
  match source with
  | .external => quantizedInvertedSignedCompactPayload payload
  | .deterministic => quantizedInvertedCompactPayload payload

def decodedScore (source : CodebookSource) (payload : BitVec 16) : K :=
  (compactPayload source payload : K) / ((32767 : Nat) : K)

/-- The number that the comparison of two postings reads first. -/
def comparedPayload (source : CodebookSource) (payload : BitVec 16) : Int :=
  match source with
  | .external => quantizedInvertedSignedCompactPayload payload
  | .deterministic => payload.toNat

/-! ### What is stored -/

/-- The quantity that a payload stands for; both saturate at one. -/
def storedQuantity (sqrt : K → K) (source : CodebookSource) (token : PostedToken) : K :=
  match source with
  | .external => max (-1) (min 1 ((dotProduct token.row token.codeword : Rat) : K))
  | .deterministic => min 1 (tokenNorm sqrt token.row)

def quantum (source : CodebookSource) : K :=
  match source with
  | .external => 1 / ((32767 : Nat) : K)
  | .deterministic => 1 / ((65535 : Nat) : K)

/-- The decoded payload is within a step of what was stored. -/
def Agrees (source : CodebookSource) (token : PostedToken) : Prop :=
  |decodedScore source (scorePayload Real.sqrt source token) -
    storedQuantity Real.sqrt source token| ≤ quantum source

/-- A payload that goes before another in its list has the higher decoded score. -/
def Ordered (source : CodebookSource) (one other : BitVec 16) : Prop :=
  comparedPayload source one < comparedPayload source other →
    (decodedScore source one : ℝ) < decodedScore source other

/-! ### Signed payloads -/

theorem roundEven_intCast (n : Int) : roundEven ((n : Int) : ℝ) = n := by
  simp [roundEven]

theorem compactScorePayload_eq (score : ℝ) : quantizedInvertedCompactScorePayload score =
    roundEven (max (-1) (min 1 score) * ((32767 : Nat) : ℝ)) := by
  have low : (-1 : ℝ) ≤ max (-1) (min 1 score) := le_max_left _ _
  have high : max (-1) (min 1 score) ≤ (1 : ℝ) := max_le (by norm_num) (min_le_left _ _)
  rw [quantizedInvertedCompactScorePayload]
  split_ifs with full empty
  · rw [le_antisymm high full, one_mul]
    exact (roundEven_intCast 32767).symm
  · rw [le_antisymm empty low, neg_one_mul]
    have cast : -((32767 : Nat) : ℝ) = ((-32767 : Int) : ℝ) := by norm_num
    rw [cast, roundEven_intCast]
  · rfl

/-- **A signed payload** decodes to the stored product. -/
theorem agrees_external (token : PostedToken) : Agrees .external token := by
  have low : (-1 : ℝ) ≤ storedQuantity Real.sqrt .external token := le_max_left _ _
  have high : storedQuantity Real.sqrt .external token ≤ 1 :=
    max_le (by norm_num) (min_le_left _ _)
  have payload : scorePayload Real.sqrt .external token = BitVec.ofInt 16
      (roundEven (storedQuantity Real.sqrt .external token * ((32767 : Nat) : ℝ))) := by
    rw [scorePayload, compactScorePayload_eq]
    rfl
  rw [Agrees, payload]
  generalize storedQuantity Real.sqrt .external token = stored at low high
  have between : -32767 ≤ roundEven (stored * ((32767 : Nat) : ℝ)) ∧
      roundEven (stored * ((32767 : Nat) : ℝ)) ≤ 32767 :=
    roundEven_between (-32767) 32767 (by push_cast; linarith) (by push_cast; linarith)
  obtain ⟨above, below⟩ := between
  have error := roundEven_error (stored * ((32767 : Nat) : ℝ))
  generalize roundEven (stored * ((32767 : Nat) : ℝ)) = code at above below error
  have back : compactPayload .external (BitVec.ofInt 16 code) = code := by
    rw [compactPayload, quantizedInvertedSignedCompactPayload, BitVec.toInt_ofInt]
    exact Int.bmod_eq_of_le (by omega) (by omega)
  rw [decodedScore, back, quantum]
  push_cast at error ⊢
  have bound : |stored * 32767 - code| ≤ 1 := by
    have positive := abs_nonneg (stored * 32767 - (code : ℝ))
    linarith
  rw [abs_le] at bound ⊢
  constructor <;> linarith

/-! ### Unsigned payloads -/

theorem scorePayload_toNat (row : List Rat) :
    ((quantizedInvertedScorePayload Real.sqrt row).toNat : Int) =
      roundEven (((65535 : Nat) : ℝ) * min 1 (tokenNorm Real.sqrt row)) := by
  rw [quantizedInvertedScorePayload]
  dsimp only
  have same : Real.sqrt ((dotProduct row row : Rat) : ℝ) = tokenNorm Real.sqrt row := rfl
  rw [same]
  have nonneg : 0 ≤ tokenNorm Real.sqrt row := Real.sqrt_nonneg _
  split_ifs with zero full
  · have none_ : tokenNorm Real.sqrt row = 0 := Real.sqrt_eq_zero_of_nonpos zero
    rw [none_, min_eq_right zero_le_one, mul_zero]
    exact (roundEven_intCast 0).symm.trans (by norm_num)
  · have large : 1 ≤ tokenNorm Real.sqrt row := by
      push_cast at full
      linarith
    rw [min_eq_left large, mul_one]
    exact (roundEven_intCast 65535).symm.trans (by norm_num)
  · have small : tokenNorm Real.sqrt row ≤ 1 := by
      push_cast at full
      linarith
    have positive : 0 ≤ tokenNorm Real.sqrt row * ((65535 : Nat) : ℝ) := by positivity
    rw [min_eq_right small, max_eq_right positive, mul_comm]
    have between : 0 ≤ roundEven (((65535 : Nat) : ℝ) * tokenNorm Real.sqrt row) ∧
        roundEven (((65535 : Nat) : ℝ) * tokenNorm Real.sqrt row) ≤ 65535 := by
      apply roundEven_between
      · push_cast
        linarith
      · push_cast
        linarith
    generalize roundEven (((65535 : Nat) : ℝ) * tokenNorm Real.sqrt row) = code at between
    rw [BitVec.toNat_ofInt]
    omega

theorem roundEven_half : roundEven (1 / 2 : ℝ) = 0 := by
  have floor : ⌊(1 / 2 : ℝ)⌋ = 0 := by norm_num
  rw [roundEven]
  simp only [floor]
  norm_num

theorem roundEven_three_halves : roundEven (3 / 2 : ℝ) = 2 := by
  have floor : ⌊(3 / 2 : ℝ)⌋ = 1 := by norm_num
  rw [roundEven]
  simp only [floor]
  norm_num

/-- **Where a doubled scale does not show**: below half a step, from where one step is within a
step of its double, and in the last step. -/
def ScaleHidden (scaled : ℝ) : Prop :=
  scaled ≤ 1 / (2 : Nat) ∨
    ((65535 : Nat) / (32767 : Nat) - 1 ≤ scaled ∧ scaled < (3 : Nat) / (2 : Nat)) ∨
    (65534 : Nat) ≤ scaled

theorem decoded_near_iff {scaled : ℝ} (low : 0 ≤ scaled) (high : scaled ≤ 65535) :
    |((min (roundEven scaled) 32767 : Int) : ℝ) / 32767 - scaled / 65535| ≤ 1 / 65535 ↔
      ScaleHidden scaled := by
  have error := roundEven_error scaled
  have near : |scaled - roundEven scaled| ≤ 1 / 2 := by linarith
  rw [abs_le] at near
  rw [abs_le, ScaleHidden]
  simp only [Nat.cast_ofNat]
  have between : 0 ≤ roundEven scaled ∧ roundEven scaled ≤ 65535 :=
    roundEven_between 0 65535 (by exact_mod_cast low) (by exact_mod_cast high)
  have cases : roundEven scaled = 0 ∨ roundEven scaled = 1 ∨
      (2 ≤ roundEven scaled ∧ roundEven scaled ≤ 32767) ∨ 32768 ≤ roundEven scaled := by omega
  rcases cases with zero | one | ⟨two, short⟩ | long
  · rw [zero] at near ⊢
    norm_num at near ⊢
    exact iff_of_true ⟨by linarith, by linarith⟩ (Or.inl (by linarith))
  · -- the ties are rounded to 0 and 2
    have above : scaled ≠ 1 / 2 := by
      rintro rfl
      rw [roundEven_half] at one
      omega
    have below : scaled ≠ 3 / 2 := by
      rintro rfl
      rw [roundEven_three_halves] at one
      omega
    rw [one] at near ⊢
    norm_num at near ⊢
    norm_num at above below
    constructor
    · rintro ⟨-, close⟩
      have less : scaled < 3 / 2 := lt_of_le_of_ne (by linarith) below
      exact Or.inr (Or.inl ⟨by linarith, less⟩)
    · rintro (least | ⟨least, -⟩ | most)
      · exact absurd (le_antisymm least (by linarith)) above
      · exact ⟨by linarith, by linarith⟩
      · linarith
  · have code : (2 : ℝ) ≤ roundEven scaled := by exact_mod_cast two
    rw [min_eq_left short]
    have short' : (roundEven scaled : ℝ) ≤ 32767 := by exact_mod_cast short
    refine iff_of_false ?_ ?_
    · rintro ⟨-, close⟩
      linarith
    · rintro (least | ⟨-, least⟩ | most) <;> linarith
  · have code : (32768 : ℝ) ≤ roundEven scaled := by exact_mod_cast long
    rw [min_eq_right (by omega)]
    norm_num
    constructor
    · rintro ⟨-, close⟩
      exact Or.inr (Or.inr (by linarith))
    · rintro (least | ⟨-, least⟩ | most)
      · linarith
      · linarith
      · exact ⟨by linarith, by linarith⟩

/-- **An unsigned payload** decodes to the stored norm only at the ends of the range. -/
theorem agrees_deterministic_iff (token : PostedToken) : Agrees .deterministic token ↔
    ScaleHidden (65535 * min 1 (tokenNorm Real.sqrt token.row)) := by
  have nonneg : 0 ≤ tokenNorm Real.sqrt token.row := Real.sqrt_nonneg _
  have low : 0 ≤ min 1 (tokenNorm Real.sqrt token.row) := le_min zero_le_one nonneg
  have high : min 1 (tokenNorm Real.sqrt token.row) ≤ 1 := min_le_left _ _
  have payload := scorePayload_toNat token.row
  rw [← decoded_near_iff (by linarith) (by linarith), Agrees, decodedScore, compactPayload,
    quantizedInvertedCompactPayload, scorePayload, payload, storedQuantity, quantum]
  push_cast
  rw [mul_div_cancel_left₀ _ (by norm_num)]

/-! ### The order -/

theorem decodedScore_lt_iff (source : CodebookSource) (one other : BitVec 16) :
    (decodedScore source one : ℝ) < decodedScore source other ↔
      compactPayload source one < compactPayload source other := by
  rw [decodedScore, decodedScore, div_lt_div_iff_of_pos_right (by norm_num), Int.cast_lt]

/-- **The scores of a list decode** as they were stored and in their order. -/
theorem payload_decodes_iff (source : CodebookSource) (token : PostedToken)
    (one other : BitVec 16) :
    (Agrees source token ↔ source = .external ∨
      ScaleHidden (65535 * min 1 (tokenNorm Real.sqrt token.row))) ∧
    (Ordered source one other ↔ source = .external ∨
      ¬(32767 ≤ one.toNat ∧ one.toNat < other.toNat)) := by
  rw [Ordered, decodedScore_lt_iff]
  rcases source with _ | _
  · refine ⟨by simp [agrees_deterministic_iff], ?_⟩
    simp only [comparedPayload, compactPayload, quantizedInvertedCompactPayload]
    constructor
    · intro ordered
      refine Or.inr fun both => ?_
      have := ordered (by omega)
      omega
    · rintro (same | few) less
      · cases same
      · omega
  · exact ⟨iff_of_true (agrees_external token) (Or.inl rfl), iff_of_true id (Or.inl rfl)⟩

/-- **A token of norm one half** is stored as one half of 65535 and decoded as one. -/
theorem half_norm_saturates : ¬Agrees .deterministic ⟨[1 / 2], []⟩ := by
  rw [agrees_deterministic_iff]
  have norm : tokenNorm Real.sqrt [1 / 2] = 1 / 2 := by
    rw [tokenNorm]
    have square : ((dotProduct [1 / 2] [1 / 2] : Rat) : ℝ) = (1 / 2) ^ 2 := by
      norm_num [MaxSim.dotProduct]
    rw [square, Real.sqrt_sq (by norm_num)]
  rw [norm, ScaleHidden]
  norm_num

end TurboHybrid.Postings
