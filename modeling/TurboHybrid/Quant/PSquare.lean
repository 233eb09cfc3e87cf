/-
**The streaming quantile estimator.**

Five markers follow the minimum, the quantile and its halves, and the maximum of a stream. A push
finds the cell of the observation, moves the positions above it and adjusts the three interior
markers, by a parabola where it stays between the neighbours and else along a line. Here in exact
arithmetic, a division by zero makes the push fail:

* `Marked`: heights in order, positions whole and increasing;
* `adjustStep_marked`, `adjustMarker_marked`: an adjustment divides by no zero and keeps this;
* `run_tracks`: after every run of at least five pushes the markers are `Marked`, the first position
  is one, the end heights are the minimum and the maximum;
* the last position misses every new maximum, `pushes_sound_iff`: it is the number of observations
  exactly when no observation after the fifth was above all before it.
-/
import TurboHybrid.Library.ExchangeSort
import Mathlib.Algebra.Order.Archimedean.Real.Basic
import Mathlib.Algebra.Order.Floor.Ring
import Mathlib.Data.List.GetD
import Mathlib.Data.List.Induction
import Mathlib.Order.Bounds.Basic
import Mathlib.Tactic.FieldSimp
import Mathlib.Tactic.IntervalCases
import Mathlib.Tactic.Linarith

set_option linter.unusedSectionVars false

namespace TurboHybrid.Quant

open Library

variable {K : Type*} [Field K] [LinearOrder K]

/-! ### The estimator -/

/-- The heights and the positions of the markers. -/
structure Markers (K : Type*) where
  heights : Nat → K
  positions : Nat → K

/-- `TqPSquareState`. -/
structure PSquareState (K : Type*) where
  count : Nat
  targetQ : K
  markers : Markers K

/-- `TqPSquareInit`. -/
def tqPSquareInit (quantile : K) : PSquareState K :=
  { count := 0, targetQ := quantile, markers := ⟨fun _ => 0, fun _ => 0⟩ }

def divide (a b : K) : Option K :=
  if b = 0 then none else some (a / b)

/-- The height a marker is moved to: the parabola, or the line where that leaves the bracket. -/
def adjustedHeight (i : Nat) (markers : Markers K) (dsign : K) : Option K := do
  let prevH := markers.heights (i - 1)
  let nextH := markers.heights (i + 1)
  let prevN := markers.positions (i - 1)
  let nextN := markers.positions (i + 1)
  let curH := markers.heights i
  let curN := markers.positions i
  let denom := nextN - prevN
  let hPar ←
    if denom ≠ 0 then do
      let a ← divide (curN - prevN + dsign) (nextN - curN)
      let b ← divide (nextN - curN - dsign) (curN - prevN)
      let step ← divide ((a * (nextH - curH) + b * (curH - prevH)) * dsign) denom
      some (curH + step)
    else some curH
  if prevH < hPar ∧ hPar < nextH then some hPar
  else if 0 < dsign then do
    let step ← divide (nextH - curH) (nextN - curN)
    some (curH + step)
  else do
    let step ← divide (prevH - curH) (prevN - curN)
    some (curH + step)

/-- The markers after marker `i` moved by `dsign` to `height`. -/
def Markers.move (markers : Markers K) (i : Nat) (height dsign : K) : Markers K :=
  ⟨Function.update markers.heights i height,
    Function.update markers.positions i (markers.positions i + dsign)⟩

/-- `TqPSquareAdjustStep`. -/
def tqPSquareAdjustStep (i : Nat) (markers : Markers K) (dsign : K) : Option (Markers K) :=
  (adjustedHeight i markers dsign).map fun height => markers.move i height dsign

theorem adjustStep_position {i : Nat} {markers next : Markers K} {dsign : K}
    (stepped : tqPSquareAdjustStep i markers dsign = some next) :
    next.positions i = markers.positions i + dsign := by
  obtain ⟨height, _, moved⟩ := Option.map_eq_some_iff.mp stepped
  rw [← moved]
  exact Function.update_self _ _ _

theorem floor_abs_lt [FloorRing K] [IsStrictOrderedRing K] {distance shorter : K} (far : 1 ≤ |distance|)
    (step : |shorter| = |distance| - 1) : ⌊|shorter|⌋.toNat < ⌊|distance|⌋.toNat := by
  have whole : 1 ≤ ⌊|distance|⌋ := Int.le_floor.mpr (by rw [Int.cast_one]; exact far)
  rw [step, Int.floor_sub_one]
  omega

/-- `TqPSquareAdjustMarker`. -/
def tqPSquareAdjustMarker [FloorRing K] [IsStrictOrderedRing K] (i : Nat) (desired : K)
    (markers : Markers K) : Option (Markers K) :=
  let di := desired - markers.positions i
  if 1 ≤ di ∧ 1 < markers.positions (i + 1) - markers.positions i then
    match _stepped : tqPSquareAdjustStep i markers 1 with
    | some next => tqPSquareAdjustMarker i desired next
    | none => none
  else if di ≤ -1 ∧ markers.positions (i - 1) - markers.positions i < -1 then
    match _stepped : tqPSquareAdjustStep i markers (-1) with
    | some next => tqPSquareAdjustMarker i desired next
    | none => none
  else some markers
termination_by ⌊|desired - markers.positions i|⌋.toNat
decreasing_by
  all_goals rw [adjustStep_position _stepped]
  · refine floor_abs_lt ?_ ?_
    · exact le_trans (by tauto) (le_abs_self _)
    · rw [abs_of_nonneg, abs_of_nonneg] <;> linarith
  · refine floor_abs_lt ?_ ?_
    · exact le_trans (by linarith) (neg_le_abs _)
    · rw [abs_of_nonpos, abs_of_nonpos] <;> linarith

variable [FloorRing K] [IsStrictOrderedRing K]

/-- The cell of an observation and the heights with a new extreme. -/
def findCell (heights : Nat → K) (x : K) : (Nat → K) × Nat :=
  if x < heights 0 then (Function.update heights 0 x, 0)
  else if heights 4 < x then (Function.update heights 4 x, 4)
  else
    -- the cell before the first height above `x`
    let k := (List.range' 1 4).findIdx fun i => decide (x < heights i)
    (heights, if 4 ≤ k then 3 else k)

/-- `target_probabilities`. -/
def targetProbabilities (targetQ : K) : List K :=
  [0.0, targetQ * 0.5, targetQ, 0.5 * (1.0 + targetQ), 1.0]

/-- **`TqPSquarePush`** of a finite observation. -/
def tqPSquarePush (p : PSquareState K) (x : K) : Option (PSquareState K) :=
  if p.count < 5 then
    let heights := Function.update p.markers.heights p.count x
    if p.count + 1 = 5 then
      some { p with
        count := p.count + 1
        markers := ⟨exchangeSort 5 heights,
          fun i => if i < 5 then i + 1 else p.markers.positions i⟩ }
    else some { p with count := p.count + 1, markers := { p.markers with heights } }
  else do
    let count := p.count + 1
    let (heights, k) := findCell p.markers.heights x
    let positions := fun i =>
      if k + 1 ≤ i ∧ i < 5 then p.markers.positions i + 1 else p.markers.positions i
    let countMinusOne : K := ((count - 1 : Nat) : K)
    let desired := fun i => 1 + (targetProbabilities p.targetQ).getD i 0 * countMinusOne
    let markers ← [1, 2, 3].foldlM (fun markers i => tqPSquareAdjustMarker i (desired i) markers)
      ⟨heights, positions⟩
    some { p with count, markers }

/-- `TqPSquareEstimate`. -/
def tqPSquareEstimate (p : PSquareState K) : K :=
  if p.count = 0 then 0
  else if p.count < 5 then exchangeSort p.count p.markers.heights (p.count / 2)
  else p.markers.heights (5 / 2)

def pushes (quantile : K) (xs : List K) : Option (PSquareState K) :=
  xs.foldlM tqPSquarePush (tqPSquareInit quantile)

/-! ### An adjustment of a marker -/

/-- **Heights in order, positions whole and strictly increasing.** -/
structure Marked (markers : Markers K) : Prop where
  heights : ∀ i < 4, markers.heights i ≤ markers.heights (i + 1)
  positions : ∀ i < 4, markers.positions i < markers.positions (i + 1)
  whole : ∀ i < 5, ∃ n : Int, markers.positions i = n

theorem Marked.gap {markers : Markers K} (marked : Marked markers) {i : Nat} (inside : i < 4) :
    1 ≤ markers.positions (i + 1) - markers.positions i := by
  obtain ⟨n, left⟩ := marked.whole i (by omega)
  obtain ⟨m, right⟩ := marked.whole (i + 1) (by omega)
  have less := marked.positions i inside
  rw [left, right] at less ⊢
  have step : n + 1 ≤ m := Int.cast_lt.mp less
  have cast : (n : K) + 1 ≤ m := by exact_mod_cast step
  linarith

theorem divide_eq {a b : K} (nonzero : b ≠ 0) : divide a b = some (a / b) :=
  if_neg nonzero

/-- A line through the lower neighbour moves the marker up; where the parabola has left the bracket
the upper neighbour is far enough away. -/
theorem line_below {below above back ahead : K} (below_nonneg : 0 ≤ below) (above_nonneg : 0 ≤ above)
    (back_far : 1 < back) (ahead_far : 1 ≤ ahead)
    (left : ¬(((back - 1) / ahead * above + (ahead + 1) / back * below) / (back + ahead) < below ∧
      -(((back - 1) / ahead * above + (ahead + 1) / back * below) / (back + ahead)) < above)) :
    below / back ≤ above := by
  have back_pos : 0 < back := by linarith
  have ahead_pos : 0 < ahead := by linarith
  have sum_pos : 0 < back + ahead := by linarith
  have first : 0 ≤ (back - 1) / ahead * above :=
    mul_nonneg (div_nonneg (by linarith) ahead_pos.le) above_nonneg
  have second : 0 ≤ (ahead + 1) / back * below :=
    mul_nonneg (div_nonneg (by linarith) back_pos.le) below_nonneg
  have step : 0 ≤ ((back - 1) / ahead * above + (ahead + 1) / back * below) / (back + ahead) :=
    div_nonneg (by linarith) sum_pos.le
  rw [div_le_iff₀ back_pos]
  by_cases inside : ((back - 1) / ahead * above + (ahead + 1) / back * below) / (back + ahead) < below
  · -- the marker stays, so both neighbours have its height
    have stays : above = 0 := by
      by_contra apart
      exact left ⟨inside, lt_of_le_of_lt (neg_nonpos.mpr step) (lt_of_le_of_ne above_nonneg
        (Ne.symm apart))⟩
    by_contra
    exact left ⟨inside, by
      rw [stays, neg_lt_zero]
      refine div_pos ?_ sum_pos
      have positive : 0 < below := lt_of_le_of_lt step inside
      have : 0 < (ahead + 1) / back * below :=
        mul_pos (div_pos (by linarith) back_pos) positive
      linarith⟩
  · have far := not_lt.mp inside
    rw [le_div_iff₀ sum_pos, div_mul_eq_mul_div, div_mul_eq_mul_div,
      div_add_div _ _ ahead_pos.ne' back_pos.ne', le_div_iff₀ (mul_pos ahead_pos back_pos)] at far
    have product : (back - 1) * (below * ahead * (back + 1 + ahead)) ≤
        (back - 1) * (above * back) := by nlinarith
    have factor := le_of_mul_le_mul_left product (by linarith)
    have large : 1 ≤ ahead * (back + 1 + ahead) := by nlinarith
    nlinarith

/-- One step up or down, with room before the neighbour. -/
def Room (markers : Markers K) (i : Nat) (dsign : K) : Prop :=
  (dsign = 1 ∧ 1 < markers.positions (i + 1) - markers.positions i) ∨
    (dsign = -1 ∧ 1 < markers.positions i - markers.positions (i - 1))

/-- **The new height** of an interior marker: no division by zero, between the neighbours. -/
theorem adjustedHeight_between {markers : Markers K} (marked : Marked markers) {i : Nat}
    (interior : 1 ≤ i ∧ i ≤ 3) {dsign : K} (room : Room markers i dsign) :
    ∃ height, adjustedHeight i markers dsign = some height ∧
      markers.heights (i - 1) ≤ height ∧ height ≤ markers.heights (i + 1) := by
  have previous : i - 1 + 1 = i := by omega
  have lower := marked.heights (i - 1) (by omega)
  have upper := marked.heights i (by omega)
  have back := marked.gap (i := i - 1) (by omega)
  have ahead := marked.gap (i := i) (by omega)
  rw [previous] at lower back
  unfold adjustedHeight
  generalize markers.heights (i - 1) = prevH at *
  generalize markers.heights (i + 1) = nextH at *
  generalize markers.heights i = curH at *
  unfold Room at room
  generalize markers.positions (i - 1) = prevN at *
  generalize markers.positions (i + 1) = nextN at *
  generalize markers.positions i = curN at *
  have denom : nextN - prevN ≠ 0 := by
    have : 0 < nextN - prevN := by linarith
    exact this.ne'
  have below : curN - prevN ≠ 0 := (by linarith : 0 < curN - prevN).ne'
  have above : nextN - curN ≠ 0 := (by linarith : 0 < nextN - curN).ne'
  have below' : prevN - curN ≠ 0 := (by linarith : prevN - curN < 0).ne
  simp only [divide_eq denom, divide_eq below, divide_eq above, divide_eq below', if_pos denom,
    Option.bind_eq_bind, Option.bind_some]
  by_cases bracket : prevH < curH + ((curN - prevN + dsign) / (nextN - curN) * (nextH - curH) +
      (nextN - curN - dsign) / (curN - prevN) * (curH - prevH)) * dsign / (nextN - prevN) ∧
      curH + ((curN - prevN + dsign) / (nextN - curN) * (nextH - curH) +
      (nextN - curN - dsign) / (curN - prevN) * (curH - prevH)) * dsign / (nextN - prevN) < nextH
  · exact ⟨_, if_pos bracket, bracket.1.le, bracket.2.le⟩
  · rw [if_neg bracket]
    rcases room with ⟨rfl, far⟩ | ⟨rfl, far⟩
    · refine ⟨_, if_pos one_pos, ?_, ?_⟩
      · have up : 0 ≤ (nextH - curH) / (nextN - curN) := div_nonneg (by linarith) (by linarith)
        linarith
      · have short : (nextH - curH) / (nextN - curN) ≤ nextH - curH :=
          div_le_self (by linarith) ahead
        linarith
    · have turned : (prevH - curH) / (prevN - curN) = (curH - prevH) / (curN - prevN) := by
        rw [← neg_sub curH prevH, ← neg_sub curN prevN, neg_div_neg_eq]
      refine ⟨_, if_neg (by linarith [one_pos (α := K)]), ?_, ?_⟩
      · have up : 0 ≤ (curH - prevH) / (curN - prevN) := div_nonneg (by linarith) (by linarith)
        linarith
      · have room : (curH - prevH) / (curN - prevN) ≤ nextH - curH := line_below (by linarith)
          (by linarith) far ahead
          (fun inside => bracket (by
            rw [show curN - prevN + -1 = curN - prevN - 1 by ring,
              show nextN - curN - -1 = nextN - curN + 1 by ring, mul_neg_one, neg_div,
              show nextN - prevN = curN - prevN + (nextN - curN) by ring]
            constructor <;> linarith [inside.1, inside.2]))
        linarith

theorem Markers.move_heights (markers : Markers K) (i : Nat) (height dsign : K) (j : Nat) :
    (markers.move i height dsign).heights j = if j = i then height else markers.heights j :=
  Function.update_apply _ _ _ _

theorem Markers.move_positions (markers : Markers K) (i : Nat) (height dsign : K) (j : Nat) :
    (markers.move i height dsign).positions j =
      if j = i then markers.positions i + dsign else markers.positions j :=
  Function.update_apply _ _ _ _

/-- **A step** moves one marker and keeps the order. -/
theorem adjustStep_marked {markers : Markers K} (marked : Marked markers) {i : Nat}
    (interior : 1 ≤ i ∧ i ≤ 3) {dsign : K} (room : Room markers i dsign) :
    ∃ next, tqPSquareAdjustStep i markers dsign = some next ∧ Marked next ∧
      ∀ j, j ≠ i → next.heights j = markers.heights j ∧ next.positions j = markers.positions j := by
  obtain ⟨height, found, low, high⟩ := adjustedHeight_between marked interior room
  refine ⟨markers.move i height dsign, by rw [tqPSquareAdjustStep, found]; rfl,
    ⟨fun j inside => ?_, fun j inside => ?_, fun j inside => ?_⟩, fun j other => ?_⟩
  · rw [Markers.move_heights, Markers.move_heights]
    by_cases here : j = i
    · rw [if_pos here, if_neg (by omega), here]
      exact high
    · rw [if_neg here]
      by_cases next : j + 1 = i
      · rw [if_pos next, show j = i - 1 by omega]
        exact low
      · rw [if_neg next]
        exact marked.heights j inside
  · have back := marked.gap (i := i - 1) (by omega)
    have ahead := marked.gap (i := i) (by omega)
    rw [show i - 1 + 1 = i by omega] at back
    rw [Markers.move_positions, Markers.move_positions]
    by_cases here : j = i
    · rw [if_pos here, if_neg (by omega), here]
      rcases room with ⟨rfl, far⟩ | ⟨rfl, far⟩ <;> linarith
    · rw [if_neg here]
      by_cases next : j + 1 = i
      · rw [if_pos next, show j = i - 1 by omega]
        rcases room with ⟨rfl, far⟩ | ⟨rfl, far⟩ <;> linarith
      · rw [if_neg next]
        exact marked.positions j inside
  · rw [Markers.move_positions]
    by_cases here : j = i
    · obtain ⟨n, whole⟩ := marked.whole i (by omega)
      rw [if_pos here, whole]
      rcases room with ⟨rfl, far⟩ | ⟨rfl, far⟩
      · exact ⟨n + 1, by push_cast; ring⟩
      · exact ⟨n - 1, by push_cast; ring⟩
    · rw [if_neg here]
      exact marked.whole j inside
  · rw [Markers.move_heights, Markers.move_positions, if_neg other, if_neg other]
    exact ⟨rfl, rfl⟩

/-- **The adjustment of a marker** ends, divides by no zero and keeps the order. -/
theorem adjustMarker_marked {markers : Markers K} (marked : Marked markers) {i : Nat}
    (interior : 1 ≤ i ∧ i ≤ 3) (desired : K) :
    ∃ next, tqPSquareAdjustMarker i desired markers = some next ∧ Marked next ∧
      ∀ j, j ≠ i → next.heights j = markers.heights j ∧ next.positions j = markers.positions j := by
  induction markers using tqPSquareAdjustMarker.induct (K := K) i desired with
  | case1 markers di up next stepped ih =>
    obtain ⟨next', stepped', kept, frame⟩ :=
      adjustStep_marked marked interior (Or.inl ⟨rfl, up.2⟩)
    obtain rfl : next' = next := Option.some_injective _ (stepped'.symm.trans stepped)
    obtain ⟨last, run, done, rest⟩ := ih kept
    refine ⟨last, ?_, done, fun j other => ?_⟩
    · rw [tqPSquareAdjustMarker, if_pos up]
      split
      · rename_i other found
        rw [Option.some_injective _ (found.symm.trans stepped)]
        exact run
      · rename_i missing
        cases missing.symm.trans stepped
    · rw [(rest j other).1, (rest j other).2]
      exact frame j other
  | case2 markers di up stepped =>
    obtain ⟨next', stepped', _⟩ := adjustStep_marked marked interior (Or.inl ⟨rfl, up.2⟩)
    rw [stepped] at stepped'
    cases stepped'
  | case3 markers di up down next stepped ih =>
    have room : Room markers i (-1) := Or.inr ⟨rfl, by linarith [down.2]⟩
    obtain ⟨next', stepped', kept, frame⟩ := adjustStep_marked marked interior room
    obtain rfl : next' = next := Option.some_injective _ (stepped'.symm.trans stepped)
    obtain ⟨last, run, done, rest⟩ := ih kept
    refine ⟨last, ?_, done, fun j other => ?_⟩
    · rw [tqPSquareAdjustMarker, if_neg up, if_pos down]
      split
      · rename_i other found
        rw [Option.some_injective _ (found.symm.trans stepped)]
        exact run
      · rename_i missing
        cases missing.symm.trans stepped
    · rw [(rest j other).1, (rest j other).2]
      exact frame j other
  | case4 markers di up down stepped =>
    have room : Room markers i (-1) := Or.inr ⟨rfl, by linarith [down.2]⟩
    obtain ⟨next', stepped', _⟩ := adjustStep_marked marked interior room
    rw [stepped] at stepped'
    cases stepped'
  | case5 markers di up down =>
    exact ⟨markers, by rw [tqPSquareAdjustMarker, if_neg up, if_neg down], marked,
      fun j _ => ⟨rfl, rfl⟩⟩

/-! ### A push after the fifth observation -/

theorem heights_le {heights : Nat → K} (order : ∀ i < 4, heights i ≤ heights (i + 1)) :
    heights 0 ≤ heights 4 :=
  ((order 0 (by omega)).trans (order 1 (by omega))).trans
    ((order 2 (by omega)).trans (order 3 (by omega)))

/-- The cell search keeps the order; the ends are the new minimum and maximum, and the cell is past
the last one exactly at a new maximum. -/
theorem findCell_spec {heights : Nat → K} (order : ∀ i < 4, heights i ≤ heights (i + 1)) (x : K) :
    (∀ i < 4, (findCell heights x).1 i ≤ (findCell heights x).1 (i + 1)) ∧
      (findCell heights x).1 0 = min (heights 0) x ∧
      (findCell heights x).1 4 = max (heights 4) x ∧
      (findCell heights x).2 ≤ 4 ∧ ((findCell heights x).2 = 4 ↔ heights 4 < x) := by
  have ends := heights_le order
  unfold findCell
  by_cases low : x < heights 0
  · simp only [if_pos low]
    refine ⟨fun i inside => ?_, ?_, ?_, by omega, ?_⟩
    · rw [Function.update_of_ne (Nat.succ_ne_zero i)]
      by_cases first : i = 0
      · rw [first, Function.update_self]
        exact low.le.trans (order 0 (by omega))
      · rw [Function.update_of_ne first]
        exact order i inside
    · rw [Function.update_self, min_eq_right low.le]
    · rw [Function.update_of_ne (by omega), max_eq_left (low.le.trans ends)]
    · exact iff_of_false (by omega) (not_lt.mpr (low.le.trans ends))
  · simp only [if_neg low]
    by_cases high : heights 4 < x
    · simp only [if_pos high]
      refine ⟨fun i inside => ?_, ?_, ?_, le_rfl, iff_of_true trivial high⟩
      · rw [Function.update_of_ne (by omega)]
        by_cases last : i + 1 = 4
        · rw [last, Function.update_self, show i = 3 by omega]
          exact (order 3 (by omega)).trans high.le
        · rw [Function.update_of_ne last]
          exact order i inside
      · rw [Function.update_of_ne (by omega), min_eq_left (not_lt.mp low)]
      · rw [Function.update_self, max_eq_right high.le]
    · simp only [if_neg high]
      refine ⟨order, (min_eq_left (not_lt.mp low)).symm, (max_eq_left (not_lt.mp high)).symm, ?_, ?_⟩
      · split <;> omega
      · refine iff_of_false ?_ high
        split <;> omega

theorem marked_raised {heights positions : Nat → K} {k : Nat}
    (order : ∀ i < 4, heights i ≤ heights (i + 1))
    (apart : ∀ i < 4, positions i < positions (i + 1))
    (whole : ∀ i < 5, ∃ n : Int, positions i = n) :
    Marked (⟨heights, fun i => if k + 1 ≤ i ∧ i < 5 then positions i + 1 else positions i⟩ :
      Markers K) where
  heights := order
  positions i inside := by
    have less := apart i inside
    by_cases raised : k + 1 ≤ i ∧ i < 5
    · have next : k + 1 ≤ i + 1 ∧ i + 1 < 5 := by omega
      simp only [if_pos raised, if_pos next]
      linarith
    · simp only [if_neg raised]
      by_cases next : k + 1 ≤ i + 1 ∧ i + 1 < 5
      · simp only [if_pos next]
        linarith
      · simp only [if_neg next]
        exact less
  whole i inside := by
    obtain ⟨n, same⟩ := whole i inside
    by_cases raised : k + 1 ≤ i ∧ i < 5
    · exact ⟨n + 1, by simp only [if_pos raised, same, Int.cast_add, Int.cast_one]⟩
    · exact ⟨n, by simp only [if_neg raised, same]⟩

theorem adjustMarkers_marked {markers : Markers K} (marked : Marked markers) (desired : Nat → K) :
    ∃ next, [1, 2, 3].foldlM (fun markers i => tqPSquareAdjustMarker i (desired i) markers)
        markers = some next ∧ Marked next ∧ ∀ j, j = 0 ∨ j = 4 →
      next.heights j = markers.heights j ∧ next.positions j = markers.positions j := by
  obtain ⟨first, run, kept, frame⟩ := adjustMarker_marked marked (i := 1) (by omega) (desired 1)
  obtain ⟨second, run', kept', frame'⟩ := adjustMarker_marked kept (i := 2) (by omega) (desired 2)
  obtain ⟨third, run'', kept'', frame''⟩ :=
    adjustMarker_marked kept' (i := 3) (by omega) (desired 3)
  refine ⟨third, ?_, kept'', fun j ends => ?_⟩
  · simp only [List.foldlM_cons, List.foldlM_nil, run, run', run'', Option.bind_eq_bind,
      Option.bind_some]
    rfl
  · have one := frame j (by omega)
    have two := frame' j (by omega)
    have three := frame'' j (by omega)
    exact ⟨three.1.trans (two.1.trans one.1), three.2.trans (two.2.trans one.2)⟩

/-- **A push after the fifth observation**: no division by zero, the markers stay in order, the end
heights take in the observation, the last position counts it unless it is a new maximum. -/
theorem push_marked {p : PSquareState K} (full : 5 ≤ p.count) (marked : Marked p.markers) (x : K) :
    ∃ next, tqPSquarePush p x = some next ∧ next.count = p.count + 1 ∧ Marked next.markers ∧
      next.markers.positions 0 = p.markers.positions 0 ∧
      next.markers.positions 4 =
        p.markers.positions 4 + (if p.markers.heights 4 < x then 0 else 1) ∧
      next.markers.heights 0 = min (p.markers.heights 0) x ∧
      next.markers.heights 4 = max (p.markers.heights 4) x := by
  obtain ⟨order, low, high, bound, past⟩ := findCell_spec marked.heights x
  have raised := marked_raised (k := (findCell p.markers.heights x).2) order marked.positions
    marked.whole
  obtain ⟨next, run, kept, frame⟩ := adjustMarkers_marked raised
    fun i => 1 + (targetProbabilities p.targetQ).getD i 0 * ((p.count + 1 - 1 : Nat) : K)
  refine ⟨{ p with count := p.count + 1, markers := next }, ?_, rfl, kept, ?_, ?_, ?_, ?_⟩
  · rw [tqPSquarePush, if_neg (by omega)]
    simp only [run, Option.bind_eq_bind, Option.bind_some]
  · rw [(frame 0 (Or.inl rfl)).2]
    have below : ¬((findCell p.markers.heights x).2 + 1 ≤ 0 ∧ 0 < 5) := by omega
    simp only [if_neg below]
  · rw [(frame 4 (Or.inr rfl)).2]
    by_cases new : p.markers.heights 4 < x
    · rw [if_pos new, add_zero]
      have cell := past.mpr new
      have below : ¬((findCell p.markers.heights x).2 + 1 ≤ 4 ∧ 4 < 5) := by omega
      simp only [if_neg below]
    · rw [if_neg new]
      have before : (findCell p.markers.heights x).2 ≠ 4 := fun same => new (past.mp same)
      have above : (findCell p.markers.heights x).2 + 1 ≤ 4 ∧ 4 < 5 := by omega
      simp only [if_pos above]
  · rw [(frame 0 (Or.inl rfl)).1]
    exact low
  · rw [(frame 4 (Or.inr rfl)).1]
    exact high

/-! ### Runs -/

/-- The observation `n` comes after the fifth and is above all before it. -/
def newMaximum (xs : List K) (n : Nat) : Bool :=
  decide (5 ≤ n ∧ ∀ y ∈ xs.take n, y < xs.getD n 0)

/-- The number of new maxima after the fifth observation. -/
def newMaxima (xs : List K) : Nat :=
  (List.range xs.length).countP (newMaximum xs)

theorem newMaxima_append (xs : List K) (x : K) :
    newMaxima (xs ++ [x]) =
      newMaxima xs + if 5 ≤ xs.length ∧ ∀ y ∈ xs, y < x then 1 else 0 := by
  have earlier : (List.range xs.length).countP (newMaximum (xs ++ [x])) =
      (List.range xs.length).countP (newMaximum xs) := by
    refine List.countP_congr fun n member => ?_
    have inside := List.mem_range.mp member
    rw [newMaximum, newMaximum, List.take_append_of_le_length inside.le, List.getD_append _ _ _ _
      inside]
  have last : newMaximum (xs ++ [x]) xs.length =
      decide (5 ≤ xs.length ∧ ∀ y ∈ xs, y < x) := by
    rw [newMaximum, List.take_left' rfl, List.getD_append_right _ _ _ _ le_rfl, Nat.sub_self]
    rfl
  rw [newMaxima, List.length_append, List.length_singleton, List.range_succ, List.countP_append,
    earlier, newMaxima, List.countP_singleton, last]
  simp only [decide_eq_true_eq]

/-- **What holds after a run** of at least five pushes. -/
structure Tracks (xs : List K) (p : PSquareState K) : Prop where
  count : p.count = xs.length
  marked : Marked p.markers
  first : p.markers.positions 0 = 1
  last : p.markers.positions 4 + newMaxima xs = xs.length
  lowest : IsLeast {x | x ∈ xs} (p.markers.heights 0)
  highest : IsGreatest {x | x ∈ xs} (p.markers.heights 4)

/-- Before the fifth push the heights are the observations. -/
structure Fills (xs : List K) (p : PSquareState K) : Prop where
  count : p.count = xs.length
  heights : ∀ i < xs.length, p.markers.heights i = xs.getD i 0

theorem fills_push {xs : List K} {p : PSquareState K} (fills : Fills xs p)
    (short : xs.length + 1 < 5) (x : K) :
    ∃ next, tqPSquarePush p x = some next ∧ Fills (xs ++ [x]) next := by
  have count := fills.count
  refine ⟨_, by rw [tqPSquarePush, if_pos (by omega), if_neg (by omega)], ?_, fun i inside => ?_⟩
  · rw [List.length_append, count]
    rfl
  · rw [List.length_append, List.length_singleton] at inside
    show Function.update p.markers.heights p.count x i = _
    by_cases last : i = xs.length
    · rw [count, last, Function.update_self, List.getD_append_right _ _ _ _ le_rfl, Nat.sub_self]
      rfl
    · rw [Function.update_of_ne (by omega), fills.heights i (by omega),
        List.getD_append _ _ _ _ (by omega)]

theorem newMaxima_short {xs : List K} (short : xs.length ≤ 5) : newMaxima xs = 0 := by
  rw [newMaxima, List.countP_eq_zero]
  intro n member
  have inside := List.mem_range.mp member
  rw [newMaximum, decide_eq_true_eq]
  omega

/-- **The fifth push** sorts the observations. -/
theorem fifth_push {xs : List K} {p : PSquareState K} (fills : Fills xs p)
    (four : xs.length = 4) (x : K) :
    ∃ next, tqPSquarePush p x = some next ∧ Tracks (xs ++ [x]) next := by
  have count := fills.count
  have five : (xs ++ [x]).length = 5 := by
    rw [List.length_append, four]
    rfl
  have heights : ∀ i < 5, Function.update p.markers.heights p.count x i = (xs ++ [x]).getD i 0 := by
    intro i inside
    by_cases last : i = xs.length
    · rw [count, last, Function.update_self, List.getD_append_right _ _ _ _ le_rfl, Nat.sub_self]
      rfl
    · rw [Function.update_of_ne (by omega), fills.heights i (by omega),
        List.getD_append _ _ _ _ (by omega)]
  have rearranged := exchangeSort_rearranges 5 (Function.update p.markers.heights p.count x)
  have member : ∀ i < 5, exchangeSort 5 (Function.update p.markers.heights p.count x) i ∈
      xs ++ [x] := by
    intro i inside
    obtain ⟨j, bounds, same⟩ := rearranged.source ⟨Nat.zero_le i, inside⟩
    rw [same, heights j bounds.2, List.getD_eq_getElem _ _ (by omega)]
    exact List.getElem_mem _
  have position : ∀ y ∈ xs ++ [x], ∃ i < 5,
      exchangeSort 5 (Function.update p.markers.heights p.count x) i = y := by
    intro y inside
    obtain ⟨j, bound, same⟩ := List.mem_iff_getElem.mp inside
    obtain ⟨i, bounds, moved⟩ := rearranged.target (k := j) ⟨Nat.zero_le j, by omega⟩
    refine ⟨i, bounds.2, ?_⟩
    rw [moved, heights j (by omega), List.getD_eq_getElem _ _ bound, same]
  refine ⟨⟨p.count + 1, p.targetQ,
      ⟨exchangeSort 5 (Function.update p.markers.heights p.count x),
        fun i => if i < 5 then (i : K) + 1 else p.markers.positions i⟩⟩,
    by rw [tqPSquarePush, if_pos (by omega), if_pos (by omega)],
    ⟨by rw [five, count, four], ⟨fun i inside => ?_, fun i inside => ?_, fun i inside => ?_⟩,
      ?_, ?_, ⟨member 0 (by omega), fun y inside => ?_⟩, ⟨member 4 (by omega), fun y inside => ?_⟩⟩⟩
  · exact exchangeSort_sorted (Nat.le_succ i) (by omega) _
  · simp only [if_pos (show i < 5 by omega), if_pos (show i + 1 < 5 by omega)]
    push_cast
    linarith
  · exact ⟨i + 1, by simp only [if_pos inside]; push_cast; ring⟩
  · simp
  · rw [newMaxima_short five.le, five]
    norm_num
  · obtain ⟨i, bound, same⟩ := position y inside
    rw [← same]
    exact exchangeSort_sorted (Nat.zero_le i) bound _
  · obtain ⟨i, bound, same⟩ := position y inside
    rw [← same]
    exact exchangeSort_sorted (by omega) (by omega) _

/-- **A later push** keeps what a run of at least five pushes gives. -/
theorem tracks_push {xs : List K} {p : PSquareState K} (tracks : Tracks xs p)
    (full : 5 ≤ xs.length) (x : K) :
    ∃ next, tqPSquarePush p x = some next ∧ Tracks (xs ++ [x]) next := by
  obtain ⟨next, run, count, marked, first, last, low, high⟩ :=
    push_marked (by rw [tracks.count]; exact full) tracks.marked x
  have new : (5 ≤ xs.length ∧ ∀ y ∈ xs, y < x) ↔ p.markers.heights 4 < x :=
    ⟨fun above => above.2 _ tracks.highest.1,
      fun above => ⟨full, fun y member => lt_of_le_of_lt (tracks.highest.2 member) above⟩⟩
  refine ⟨next, run, ?_, marked, first.trans tracks.first, ?_, ?_, ?_⟩
  · rw [count, tracks.count, List.length_append, List.length_singleton]
  · have before := tracks.last
    rw [last, newMaxima_append, List.length_append, List.length_singleton]
    simp only [new]
    by_cases above : p.markers.heights 4 < x
    · rw [if_pos above, if_pos above]
      push_cast
      linarith
    · rw [if_neg above, if_neg above]
      push_cast
      linarith
  · rw [low]
    refine ⟨?_, fun y member => ?_⟩
    · rcases min_choice (p.markers.heights 0) x with old | fresh
      · rw [old]
        exact List.mem_append_left _ tracks.lowest.1
      · rw [fresh]
        exact List.mem_append_right _ List.mem_cons_self
    · rcases List.mem_append.mp member with earlier | fresh
      · exact (min_le_left _ _).trans (tracks.lowest.2 earlier)
      · rw [List.mem_singleton.mp fresh]
        exact min_le_right _ _
  · rw [high]
    refine ⟨?_, fun y member => ?_⟩
    · rcases max_choice (p.markers.heights 4) x with old | fresh
      · rw [old]
        exact List.mem_append_left _ tracks.highest.1
      · rw [fresh]
        exact List.mem_append_right _ List.mem_cons_self
    · rcases List.mem_append.mp member with earlier | fresh
      · exact (tracks.highest.2 earlier).trans (le_max_left _ _)
      · rw [List.mem_singleton.mp fresh]
        exact le_max_right _ _

/-- **Every run succeeds**: no push divides by zero. -/
theorem run_tracks (quantile : K) (xs : List K) :
    ∃ p, pushes quantile xs = some p ∧ (xs.length < 5 → Fills xs p) ∧
      (5 ≤ xs.length → Tracks xs p) := by
  induction xs using List.reverseRecOn with
  | nil =>
    exact ⟨_, rfl, fun _ => ⟨rfl, fun i inside => absurd inside (Nat.not_lt_zero i)⟩,
      fun long => absurd long (by simp)⟩
  | append_singleton xs x ih =>
    obtain ⟨p, run, fills, tracks⟩ := ih
    have next : pushes quantile (xs ++ [x]) = tqPSquarePush p x := by
      rw [pushes, List.foldlM_append, ← pushes, run]
      simp only [Option.bind_eq_bind, Option.bind_some, List.foldlM_cons, List.foldlM_nil]
      exact Option.bind_fun_some _
    have length : (xs ++ [x]).length = xs.length + 1 := List.length_append
    rw [next, length]
    rcases Nat.lt_trichotomy (xs.length + 1) 5 with short | five | long
    · obtain ⟨q, pushed, filled⟩ := fills_push (fills (by omega)) short x
      exact ⟨q, pushed, fun _ => filled, fun long => absurd long (by omega)⟩
    · obtain ⟨q, pushed, tracked⟩ := fifth_push (fills (by omega)) (by omega) x
      exact ⟨q, pushed, fun short => absurd short (by omega), fun _ => tracked⟩
    · obtain ⟨q, pushed, tracked⟩ := tracks_push (tracks (by omega)) (by omega) x
      exact ⟨q, pushed, fun short => absurd short (by omega), fun _ => tracked⟩

/-- **The estimator is sound** for the observations: heights in order, positions strictly increasing
from one to the number of observations, the end heights their minimum and maximum. -/
structure SoundFor (xs : List K) (p : PSquareState K) : Prop where
  heights : ∀ i < 4, p.markers.heights i ≤ p.markers.heights (i + 1)
  positions : ∀ i < 4, p.markers.positions i < p.markers.positions (i + 1)
  first : p.markers.positions 0 = 1
  last : p.markers.positions 4 = xs.length
  lowest : IsLeast {x | x ∈ xs} (p.markers.heights 0)
  highest : IsGreatest {x | x ∈ xs} (p.markers.heights 4)

theorem soundFor_iff {xs : List K} {p : PSquareState K} (tracks : Tracks xs p) :
    SoundFor xs p ↔ newMaxima xs = 0 := by
  have last := tracks.last
  refine ⟨fun sound => ?_, fun none => ⟨tracks.marked.heights, tracks.marked.positions,
    tracks.first, ?_, tracks.lowest, tracks.highest⟩⟩
  · rw [sound.last] at last
    exact_mod_cast (by linarith : (newMaxima xs : K) = 0)
  · rw [none, Nat.cast_zero, add_zero] at last
    exact last

theorem newMaxima_eq_zero {xs : List K} :
    newMaxima xs = 0 ↔ ∀ n, 5 ≤ n → n < xs.length → ∃ y ∈ xs.take n, xs.getD n 0 ≤ y := by
  rw [newMaxima, List.countP_eq_zero]
  refine ⟨fun none n late inside => ?_, fun each n member => ?_⟩
  · have missing := none n (List.mem_range.mpr inside)
    rw [newMaximum, decide_eq_true_eq] at missing
    by_contra above
    push Not at above
    exact missing ⟨late, above⟩
  · rw [newMaximum, decide_eq_true_eq]
    rintro ⟨late, above⟩
    obtain ⟨y, member', high⟩ := each n late (List.mem_range.mp member)
    exact absurd (above y member') (not_lt.mpr high)

theorem newMaxima_take {xs : List K} {n : Nat} (inside : n ≤ xs.length) :
    newMaxima (xs.take n) = 0 ↔ ∀ m, 5 ≤ m → m < n → ∃ y ∈ xs.take m, xs.getD m 0 ≤ y := by
  rw [newMaxima_eq_zero, List.length_take, min_eq_left inside]
  refine forall_congr' fun m => forall_congr' fun _ => forall_congr' fun less => ?_
  rw [List.take_take, min_eq_left less.le, List.getD_eq_getElem _ _ (by
    rw [List.length_take, min_eq_left inside]
    exact less), List.getElem_take, List.getD_eq_getElem _ _ (by omega)]

/-- **Every state after the fifth push is sound** exactly when no later observation is above all
before it. -/
theorem sound_iff_no_new_maximum (quantile : K) (xs : List K) :
    (∀ n, 5 < n → n ≤ xs.length →
      ∃ p, pushes quantile (xs.take n) = some p ∧ SoundFor (xs.take n) p) ↔
    ∀ m, 5 ≤ m → m < xs.length → ∃ y ∈ xs.take m, xs.getD m 0 ≤ y := by
  have state (n : Nat) (late : 5 < n) (inside : n ≤ xs.length) :
      (∃ p, pushes quantile (xs.take n) = some p ∧ SoundFor (xs.take n) p) ↔
        newMaxima (xs.take n) = 0 := by
    obtain ⟨p, run, _, tracks⟩ := run_tracks quantile (xs.take n)
    have tracked := tracks (by rw [List.length_take]; omega)
    refine ⟨fun ⟨q, run', sound⟩ => ?_, fun none => ⟨p, run, (soundFor_iff tracked).mpr none⟩⟩
    rw [Option.some_injective _ (run'.symm.trans run)] at sound
    exact (soundFor_iff tracked).mp sound
  refine ⟨fun each m late inside => ?_, fun each n late inside => ?_⟩
  · have none := (state (m + 1) (by omega) inside).mp (each (m + 1) (by omega) inside)
    exact (newMaxima_take inside).mp none m late (Nat.lt_succ_self m)
  · rw [state n late inside, newMaxima_take inside]
    exact fun m late less => each m late (by omega)

/-- **Soundness of the estimator on real observations**, for every quantile and every stream. -/
theorem pushes_sound_iff (quantile : ℝ) (xs : List ℝ) :
    (∀ n, 5 < n → n ≤ xs.length →
      ∃ p, pushes quantile (xs.take n) = some p ∧ SoundFor (xs.take n) p) ↔
    ∀ m, 5 ≤ m → m < xs.length → ∃ y ∈ xs.take m, xs.getD m 0 ≤ y :=
  sound_iff_no_new_maximum quantile xs

/-- After an increasing stream of six the last position is still five. -/
theorem pushes_new_maximum : ¬∀ n, 5 < n → n ≤ ([1, 2, 3, 4, 5, 6] : List ℝ).length →
    ∃ p, pushes 0.5 (([1, 2, 3, 4, 5, 6] : List ℝ).take n) = some p ∧
      SoundFor (([1, 2, 3, 4, 5, 6] : List ℝ).take n) p := by
  rw [sound_iff_no_new_maximum]
  intro each
  obtain ⟨y, member, high⟩ := each 5 le_rfl (by simp)
  simp only [List.take, List.mem_cons, List.not_mem_nil, or_false] at member
  rcases member with rfl | rfl | rfl | rfl | rfl <;> norm_num at high

end TurboHybrid.Quant
