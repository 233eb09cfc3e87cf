/-
**Binary heaps in an array, ordered by a key.**

The two sifts move one element along a path of the implicit tree. Keys outside the array are read
as `⊤`, so a position past the end is never smaller than a position inside.

* `siftUp_isHeap`, `siftDown_isHeap`: from an order broken only at the start of the path, the sift
  restores the order;
* `siftUp_perm`, `siftDown_perm`: the elements stay the same;
* `pop_perm`, `pop_isHeap`: popping takes the root away;
* `root_le`: the root holds a least key.
-/
import Mathlib.Order.WithBot
import Mathlib.Tactic.Common

namespace TurboHybrid.Library.BinaryHeap

variable {α K : Type*}

/-! ### The sifts -/

/-- The comparison of two positions; a position past the end is not smaller than any other. -/
def lessAt (less : α → α → Bool) (heap : Array α) (first second : Nat) : Bool :=
  match heap[first]?, heap[second]? with
  | some one, some other => less one other
  | _, _ => false

def siftUp (less : α → α → Bool) : Nat → Array α → Nat → Array α
  | 0, heap, _ => heap
  | fuel + 1, heap, pos =>
    let parent := (pos - 1) / 2
    if pos = 0 then heap
    else if lessAt less heap pos parent then
      siftUp less fuel (heap.swapIfInBounds pos parent) parent
    else heap

/-- The position of the least key among a position and its two children. -/
def smallestOf (less : α → α → Bool) (heap : Array α) (pos : Nat) : Nat :=
  let left := pos * 2 + 1
  let right := left + 1
  let smallest := if lessAt less heap left pos then left else pos
  if lessAt less heap right smallest then right else smallest

def siftDown (less : α → α → Bool) : Nat → Array α → Nat → Array α
  | 0, heap, _ => heap
  | fuel + 1, heap, pos =>
    let smallest := smallestOf less heap pos
    if smallest = pos then heap
    else siftDown less fuel (heap.swapIfInBounds pos smallest) smallest

def push (less : α → α → Bool) (heap : Array α) (item : α) : Array α :=
  siftUp less heap.size (heap.push item) heap.size

def replaceRoot (less : α → α → Bool) (heap : Array α) (item : α) : Array α :=
  siftDown less heap.size (heap.setIfInBounds 0 item) 0

/-- Move the last element to the root and sift down. -/
def pop (less : α → α → Bool) (heap : Array α) : Array α :=
  match heap.back? with
  | none => heap
  | some last => replaceRoot less heap.pop last

/-! ### The elements stay -/

theorem swapIfInBounds_perm (heap : Array α) (first second : Nat) :
    (heap.swapIfInBounds first second).Perm heap := by
  unfold Array.swapIfInBounds
  split
  · split
    · exact Array.swap_perm ..
    · exact Array.Perm.refl _
  · exact Array.Perm.refl _

theorem siftUp_perm (less : α → α → Bool) (fuel : Nat) (heap : Array α) (pos : Nat) :
    (siftUp less fuel heap pos).Perm heap := by
  induction fuel generalizing heap pos with
  | zero => exact Array.Perm.refl _
  | succ fuel ih =>
    simp only [siftUp]
    split_ifs
    · exact Array.Perm.refl _
    · exact (ih _ _).trans (swapIfInBounds_perm ..)
    · exact Array.Perm.refl _

theorem siftDown_perm (less : α → α → Bool) (fuel : Nat) (heap : Array α) (pos : Nat) :
    (siftDown less fuel heap pos).Perm heap := by
  induction fuel generalizing heap pos with
  | zero => exact Array.Perm.refl _
  | succ fuel ih =>
    simp only [siftDown]
    split_ifs
    · exact Array.Perm.refl _
    · exact (ih _ _).trans (swapIfInBounds_perm ..)

theorem push_perm (less : α → α → Bool) (heap : Array α) (item : α) :
    (push less heap item).toList.Perm (item :: heap.toList) := by
  have sifted := Array.perm_iff_toList_perm.mp (siftUp_perm less heap.size (heap.push item) heap.size)
  refine sifted.trans ?_
  rw [Array.toList_push]
  exact List.perm_append_singleton item heap.toList

theorem replaceRoot_perm (less : α → α → Bool) {heap : Array α} {root : α} {rest : List α}
    (split : heap.toList = root :: rest) (item : α) :
    (replaceRoot less heap item).toList.Perm (item :: rest) := by
  have sifted := Array.perm_iff_toList_perm.mp
    (siftDown_perm less heap.size (heap.setIfInBounds 0 item) 0)
  refine sifted.trans ?_
  rw [Array.toList_setIfInBounds, split, List.set_cons_zero]

theorem replaceRoot_empty (less : α → α → Bool) {heap : Array α} (empty : heap.size = 0)
    (item : α) : replaceRoot less heap item = heap := by
  rw [Array.eq_empty_of_size_eq_zero empty]
  rfl

theorem pop_perm (less : α → α → Bool) {heap : Array α} {root : α} {rest : List α}
    (split : heap.toList = root :: rest) : (pop less heap).toList.Perm rest := by
  have last : heap.back? = some ((root :: rest).getLast (List.cons_ne_nil _ _)) := by
    rw [← Array.getLast?_toList, split, List.getLast?_eq_some_getLast]
  have popped : heap.pop.toList = (root :: rest).dropLast := by rw [Array.toList_pop, split]
  rw [pop, last]
  dsimp only
  cases rest with
  | nil =>
    have empty : heap.pop.size = 0 := by rw [← Array.length_toList, popped]; rfl
    rw [replaceRoot_empty less empty, popped]
    exact List.Perm.refl _
  | cons next later =>
    rw [List.getLast_cons (List.cons_ne_nil _ _)]
    refine (replaceRoot_perm less (popped.trans (List.dropLast_cons_cons ..)) _).trans ?_
    refine (List.perm_append_singleton _ _).symm.trans ?_
    rw [List.dropLast_concat_getLast]

/-! ### Keys at positions -/

section Keys

variable (key : α → K)

/-- The key at a position, `⊤` past the end. -/
def keyAt (heap : Array α) (pos : Nat) : WithTop K :=
  match heap[pos]? with
  | some item => (key item : WithTop K)
  | none => ⊤

variable {key}

theorem keyAt_swap (heap : Array α) {first second : Nat} (one : first < heap.size)
    (other : second < heap.size) (pos : Nat) :
    keyAt key (heap.swapIfInBounds first second) pos =
      if pos = first then keyAt key heap second
      else if pos = second then keyAt key heap first else keyAt key heap pos := by
  have swapped : heap.swapIfInBounds first second = heap.swap first second one other := by
    simp [Array.swapIfInBounds, one, other]
  have atFirst : heap[first]? = some heap[first] := Array.getElem?_eq_getElem one
  have atSecond : heap[second]? = some heap[second] := Array.getElem?_eq_getElem other
  simp only [keyAt, swapped, Array.getElem?_swap, eq_comm (a := pos)]
  by_cases left : first = pos
  · by_cases right : second = pos
    · subst left
      subst right
      simp [atFirst]
    · simp [left, right, atSecond]
  · by_cases right : second = pos
    · simp [left, right, atFirst]
    · simp [left, right]

theorem keyAt_push (heap : Array α) (item : α) (pos : Nat) :
    keyAt key (heap.push item) pos =
      if pos = heap.size then (key item : WithTop K) else keyAt key heap pos := by
  simp only [keyAt, Array.getElem?_push]
  split_ifs <;> rfl

theorem keyAt_setRoot {heap : Array α} (nonempty : 0 < heap.size) (item : α) (pos : Nat) :
    keyAt key (heap.setIfInBounds 0 item) pos =
      if pos = 0 then (key item : WithTop K) else keyAt key heap pos := by
  simp only [keyAt, Array.getElem?_setIfInBounds, eq_comm (a := (0 : Nat)), nonempty, if_true]
  split_ifs <;> rfl

end Keys

/-! ### The order -/

section Order

variable [LinearOrder K] (key : α → K)

def IsHeap (heap : Array α) : Prop :=
  ∀ pos, 0 < pos → keyAt key heap ((pos - 1) / 2) ≤ keyAt key heap pos

def Compares (less : α → α → Bool) : Prop :=
  ∀ one other, less one other = true ↔ key one < key other

variable {key}

theorem lessAt_iff {less : α → α → Bool} (compares : Compares key less) {heap : Array α}
    {first second : Nat} (inside : second < heap.size) :
    lessAt less heap first second = true ↔ keyAt key heap first < keyAt key heap second := by
  have known : heap[second]? = some heap[second] := Array.getElem?_eq_getElem inside
  simp only [lessAt, keyAt, known]
  cases heap[first]? with
  | none => simp
  | some one => simpa using compares one heap[second]

theorem keyAt_lt_top {heap : Array α} {pos : Nat} (below : keyAt key heap pos < ⊤) :
    pos < heap.size := by
  by_contra outside
  rw [keyAt, Array.getElem?_eq_none (by omega)] at below
  exact lt_irrefl _ below

theorem IsHeap.congr {key' : α → K} {heap : Array α} (isHeap : IsHeap key heap)
    (same : ∀ item ∈ heap, key' item = key item) : IsHeap key' heap := by
  have positions (pos : Nat) : keyAt key' heap pos = keyAt key heap pos := by
    rcases Nat.lt_or_ge pos heap.size with inside | outside
    · simp [keyAt, Array.getElem?_eq_getElem inside, same _ (Array.getElem_mem inside)]
    · simp [keyAt, Array.getElem?_eq_none outside]
  intro pos positive
  rw [positions, positions]
  exact isHeap pos positive

/-- **The root holds a least key.** -/
theorem root_le {heap : Array α} (isHeap : IsHeap key heap) (pos : Nat) :
    keyAt key heap 0 ≤ keyAt key heap pos := by
  induction pos using Nat.strong_induction_on with
  | _ pos ih =>
    rcases Nat.eq_zero_or_pos pos with rfl | positive
    · exact le_rfl
    · exact (ih ((pos - 1) / 2) (by omega)).trans (isHeap pos positive)

/-- The order is broken at most between a position and its parent. -/
structure UpOrder (key : α → K) (heap : Array α) (hole : Nat) : Prop where
  others : ∀ pos, 0 < pos → pos ≠ hole → keyAt key heap ((pos - 1) / 2) ≤ keyAt key heap pos
  grand : ∀ pos, 0 < pos → (pos - 1) / 2 = hole → 0 < hole →
    keyAt key heap ((hole - 1) / 2) ≤ keyAt key heap pos

/-- The order is broken at most between a position and its children. -/
structure DownOrder (key : α → K) (heap : Array α) (hole : Nat) : Prop where
  others : ∀ pos, 0 < pos → (pos - 1) / 2 ≠ hole →
    keyAt key heap ((pos - 1) / 2) ≤ keyAt key heap pos
  grand : ∀ pos, 0 < pos → (pos - 1) / 2 = hole → 0 < hole →
    keyAt key heap ((hole - 1) / 2) ≤ keyAt key heap pos

theorem UpOrder.swap {heap : Array α} {hole : Nat} (order : UpOrder key heap hole)
    (positive : 0 < hole) (inside : hole < heap.size)
    (smaller : keyAt key heap hole < keyAt key heap ((hole - 1) / 2)) :
    UpOrder key (heap.swapIfInBounds hole ((hole - 1) / 2)) ((hole - 1) / 2) := by
  have parentInside : (hole - 1) / 2 < heap.size := by omega
  refine ⟨fun pos positive' different => ?_, fun pos positive' child grandparent => ?_⟩
  · simp only [keyAt_swap heap inside parentInside]
    by_cases atHole : pos = hole
    · subst atHole
      rw [if_neg (by omega), if_pos rfl, if_pos rfl]
      exact smaller.le
    · by_cases below : (pos - 1) / 2 = hole
      · rw [if_pos below, if_neg atHole, if_neg different]
        exact order.grand pos positive' below positive
      · rw [if_neg below, if_neg atHole, if_neg different]
        by_cases sibling : (pos - 1) / 2 = (hole - 1) / 2
        · rw [if_pos sibling]
          exact smaller.le.trans (sibling ▸ order.others pos positive' atHole)
        · rw [if_neg sibling]
          exact order.others pos positive' atHole
  · simp only [keyAt_swap heap inside parentInside]
    rw [if_neg (by omega), if_neg (by omega)]
    have above := order.others ((hole - 1) / 2) grandparent (by omega)
    by_cases atHole : pos = hole
    · rw [if_pos atHole]
      exact above
    · rw [if_neg atHole, if_neg (by omega)]
      exact above.trans (child ▸ order.others pos positive' atHole)

/-- **Sifting up restores the order.** -/
theorem siftUp_isHeap {less : α → α → Bool} (compares : Compares key less) {fuel hole : Nat}
    {heap : Array α} (order : UpOrder key heap hole) (inside : hole < heap.size)
    (enough : hole ≤ fuel) : IsHeap key (siftUp less fuel heap hole) := by
  induction fuel generalizing heap hole with
  | zero => exact fun pos positive => order.others pos positive (by omega)
  | succ fuel ih =>
    simp only [siftUp]
    split_ifs with atRoot smaller
    · exact fun pos positive => order.others pos positive (by omega)
    · rw [lessAt_iff compares (by omega)] at smaller
      exact ih (order.swap (by omega) inside smaller) (by simp; omega) (by omega)
    · rw [lessAt_iff compares (by omega), not_lt] at smaller
      intro pos positive
      by_cases atHole : pos = hole
      · exact atHole ▸ smaller
      · exact order.others pos positive atHole

theorem smallestOf_spec {less : α → α → Bool} (compares : Compares key less) {heap : Array α}
    {hole : Nat} (inside : hole < heap.size) :
    (smallestOf less heap hole = hole ∨
      0 < smallestOf less heap hole ∧ (smallestOf less heap hole - 1) / 2 = hole ∧
        keyAt key heap (smallestOf less heap hole) < keyAt key heap hole) ∧
      ∀ pos, 0 < pos → (pos - 1) / 2 = hole →
        keyAt key heap (smallestOf less heap hole) ≤ keyAt key heap pos := by
  have children (pos : Nat) (positive : 0 < pos) (child : (pos - 1) / 2 = hole) :
      pos = hole * 2 + 1 ∨ pos = hole * 2 + 1 + 1 := by omega
  simp only [smallestOf]
  by_cases left : lessAt less heap (hole * 2 + 1) hole = true
  · have leftLess := (lessAt_iff compares inside).mp left
    have leftInside := keyAt_lt_top (leftLess.trans_le le_top)
    simp only [left, if_true]
    by_cases right : lessAt less heap (hole * 2 + 1 + 1) (hole * 2 + 1) = true
    · have rightLess := (lessAt_iff compares leftInside).mp right
      simp only [right, if_true]
      refine ⟨Or.inr ⟨by omega, by omega, rightLess.trans leftLess⟩, fun pos positive child => ?_⟩
      rcases children pos positive child with rfl | rfl
      · exact rightLess.le
      · exact le_rfl
    · have rightLess := (lessAt_iff compares leftInside).not.mp right
      simp only [right]
      refine ⟨Or.inr ⟨by simp, by simp, leftLess⟩, fun pos positive child => ?_⟩
      rcases children pos positive child with rfl | rfl
      · exact le_rfl
      · exact not_lt.mp rightLess
  · have leftLess := (lessAt_iff compares inside).not.mp left
    simp only [left]
    by_cases right : lessAt less heap (hole * 2 + 1 + 1) hole = true
    · have rightLess := (lessAt_iff compares inside).mp right
      simp only [Bool.false_eq_true, if_false, right, if_true]
      refine ⟨Or.inr ⟨by omega, by omega, rightLess⟩, fun pos positive child => ?_⟩
      rcases children pos positive child with rfl | rfl
      · exact rightLess.le.trans (not_lt.mp leftLess)
      · exact le_rfl
    · have rightLess := (lessAt_iff compares inside).not.mp right
      simp only [Bool.false_eq_true, if_false, right]
      refine ⟨Or.inl trivial, fun pos positive child => ?_⟩
      rcases children pos positive child with rfl | rfl
      · exact not_lt.mp leftLess
      · exact not_lt.mp rightLess

theorem DownOrder.swap {heap : Array α} {hole child : Nat} (order : DownOrder key heap hole)
    (inside : hole < heap.size) (positive : 0 < child) (below : (child - 1) / 2 = hole)
    (smaller : keyAt key heap child < keyAt key heap hole)
    (least : ∀ pos, 0 < pos → (pos - 1) / 2 = hole → keyAt key heap child ≤ keyAt key heap pos) :
    DownOrder key (heap.swapIfInBounds hole child) child := by
  have childInside := keyAt_lt_top (smaller.trans_le le_top)
  refine ⟨fun pos positive' off => ?_, fun pos positive' at' grandparent => ?_⟩
  · simp only [keyAt_swap heap inside childInside]
    by_cases atHole : pos = hole
    · subst atHole
      rw [if_neg (by omega), if_neg (by omega), if_pos rfl]
      exact order.grand child positive below positive'
    · by_cases atChild : pos = child
      · subst atChild
        rw [if_pos below, if_neg atHole, if_pos rfl]
        exact smaller.le
      · rw [if_neg atHole, if_neg atChild]
        by_cases sibling : (pos - 1) / 2 = hole
        · rw [if_pos sibling]
          exact least pos positive' sibling
        · rw [if_neg sibling, if_neg off]
          exact order.others pos positive' sibling
  · simp only [keyAt_swap heap inside childInside]
    rw [if_pos below, if_neg (by omega), if_neg (by omega)]
    exact at' ▸ order.others pos positive' (by omega)

/-- **Sifting down restores the order.** -/
theorem siftDown_isHeap {less : α → α → Bool} (compares : Compares key less) {fuel hole : Nat}
    {heap : Array α} (order : DownOrder key heap hole) (inside : hole < heap.size)
    (enough : heap.size ≤ hole + fuel) : IsHeap key (siftDown less fuel heap hole) := by
  induction fuel generalizing heap hole with
  | zero => omega
  | succ fuel ih =>
    obtain ⟨chosen, least⟩ := smallestOf_spec compares inside
    simp only [siftDown]
    split_ifs with stays
    · intro pos positive
      by_cases child : (pos - 1) / 2 = hole
      · rw [child]
        exact stays ▸ least pos positive child
      · exact order.others pos positive child
    · obtain ⟨positive, below, smaller⟩ := chosen.resolve_left stays
      have childInside := keyAt_lt_top (smaller.trans_le le_top)
      exact ih (order.swap inside positive below smaller least) (by simpa using childInside)
        (by simp; omega)

/-- **Pushing keeps a heap.** -/
theorem push_isHeap {less : α → α → Bool} (compares : Compares key less) {heap : Array α}
    (isHeap : IsHeap key heap) (item : α) : IsHeap key (push less heap item) := by
  refine siftUp_isHeap compares ⟨fun pos positive different => ?_, fun pos positive child _ => ?_⟩
    (by simp) le_rfl
  · simp only [keyAt_push, if_neg different]
    split_ifs with atEnd
    · have outside : keyAt key heap pos = ⊤ := by
        rw [keyAt, Array.getElem?_eq_none (by omega)]
      rw [outside]
      exact le_top
    · exact isHeap pos positive
  · have outside : keyAt key heap pos = ⊤ := by
      rw [keyAt, Array.getElem?_eq_none (by omega)]
    simp only [keyAt_push, if_neg (show pos ≠ heap.size by omega), outside]
    exact le_top

/-- **Replacing the root keeps a heap.** -/
theorem replaceRoot_isHeap {less : α → α → Bool} (compares : Compares key less) {heap : Array α}
    (isHeap : IsHeap key heap) (nonempty : 0 < heap.size) (item : α) :
    IsHeap key (replaceRoot less heap item) := by
  refine siftDown_isHeap compares ⟨fun pos positive child => ?_, fun _ _ _ impossible => ?_⟩
    (by simpa using nonempty) (by simp)
  · simp only [keyAt_setRoot nonempty]
    rw [if_neg child, if_neg (by omega)]
    exact isHeap pos positive
  · exact absurd impossible (lt_irrefl 0)

theorem pop_isHeap {less : α → α → Bool} (compares : Compares key less) {heap : Array α}
    (isHeap : IsHeap key heap) : IsHeap key (pop less heap) := by
  have kept : IsHeap key heap.pop := by
    intro pos positive
    rcases Nat.lt_or_ge pos heap.pop.size with inside | outside
    · have parent : (pos - 1) / 2 < heap.pop.size := by omega
      have bound : heap.pop.size = heap.size - 1 := Array.size_pop
      have ordered := isHeap pos positive
      simpa only [keyAt, Array.getElem?_pop, bound ▸ inside, bound ▸ parent, if_true] using ordered
    · have absent : keyAt key heap.pop pos = ⊤ := by
        rw [keyAt, Array.getElem?_eq_none outside]
      rw [absent]
      exact le_top
  unfold pop
  cases heap.back? with
  | none => exact isHeap
  | some last =>
    dsimp only
    rcases Nat.eq_zero_or_pos heap.pop.size with empty | nonempty
    · rw [replaceRoot_empty less empty]
      exact kept
    · exact replaceRoot_isHeap compares kept nonempty last

theorem DownOrder.of_raise {raised : α → K} {heap : Array α} {hole : Nat}
    (isHeap : IsHeap key heap)
    (same : ∀ pos, pos ≠ hole → keyAt raised heap pos = keyAt key heap pos)
    (above : keyAt key heap hole ≤ keyAt raised heap hole) : DownOrder raised heap hole := by
  refine ⟨fun pos positive off => ?_, fun pos positive child grandparent => ?_⟩
  · rw [same _ off]
    by_cases atHole : pos = hole
    · subst atHole
      exact (isHeap pos positive).trans above
    · exact same pos atHole ▸ isHeap pos positive
  · rw [same _ (by omega), same _ (by omega)]
    exact (isHeap hole grandparent).trans (child ▸ isHeap pos positive)

theorem root_le_mem {heap : Array α} (isHeap : IsHeap key heap) {root item : α}
    (atRoot : heap[0]? = some root) (member : item ∈ heap) : key root ≤ key item := by
  obtain ⟨pos, inside, rfl⟩ := Array.mem_iff_getElem.mp member
  have least := root_le isHeap pos
  simpa [keyAt, atRoot, Array.getElem?_eq_getElem inside] using least

end Order

end TurboHybrid.Library.BinaryHeap
