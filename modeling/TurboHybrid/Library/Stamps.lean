/-
**Marks by a stamp of the round.**

A cell is marked when it holds the stamp of the current round. A new round takes the next stamp, so
that no cell has to be cleared; when the stamps are used up all cells are cleared and the stamps
start again.

* `Clean.nextRound`: in a new round no cell is marked;
* `marked_mark`: a mark marks its cell and no other;
* `Clean.mark`, `Clean.grow`: marks and new cells keep the order of the stamps.
-/
import Mathlib.Order.Nat
import Mathlib.Tactic.Common

namespace TurboHybrid.Library

/-- The cells and the stamp of the current round. -/
structure Stamps (w : Nat) where
  cells : List (BitVec w)
  generation : BitVec w
  deriving DecidableEq, Repr

namespace Stamps

variable {w : Nat}

def fresh (w count : Nat) : Stamps w := ⟨List.replicate count 0, 0⟩

def nextRound (stamps : Stamps w) : Stamps w :=
  if stamps.generation + 1 = 0 then
    ⟨List.replicate stamps.cells.length 0, stamps.generation + 1 + 1⟩
  else { stamps with generation := stamps.generation + 1 }

def marked (stamps : Stamps w) (cell : Nat) : Bool :=
  decide (stamps.cells[cell]? = some stamps.generation)

def mark (stamps : Stamps w) (cell : Nat) : Stamps w :=
  { stamps with cells := stamps.cells.set cell stamps.generation }

def grow (stamps : Stamps w) : Stamps w := { stamps with cells := stamps.cells ++ [0] }

def Clean (stamps : Stamps w) : Prop :=
  ∀ stamp ∈ stamps.cells, stamp.toNat ≤ stamps.generation.toNat

variable {stamps : Stamps w}

theorem clean_fresh (w count : Nat) : (fresh w count).Clean := by
  intro stamp member
  rw [List.eq_of_mem_replicate member]
  exact Nat.zero_le _

theorem Clean.mark (clean : stamps.Clean) (cell : Nat) : (stamps.mark cell).Clean := by
  intro stamp member
  rcases List.mem_or_eq_of_mem_set member with old | rfl
  · exact clean stamp old
  · exact le_rfl

theorem Clean.grow (clean : stamps.Clean) : stamps.grow.Clean := by
  intro stamp member
  rcases List.mem_append.mp member with old | new
  · exact clean stamp old
  · rw [List.mem_singleton.mp new]
    exact Nat.zero_le _

theorem length_nextRound (stamps : Stamps w) :
    stamps.nextRound.cells.length = stamps.cells.length := by
  unfold nextRound
  split_ifs
  · exact List.length_replicate
  · rfl

theorem length_mark (stamps : Stamps w) (cell : Nat) :
    (stamps.mark cell).cells.length = stamps.cells.length :=
  List.length_set

theorem toNat_next (wide : 0 < w) {generation : BitVec w} (more : generation + 1 ≠ 0) :
    (generation + 1).toNat = generation.toNat + 1 := by
  have one : (1 : BitVec w).toNat = 1 := BitVec.toNat_one wide
  have bound := generation.isLt
  rw [BitVec.toNat_add, one]
  refine Nat.mod_eq_of_lt (lt_of_le_of_ne bound fun full => more ?_)
  apply BitVec.eq_of_toNat_eq
  rw [BitVec.toNat_add, one, full, Nat.mod_self]
  rfl

/-- **A new round** has no marks. -/
theorem Clean.nextRound (clean : stamps.Clean) (wide : 0 < w) :
    stamps.nextRound.Clean ∧ ∀ cell, stamps.nextRound.marked cell = false := by
  unfold Stamps.nextRound
  split_ifs with last
  · have first : stamps.generation + 1 + 1 ≠ 0 := by
      have next : stamps.generation + 1 + 1 = 1 := last ▸ BitVec.zero_add 1
      intro wrong
      have one : (1 : BitVec w).toNat = 1 := BitVec.toNat_one wide
      rw [← next, wrong] at one
      cases one
    refine ⟨fun stamp member => ?_, fun cell => ?_⟩
    · rw [List.eq_of_mem_replicate member]
      exact Nat.zero_le _
    · rw [marked, decide_eq_false_iff_not]
      exact fun here => first (List.eq_of_mem_replicate (List.mem_of_getElem? here))
  · have later := toNat_next wide last
    refine ⟨fun stamp member => ?_, fun cell => ?_⟩
    · rw [later]
      exact (clean stamp member).trans (Nat.le_succ _)
    · rw [marked, decide_eq_false_iff_not]
      intro here
      have old := clean _ (List.mem_of_getElem? here)
      rw [later] at old
      exact Nat.not_succ_le_self _ old

/-- **A mark** marks its cell and no other. -/
theorem marked_mark {cell : Nat} (inside : cell < stamps.cells.length) (other : Nat) :
    (stamps.mark cell).marked other = (decide (other = cell) || stamps.marked other) := by
  rw [marked, marked, mark]
  by_cases same : other = cell
  · subst same
    simp [inside]
  · rw [List.getElem?_set_ne (Ne.symm same), decide_eq_false same, Bool.false_or]

end Stamps

end TurboHybrid.Library
