/-
**Descents end.**

A descent goes from node to node with ever smaller distances. The nodes that are nearer than the
current one are fewer after each step.

* `nearerNodes_lt`: one step;
* `nearerNodes_length`: as many steps as there are nodes are enough.
-/
import Mathlib.Data.List.Basic
import Mathlib.Order.Lattice
import Mathlib.Tactic.Common

namespace TurboHybrid.Library

variable {D : Type} [LinearOrder D] {distanceOf : Nat → Option D} {nodeCount nodeId : Nat}
  {current next : D}

/-- The nodes with a distance that is smaller than the current one. -/
def nearerNodes (distanceOf : Nat → Option D) (nodeCount : Nat) (current : D) : List Nat :=
  (List.range nodeCount).filter fun nodeId =>
    (distanceOf nodeId).any fun distance => decide (distance < current)

theorem nearerNodes_length (distanceOf : Nat → Option D) (nodeCount : Nat) (current : D) :
    (nearerNodes distanceOf nodeCount current).length < nodeCount + 1 :=
  Nat.lt_succ_of_le ((List.length_filter_le _ _).trans List.length_range.le)

/-- **A step to a nearer node** leaves fewer nodes that are nearer still. -/
theorem nearerNodes_lt (inside : nodeId < nodeCount) (known : distanceOf nodeId = some next)
    (nearer : next < current) :
    (nearerNodes distanceOf nodeCount next).length <
      (nearerNodes distanceOf nodeCount current).length := by
  have part : (nearerNodes distanceOf nodeCount next).Sublist
      (nearerNodes distanceOf nodeCount current) := by
    refine List.monotone_filter_right _ fun other near => ?_
    rcases found : distanceOf other with _ | distance
    · simp [found] at near
    · rw [found] at near
      exact decide_eq_true ((of_decide_eq_true near).trans nearer)
  have member : nodeId ∈ nearerNodes distanceOf nodeCount current :=
    List.mem_filter.mpr ⟨List.mem_range.mpr inside, by simpa [known] using nearer⟩
  have outside : nodeId ∉ nearerNodes distanceOf nodeCount next := fun itself => by
    simpa [known] using (List.mem_filter.mp itself).2
  refine lt_of_le_of_ne part.length_le fun same => outside ?_
  rw [part.eq_of_length same]
  exact member

end TurboHybrid.Library
