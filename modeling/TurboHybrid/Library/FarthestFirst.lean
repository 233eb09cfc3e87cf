/-
**Farthest-first selection.**

Places are chosen one after the other, each time one whose smallest distance to the chosen ones is
the largest, the first of several. The rule (`IsNext`, `FollowsRule`) recomputes nothing and keeps
nothing; an implementation keeps a table of the smallest distances and scans it.

* `scanBest_spec`: what a scan that replaces its best place by a better one finds;
* `isNext_of_scanBest`: the scan of a table of smallest distances finds the next place of the rule.
-/
import Mathlib.Data.List.Nodup
import Mathlib.Data.List.Range
import Mathlib.Order.MinMax

set_option linter.unusedSectionVars false

namespace TurboHybrid.Library.FarthestFirst

variable {K : Type*} [LinearOrder K]

/-! ### The rule -/

section Rule

variable (available : Nat → Prop) (distance : Nat → Nat → K)

/-- The smallest distance of a place to the chosen ones. -/
def IsSmallest (chosen : List Nat) (place : Nat) (least : K) : Prop :=
  (∃ one ∈ chosen, distance place one = least) ∧ ∀ one ∈ chosen, least ≤ distance place one

/-- **The next place**: an available one, not chosen yet, whose smallest distance to the chosen ones
is the largest; of several the first. -/
structure IsNext (chosen : List Nat) (next : Nat) : Prop where
  ready : available next
  new : next ∉ chosen
  farthest : ∀ other least otherLeast, available other → other ∉ chosen →
    IsSmallest distance chosen next least → IsSmallest distance chosen other otherLeast →
      otherLeast < least ∨ (otherLeast = least ∧ next ≤ other)

/-- The places are picked one after the other by the rule. -/
def FollowsRule : List Nat → List Nat → Prop
  | _, [] => True
  | chosen, next :: rest =>
    IsNext available distance chosen next ∧ FollowsRule (chosen ++ [next]) rest

variable {available distance}

theorem followsRule_append {chosen picked : List Nat} {next : Nat}
    (follows : FollowsRule available distance chosen picked)
    (isNext : IsNext available distance (chosen ++ picked) next) :
    FollowsRule available distance chosen (picked ++ [next]) := by
  induction picked generalizing chosen with
  | nil =>
    rw [List.append_nil] at isNext
    exact ⟨isNext, trivial⟩
  | cons place rest ih =>
    obtain ⟨first, later⟩ := follows
    rw [List.append_cons] at isNext
    exact ⟨first, ih later isNext⟩

theorem FollowsRule.distinct {chosen picked : List Nat}
    (follows : FollowsRule available distance chosen picked) (distinct : chosen.Nodup) :
    (chosen ++ picked).Nodup := by
  induction picked generalizing chosen with
  | nil => rwa [List.append_nil]
  | cons place rest ih =>
    obtain ⟨first, later⟩ := follows
    rw [List.append_cons]
    refine ih later (List.nodup_append.mpr ⟨distinct, List.nodup_singleton _, ?_⟩)
    rintro one member other single rfl
    exact first.new (List.mem_singleton.mp single ▸ member)

theorem FollowsRule.ready {chosen picked : List Nat}
    (follows : FollowsRule available distance chosen picked) :
    ∀ place ∈ picked, available place := by
  induction picked generalizing chosen with
  | nil => exact fun _ member => absurd member List.not_mem_nil
  | cons place rest ih =>
    intro other member
    rcases List.mem_cons.mp member with rfl | inside
    · exact follows.1.ready
    · exact ih follows.2 other inside

theorem IsSmallest.add {chosen : List Nat} {place one : Nat} {least : K}
    (smallest : IsSmallest distance chosen place least) :
    IsSmallest distance (chosen ++ [one]) place (min least (distance place one)) := by
  obtain ⟨⟨nearest, member, reached⟩, below⟩ := smallest
  refine ⟨?_, fun other inside => ?_⟩
  · rcases min_choice least (distance place one) with same | same
    · exact ⟨nearest, List.mem_append_left _ member, reached.trans same.symm⟩
    · exact ⟨one, List.mem_append_right _ List.mem_cons_self, same.symm⟩
  · rcases List.mem_append.mp inside with old | new
    · exact (min_le_left _ _).trans (below other old)
    · rw [List.mem_singleton.mp new]
      exact min_le_right _ _

theorem IsSmallest.unique {chosen : List Nat} {place : Nat} {least other : K}
    (smallest : IsSmallest distance chosen place least)
    (smallest' : IsSmallest distance chosen place other) : least = other := by
  obtain ⟨⟨one, member, rfl⟩, below⟩ := smallest
  obtain ⟨⟨one', member', rfl⟩, below'⟩ := smallest'
  exact le_antisymm (below one' member') (below' one member)

end Rule

/-! ### The scan -/

section Scan

variable (better : Nat → Nat → Prop) [DecidableRel better] (isOpen : Nat → Prop)
  [DecidablePred isOpen]

/-- An open place replaces the best so far where it is better. -/
def scanStep (best : Option Nat) (place : Nat) : Option Nat :=
  if isOpen place then
    match best with
    | none => some place
    | some old => if better place old then some place else best
  else best

def scanBest (n : Nat) : Option Nat :=
  (List.range n).foldl (scanStep better isOpen) none

/-- An open place with the largest entry of a table, the first of several. -/
structure IsBest (table : Nat → K) (n best : Nat) : Prop where
  inside : best < n
  opened : isOpen best
  most : ∀ other < n, isOpen other →
    table other < table best ∨ (table other = table best ∧ best ≤ other)

variable {better isOpen} {table : Nat → K} {n : Nat}

theorem scanBest_succ :
    scanBest better isOpen (n + 1) = scanStep better isOpen (scanBest better isOpen n) n := by
  rw [scanBest, List.range_succ, List.foldl_append]
  rfl

theorem IsBest.skip {best : Nat} (found : IsBest isOpen table n best) (closed : ¬isOpen n) :
    IsBest isOpen table (n + 1) best := by
  refine ⟨Nat.lt_succ_of_lt found.inside, found.opened, fun other bound opened => ?_⟩
  rcases Nat.lt_succ_iff_lt_or_eq.mp bound with earlier | rfl
  · exact found.most other earlier opened
  · exact absurd opened closed

theorem IsBest.keep {best : Nat} (found : IsBest isOpen table n best)
    (notBetter : ¬table best < table n) : IsBest isOpen table (n + 1) best := by
  refine ⟨Nat.lt_succ_of_lt found.inside, found.opened, fun other bound opened => ?_⟩
  rcases Nat.lt_succ_iff_lt_or_eq.mp bound with earlier | rfl
  · exact found.most other earlier opened
  · rcases lt_or_eq_of_le (not_lt.mp notBetter) with less | same
    · exact .inl less
    · exact .inr ⟨same, found.inside.le⟩

theorem IsBest.replace {best : Nat} (found : IsBest isOpen table n best) (opened : isOpen n)
    (larger : table best < table n) : IsBest isOpen table (n + 1) n := by
  refine ⟨Nat.lt_succ_self n, opened, fun other bound inside => ?_⟩
  rcases Nat.lt_succ_iff_lt_or_eq.mp bound with earlier | rfl
  · rcases found.most other earlier inside with less | ⟨same, -⟩
    · exact .inl (less.trans larger)
    · exact .inl (same ▸ larger)
  · exact .inr ⟨rfl, le_rfl⟩

/-- **The scan** finds the best open place, where one place is better than an earlier one exactly
if its entry is larger. -/
theorem scanBest_spec
    (follows : ∀ old new, old < new → (better new old ↔ table old < table new)) :
    (∀ best, scanBest better isOpen n = some best → IsBest isOpen table n best) ∧
      (scanBest better isOpen n = none → ∀ place < n, ¬isOpen place) := by
  induction n with
  | zero =>
    refine ⟨fun best found => ?_, fun _ place bound => absurd bound (Nat.not_lt_zero _)⟩
    cases found
  | succ n ih =>
    obtain ⟨known, missing⟩ := ih
    rw [scanBest_succ]
    rcases before : scanBest better isOpen n with _ | old
    · rw [scanStep]
      have nothing := missing before
      by_cases opened : isOpen n
      · rw [if_pos opened]
        refine ⟨fun best found => ?_, fun found => absurd found (Option.some_ne_none _)⟩
        obtain rfl := Option.some.inj found
        refine ⟨Nat.lt_succ_self _, opened, fun other bound inside => ?_⟩
        rcases Nat.lt_succ_iff_lt_or_eq.mp bound with earlier | rfl
        · exact absurd inside (nothing other earlier)
        · exact .inr ⟨rfl, le_rfl⟩
      · rw [if_neg opened]
        refine ⟨fun best found => absurd found.symm (Option.some_ne_none _),
          fun _ place bound => ?_⟩
        rcases Nat.lt_succ_iff_lt_or_eq.mp bound with earlier | rfl
        · exact nothing place earlier
        · exact opened
    · have best := known old before
      have step := follows old n best.inside
      rw [scanStep]
      by_cases opened : isOpen n
      · rw [if_pos opened]
        by_cases better' : better n old
        · rw [if_pos better']
          refine ⟨fun _ found => ?_, fun found => absurd found (Option.some_ne_none _)⟩
          rw [← Option.some.inj found]
          exact best.replace opened (step.mp better')
        · rw [if_neg better']
          refine ⟨fun _ found => ?_, fun found => absurd found (Option.some_ne_none _)⟩
          rw [← Option.some.inj found]
          exact best.keep fun larger => better' (step.mpr larger)
      · rw [if_neg opened]
        refine ⟨fun _ found => ?_, fun found => absurd found (Option.some_ne_none _)⟩
        rw [← Option.some.inj found]
        exact best.skip opened

/-- **The scan of a table of smallest distances** finds the next place of the rule. -/
theorem isNext_of_scanBest {available : Nat → Prop} {distance : Nat → Nat → K} {chosen : List Nat}
    {best : Nat} (follows : ∀ old new, old < new → (better new old ↔ table old < table new))
    (opens : ∀ place, isOpen place ↔ available place ∧ place ∉ chosen)
    (inside : ∀ place, available place → place < n)
    (smallest : ∀ place least, isOpen place → IsSmallest distance chosen place least →
      table place = least)
    (found : scanBest better isOpen n = some best) :
    IsNext available distance chosen best := by
  have isBest := (scanBest_spec follows).1 best found
  obtain ⟨ready, new⟩ := (opens best).mp isBest.opened
  refine ⟨ready, new, fun other least otherLeast ready' new' here there => ?_⟩
  have opened := (opens other).mpr ⟨ready', new'⟩
  have order := isBest.most other (inside other ready') opened
  rwa [smallest best least isBest.opened here, smallest other otherLeast opened there] at order

end Scan

end TurboHybrid.Library.FarthestFirst
