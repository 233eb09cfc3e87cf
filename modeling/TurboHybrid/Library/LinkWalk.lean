/-
**Walks along links.**

Every place has at most one link. A walk follows the links from its start as long as the places are
free and new to it.

* `follow`: the place after a number of links;
* `Walk`: the places of a walk, distinct, free, and followed from the start to where it ends;
* `Walk.revisits_iff`: following the links through free places comes back to a place exactly when
  the walk ends at a link to one of its own places.
-/
import Mathlib.Data.List.GetD
import Mathlib.Data.List.Nodup
import Mathlib.Data.Nat.Init
import Mathlib.Data.Option.Basic
import Mathlib.Order.Basic

namespace TurboHybrid.Library

variable {α : Type*}

/-- The place after `k` links. -/
def follow (link : α → Option α) (start : α) : Nat → Option α
  | 0 => some start
  | k + 1 => (follow link start k).bind link

/-- **Following the links comes back** to a place, through free places only. -/
def Revisits (link : α → Option α) (free : α → Prop) (start : α) : Prop :=
  ∃ i j place, i < j ∧ follow link start i = some place ∧ follow link start j = some place ∧
    ∀ k ≤ j, ∀ other, follow link start k = some other → free other

structure Walk (link : α → Option α) (free : α → Prop) (start : α) (places : List α) : Prop where
  nodup : places.Nodup
  free : ∀ place ∈ places, free place
  follows : ∀ k place, places[k]? = some place → follow link start k = some place

namespace Walk

variable {link : α → Option α} {free : α → Prop} {start : α} {places : List α}

theorem nil : Walk link free start [] where
  nodup := List.nodup_nil
  free place member := absurd member List.not_mem_nil
  follows k place found := by
    rw [List.getElem?_nil] at found
    cases found

theorem push (walk : Walk link free start places) {place : α}
    (next : follow link start places.length = some place) (unused : free place)
    (fresh : place ∉ places) : Walk link free start (places ++ [place]) where
  nodup := by
    rw [List.nodup_append]
    refine ⟨walk.nodup, List.nodup_singleton place, fun one member other last => ?_⟩
    rw [List.mem_singleton.mp last]
    exact fun same => fresh (same ▸ member)
  free other member := by
    rcases List.mem_append.mp member with earlier | last
    · exact walk.free other earlier
    · rw [List.mem_singleton.mp last]
      exact unused
  follows k other found := by
    by_cases before : k < places.length
    · rw [List.getElem?_append_left before] at found
      exact walk.follows k other found
    · rw [List.getElem?_append_right (Nat.not_lt.mp before)] at found
      obtain ⟨bound, same⟩ := List.getElem?_eq_some_iff.mp found
      have last : k = places.length := by
        rw [List.length_singleton] at bound
        omega
      rw [last, next]
      simp only [List.getElem_singleton] at same
      rw [same]

/-- **A walk that has ended comes back** exactly when it ends at one of its own places. -/
theorem revisits_iff (walk : Walk link free start places)
    (ended : ∀ place, follow link start places.length = some place →
      free place → place ∈ places) :
    Revisits link free start ↔
      ∃ place ∈ places, follow link start places.length = some place := by
  constructor
  · rintro ⟨i, j, place, order, first, second, unused⟩
    -- within the walk all places differ, so the return is not before its end
    have long : places.length ≤ j := by
      by_contra short
      have inside : j < places.length := Nat.lt_of_not_le short
      have left := walk.follows i _ (List.getElem?_eq_getElem (Nat.lt_trans order inside))
      have right := walk.follows j _ (List.getElem?_eq_getElem inside)
      have same : places[i] = places[j] :=
        Option.some_injective _ ((left.symm.trans first).trans (second.symm.trans right))
      exact absurd ((walk.nodup.getElem_inj_iff).mp same) (Nat.ne_of_lt order)
    have reached (k : Nat) (bound : k ≤ j) : ∃ other, follow link start k = some other := by
      induction bound using Nat.decreasingInduction with
      | of_succ k _ ih =>
        obtain ⟨other, found⟩ := ih
        obtain ⟨before, found, _⟩ := Option.bind_eq_some_iff.mp found
        exact ⟨before, found⟩
      | self => exact ⟨place, second⟩
    obtain ⟨other, found⟩ := reached places.length long
    exact ⟨other, ended other found (unused places.length long other found), found⟩
  · rintro ⟨place, member, found⟩
    obtain ⟨i, inside, same⟩ := List.mem_iff_getElem.mp member
    refine ⟨i, places.length, place, inside, ?_, found, fun k bound other reached => ?_⟩
    · rw [← same]
      exact walk.follows i _ (List.getElem?_eq_getElem inside)
    · rcases Nat.lt_or_eq_of_le bound with before | last
      · have place := walk.follows k _ (List.getElem?_eq_getElem before)
        rw [Option.some_injective _ (reached.symm.trans place)]
        exact walk.free _ (List.getElem_mem before)
      · rw [last, found] at reached
        rw [← Option.some_injective _ reached]
        exact walk.free _ member

end Walk

end TurboHybrid.Library
