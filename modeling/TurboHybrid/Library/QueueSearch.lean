/-
**Search with a queue.**

A node is put at the end of the queue when it is offered for the first time and admitted. The queue is
read from its front, and the successors of the node that is read are offered.

* `search_mem_iff`: with fuel for all admitted nodes, what is found is what can be reached;
* `search_nodup`: no node is found twice.
-/
import Mathlib.Data.List.Nodup
import Mathlib.Data.List.Perm.Subperm
import Mathlib.Logic.Relation
import Mathlib.Order.Nat
import Mathlib.Tactic.Common

set_option linter.unusedSectionVars false

namespace TurboHybrid.Library

variable {Node : Type*} [DecidableEq Node] (admits : Node → Bool) (next : Node → List Node)

def offer (found : List Node) (node : Node) : List Node :=
  if admits node ∧ node ∉ found then found ++ [node] else found

/-- The queue after the nodes from a position on are read. -/
def readQueue : Nat → Nat → List Node → List Node
  | 0, _, found => found
  | fuel + 1, head, found =>
    match found[head]? with
    | none => found
    | some node => readQueue fuel (head + 1) ((next node).foldl (offer admits) found)

def search (fuel : Nat) (seeds : List Node) : List Node :=
  readQueue admits next fuel 0 (seeds.foldl (offer admits) [])

def Steps (source target : Node) : Prop := target ∈ next source ∧ admits target = true

variable {admits next}

/-! ### What offers keep -/

theorem offer_grows (found : List Node) (node : Node) : found <+: offer admits found node := by
  unfold offer
  split_ifs
  · exact List.prefix_append _ _
  · exact List.prefix_refl _

theorem offers_grow (nodes found : List Node) : found <+: nodes.foldl (offer admits) found := by
  induction nodes generalizing found with
  | nil => exact List.prefix_refl _
  | cons node rest ih => exact (offer_grows found node).trans (ih _)

theorem mem_offer_iff {found : List Node} {node other : Node} :
    other ∈ offer admits found node ↔ other ∈ found ∨ other = node ∧ admits node = true := by
  unfold offer
  split_ifs with new
  · rw [List.mem_append, List.mem_singleton]
    exact or_congr_right ⟨fun same => ⟨same, new.1⟩, fun both => both.1⟩
  · refine ⟨Or.inl, fun member => member.elim id ?_⟩
    rintro ⟨rfl, admitted⟩
    by_contra absent
    exact new ⟨admitted, absent⟩

theorem mem_offers_iff {nodes found : List Node} {other : Node} :
    other ∈ nodes.foldl (offer admits) found ↔
      other ∈ found ∨ other ∈ nodes ∧ admits other = true := by
  induction nodes generalizing found with
  | nil => simp
  | cons node rest ih =>
    rw [List.foldl_cons, ih, mem_offer_iff, List.mem_cons, or_assoc]
    refine or_congr_right ?_
    constructor
    · rintro (⟨rfl, admitted⟩ | ⟨later, admitted⟩)
      · exact ⟨Or.inl rfl, admitted⟩
      · exact ⟨Or.inr later, admitted⟩
    · rintro ⟨rfl | later, admitted⟩
      · exact Or.inl ⟨rfl, admitted⟩
      · exact Or.inr ⟨later, admitted⟩

/-- What a queue holds: admitted nodes, each once. -/
structure Queued (admits : Node → Bool) (found : List Node) : Prop where
  nodup : found.Nodup
  admitted : ∀ node ∈ found, admits node = true

theorem Queued.offers {found : List Node} (queued : Queued admits found) (nodes : List Node) :
    Queued admits (nodes.foldl (offer admits) found) := by
  induction nodes generalizing found with
  | nil => exact queued
  | cons node rest ih =>
    refine ih ?_
    unfold offer
    split_ifs with new
    · refine ⟨List.nodup_append.mpr ⟨queued.nodup, List.nodup_singleton _, ?_⟩, ?_⟩
      · rintro one member other only rfl
        exact new.2 (List.mem_singleton.mp only ▸ member)
      · intro other member
        rcases List.mem_append.mp member with old | only
        · exact queued.admitted other old
        · exact List.mem_singleton.mp only ▸ new.1
    · exact queued

/-! ### What the search finds -/

/-- The successors of the nodes that are read are found. -/
def ReadUpTo (admits : Node → Bool) (next : Node → List Node) (head : Nat) (found : List Node) :
    Prop :=
  ∀ index source, index < head → found[index]? = some source →
    ∀ target, Steps admits next source target → target ∈ found

theorem ReadUpTo.closed {head : Nat} {found : List Node}
    (read : ReadUpTo admits next head found) (whole : found.length ≤ head) :
    ∀ source ∈ found, ∀ target, Steps admits next source target → target ∈ found := by
  intro source member
  obtain ⟨index, inside, rfl⟩ := List.getElem_of_mem member
  exact read index _ (inside.trans_le whole) (List.getElem?_eq_getElem inside)

theorem ReadUpTo.read {head : Nat} {found : List Node} (read : ReadUpTo admits next head found)
    {node : Node} (here : found[head]? = some node) :
    ReadUpTo admits next (head + 1) ((next node).foldl (offer admits) found) := by
  have longer := @offers_grow _ _ admits (next node) found
  intro index source before there target steps
  have inside : index < found.length :=
    (Nat.lt_succ_iff.mp before).trans_lt (List.getElem?_eq_some_iff.mp here).1
  have old : found[index]? = some source := by
    rwa [List.getElem?_eq_getElem inside, longer.getElem inside,
      ← List.getElem?_eq_getElem]
  rw [mem_offers_iff]
  rcases Nat.lt_succ_iff_lt_or_eq.mp before with earlier | rfl
  · exact Or.inl (read index source earlier old target steps)
  · obtain rfl := Option.some.inj (old.symm.trans here)
    exact Or.inr steps

theorem readQueue_closed {bound : Nat} (few : ∀ found, Queued admits found → found.length ≤ bound)
    {fuel head : Nat} {found : List Node} (queued : Queued admits found)
    (read : ReadUpTo admits next head found) (enough : bound ≤ head + fuel) :
    Queued admits (readQueue admits next fuel head found) ∧
      found <+: readQueue admits next fuel head found ∧
      ∀ source ∈ readQueue admits next fuel head found,
        ∀ target, Steps admits next source target →
          target ∈ readQueue admits next fuel head found := by
  induction fuel generalizing head found with
  | zero => exact ⟨queued, List.prefix_refl _, read.closed ((few found queued).trans enough)⟩
  | succ fuel ih =>
    rw [readQueue]
    cases here : found[head]? with
    | none => exact ⟨queued, List.prefix_refl _, read.closed (List.getElem?_eq_none_iff.mp here)⟩
    | some node =>
      obtain ⟨queued', longer, closed⟩ := ih (queued.offers (next node)) (read.read here) (by omega)
      exact ⟨queued', (offers_grow _ _).trans longer, closed⟩

theorem readQueue_reached {reached : Node → Prop}
    (steps : ∀ source target, reached source → Steps admits next source target → reached target)
    {fuel head : Nat} {found : List Node} (all : ∀ node ∈ found, reached node) :
    ∀ node ∈ readQueue admits next fuel head found, reached node := by
  induction fuel generalizing head found with
  | zero => exact all
  | succ fuel ih =>
    rw [readQueue]
    cases here : found[head]? with
    | none => exact all
    | some source =>
      refine ih fun node member => ?_
      rcases mem_offers_iff.mp member with old | new
      · exact all node old
      · exact steps source node (all source (List.mem_of_getElem? here)) new

variable {bound : Nat} {seeds : List Node}

theorem search_queued (few : ∀ found, Queued admits found → found.length ≤ bound) :
    Queued admits (search admits next bound seeds) := by
  have start : Queued admits (seeds.foldl (offer admits) []) :=
    Queued.offers ⟨List.nodup_nil, fun _ none => nomatch none⟩ seeds
  exact (readQueue_closed few start (fun _ _ before => absurd before (Nat.not_lt_zero _))
    (Nat.zero_add bound).ge).1

theorem search_nodup (few : ∀ found, Queued admits found → found.length ≤ bound) :
    (search admits next bound seeds).Nodup :=
  (search_queued few).nodup

/-- **What is found is what can be reached** from an admitted seed by steps to admitted nodes. -/
theorem search_mem_iff (few : ∀ found, Queued admits found → found.length ≤ bound) {node : Node} :
    node ∈ search admits next bound seeds ↔
      ∃ seed ∈ seeds, admits seed = true ∧
        Relation.ReflTransGen (Steps admits next) seed node := by
  have start : Queued admits (seeds.foldl (offer admits) []) :=
    Queued.offers ⟨List.nodup_nil, fun _ none => nomatch none⟩ seeds
  obtain ⟨-, longer, closed⟩ := @readQueue_closed _ _ admits next _ few bound _ _ start
    (fun _ _ before => absurd before (Nat.not_lt_zero _)) (Nat.zero_add bound).ge
  constructor
  · intro member
    refine @readQueue_reached _ _ admits next (fun node => ∃ seed ∈ seeds, admits seed = true ∧
      Relation.ReflTransGen (Steps admits next) seed node) ?_ _ _ _ ?_ node member
    · rintro source target ⟨seed, inside, admitted, path⟩ step
      exact ⟨seed, inside, admitted, path.tail step⟩
    · intro seed found
      rcases mem_offers_iff.mp found with none | ⟨inside, admitted⟩
      · cases none
      · exact ⟨seed, inside, admitted, .refl⟩
  · rintro ⟨seed, inside, admitted, path⟩
    have first := longer.subset (mem_offers_iff.mpr (Or.inr ⟨inside, admitted⟩))
    clear start longer
    induction path with
    | refl => exact first
    | tail _ step ih => exact closed _ ih _ step

theorem queued_below {limit : Nat} (found : List Nat)
    (queued : Queued (fun node => decide (node < limit)) found) : found.length ≤ limit := by
  have sub : found ⊆ List.range limit := fun node member =>
    List.mem_range.mpr (of_decide_eq_true (queued.admitted node member))
  exact (queued.nodup.subperm sub).length_le.trans (List.length_range).le

end TurboHybrid.Library
