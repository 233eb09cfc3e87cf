/-
**The `k` least elements of a list.**

A selection of `k` from a list is what can be told from it by splitting the list: no selected
element is above a rejected one, and the selection is as long as `k` allows.

* `Selects.perm`: two selections from one list hold the same elements;
* `Selects.push`, `Selects.replace`, `Selects.keep`: how a selection follows a list that grows by
  one element;
* `best_eq_of_subset`: the sorted selection of a part that holds the best of the whole.
-/
import Mathlib.Data.List.Sort
import Mathlib.Data.List.Perm.Subperm
import Mathlib.Data.Multiset.Basic
import Mathlib.Tactic.Common

namespace TurboHybrid.Library.TopK

variable {α : Type*} [LinearOrder α]

/-! ### Selections -/

/-- The list `chosen` holds `k` least elements of `items`, or all of them. -/
structure Selects (k : Nat) (items chosen : List α) : Prop where
  split : ∃ rest, items.Perm (chosen ++ rest) ∧ ∀ one ∈ chosen, ∀ other ∈ rest, one ≤ other
  count : chosen.length = min k items.length

/-- The `k` least elements in order. -/
def best (k : Nat) (items : List α) : List α :=
  (items.insertionSort (· ≤ ·)).take k

theorem best_selects (k : Nat) (items : List α) : Selects k items (best k items) := by
  have sorted := List.pairwise_insertionSort (· ≤ ·) items
  refine ⟨⟨(items.insertionSort (· ≤ ·)).drop k, ?_, ?_⟩, ?_⟩
  · rw [best, List.take_append_drop]
    exact (List.perm_insertionSort _ items).symm
  · rw [← List.take_append_drop k (items.insertionSort (· ≤ ·)), List.pairwise_append] at sorted
    exact sorted.2.2
  · rw [best, List.length_take, List.length_insertionSort]

/-- **The selection is unique** up to order: sorted it is the best. -/
theorem Selects.sort_eq {k : Nat} {items chosen : List α} (selects : Selects k items chosen) :
    chosen.insertionSort (· ≤ ·) = best k items := by
  obtain ⟨rest, perm, below⟩ := selects.split
  have joined : items.insertionSort (· ≤ ·) =
      chosen.insertionSort (· ≤ ·) ++ rest.insertionSort (· ≤ ·) := by
    refine List.Perm.eq_of_pairwise' (r := (· ≤ ·)) (List.pairwise_insertionSort _ _) ?_ ?_
    · rw [List.pairwise_append]
      refine ⟨List.pairwise_insertionSort _ _, List.pairwise_insertionSort _ _, ?_⟩
      intro one member other member'
      exact below one ((List.mem_insertionSort _).mp member) other
        ((List.mem_insertionSort _).mp member')
    · refine (List.perm_insertionSort _ items).trans (perm.trans ?_)
      exact ((List.perm_insertionSort _ chosen).append (List.perm_insertionSort _ rest)).symm
  have lengths : items.length = chosen.length + rest.length := by
    simpa using perm.length_eq
  have count := selects.count
  rw [best, joined]
  rcases Nat.le_total k items.length with many | few
  · rw [List.take_left' (by rw [List.length_insertionSort]; omega)]
  · have none : rest = [] := List.length_eq_zero_iff.mp (by omega)
    rw [none, List.insertionSort_nil, List.append_nil, List.take_of_length_le]
    rw [List.length_insertionSort]
    omega

theorem Selects.perm {k : Nat} {items chosen other : List α} (selects : Selects k items chosen)
    (selects' : Selects k items other) : chosen.Perm other :=
  (List.perm_insertionSort _ chosen).symm.trans
    ((selects.sort_eq.trans selects'.sort_eq.symm) ▸ List.perm_insertionSort _ other)

theorem Selects.perm_best {k : Nat} {items chosen : List α} (selects : Selects k items chosen) :
    chosen.Perm (best k items) :=
  selects.perm (best_selects k items)

theorem Selects.of_perm {k : Nat} {items items' chosen chosen' : List α}
    (selects : Selects k items chosen) (same : items.Perm items') (same' : chosen.Perm chosen') :
    Selects k items' chosen' := by
  obtain ⟨rest, perm, below⟩ := selects.split
  refine ⟨⟨rest, same.symm.trans (perm.trans (same'.append_right rest)), ?_⟩, ?_⟩
  · exact fun one member other member' => below one (same'.mem_iff.mpr member) other member'
  · rw [← same'.length_eq, selects.count, same.length_eq]

theorem best_perm {k : Nat} {items items' : List α} (same : items.Perm items') :
    best k items = best k items' :=
  ((best_selects k items).of_perm same (List.Perm.refl _)).sort_eq ▸
    (List.Perm.eq_of_pairwise' (r := (· ≤ ·)) ((List.pairwise_insertionSort _ _).take)
      (List.pairwise_insertionSort _ _) (List.perm_insertionSort _ _).symm)

theorem mem_of_mem_best {k : Nat} {items : List α} {item : α} (member : item ∈ best k items) :
    item ∈ items :=
  (List.mem_insertionSort _).mp (List.mem_of_mem_take member)

theorem before_lt_of_mem_best {k : Nat} {items : List α} {item : α} (member : item ∈ best k items) :
    (items.filter fun other => other < item).length < k := by
  obtain ⟨rest, perm, below⟩ := (best_selects k items).split
  have none : rest.filter (fun other => other < item) = [] :=
    List.filter_eq_nil_iff.mpr fun other inside => by
      simpa using below item member other inside
  have count := (perm.filter fun other => other < item).length_eq
  rw [List.filter_append, none, List.append_nil] at count
  have fewer : ((best k items).filter fun other => other < item).length < (best k items).length :=
    List.length_filter_lt_length_iff_exists.mpr ⟨item, member, by simp⟩
  have bound : (best k items).length ≤ k := List.length_take_le _ _
  omega

theorem le_before_of_not_mem_best {k : Nat} {items : List α} {item : α} (inside : item ∈ items)
    (out : item ∉ best k items) : k ≤ (items.filter fun other => other < item).length := by
  obtain ⟨rest, perm, below⟩ := (best_selects k items).split
  have left : item ∈ rest := (List.mem_append.mp (perm.mem_iff.mp inside)).resolve_left out
  have ahead : (best k items).filter (fun other => other < item) = best k items := by
    refine List.filter_eq_self.mpr fun other member => ?_
    have before : other < item :=
      lt_of_le_of_ne (below other member item left) fun same => out (same ▸ member)
    simpa using before
  have count := (perm.filter fun other => other < item).length_eq
  rw [List.filter_append, List.length_append, ahead, (best_selects k items).count] at count
  have lengths := perm.length_eq
  rw [List.length_append, (best_selects k items).count] at lengths
  have some := List.length_pos_of_mem left
  omega

theorem best_one {items : List α} {item : α} (member : item ∈ items)
    (least : ∀ other ∈ items, item ≤ other) : best 1 items = [item] := by
  have count := List.length_pos_of_mem member
  have selects : Selects 1 items [item] := by
    refine ⟨⟨items.erase item, List.perm_cons_erase member, ?_⟩, ?_⟩
    · intro one chosen other rest
      rw [List.mem_singleton.mp chosen]
      exact least other (List.mem_of_mem_erase rest)
    · rw [List.length_singleton, min_eq_left count]
  exact selects.sort_eq.symm

/-! ### Growing lists -/

theorem selects_nil (k : Nat) : Selects k ([] : List α) [] :=
  ⟨⟨[], List.Perm.refl _, by simp⟩, by simp⟩

theorem Selects.push {k : Nat} {items chosen : List α} (selects : Selects k items chosen)
    (room : chosen.length < k) (item : α) : Selects k (items ++ [item]) (item :: chosen) := by
  obtain ⟨rest, perm, below⟩ := selects.split
  have count := selects.count
  have lengths : items.length = chosen.length + rest.length := by simpa using perm.length_eq
  have none : rest = [] := List.length_eq_zero_iff.mp (by omega)
  subst none
  refine ⟨⟨[], ?_, by simp⟩, by simp; omega⟩
  rw [List.append_nil] at perm ⊢
  exact (List.perm_append_singleton item items).trans (perm.cons item)

theorem Selects.replace {k : Nat} {items chosen : List α} {worst : α}
    (selects : Selects k items (worst :: chosen)) (top : ∀ other ∈ chosen, other ≤ worst) {item : α}
    (better : item ≤ worst) (full : (worst :: chosen).length = k) :
    Selects k (items ++ [item]) (item :: chosen) := by
  obtain ⟨rest, perm, below⟩ := selects.split
  have count := selects.count
  have lengths := perm.length_eq
  simp only [List.length_append, List.length_cons] at lengths
  refine ⟨⟨worst :: rest, ?_, ?_⟩, by simp at full ⊢; omega⟩
  · refine (List.perm_append_singleton item items).trans ((perm.cons item).trans ?_)
    exact (List.perm_middle.symm).cons item
  · intro one member other member'
    have oneBelow : one ≤ worst := by
      rcases List.mem_cons.mp member with rfl | old
      · exact better
      · exact top one old
    rcases List.mem_cons.mp member' with rfl | old
    · exact oneBelow
    · exact oneBelow.trans (below worst List.mem_cons_self other old)

theorem Selects.keep {k : Nat} {items chosen : List α} (selects : Selects k items chosen) {item : α}
    (worse : ∀ other ∈ chosen, other ≤ item) (full : chosen.length = k) :
    Selects k (items ++ [item]) chosen := by
  obtain ⟨rest, perm, below⟩ := selects.split
  have count := selects.count
  refine ⟨⟨rest ++ [item], ?_, ?_⟩, by simp; omega⟩
  · rw [← List.append_assoc]
    exact perm.append_right [item]
  · intro one member other member'
    rcases List.mem_append.mp member' with old | new
    · exact below one member other old
    · rw [List.mem_singleton.mp new]
      exact worse one member

/-! ### Parts of a list -/

/-- **A part that holds the best of the whole** has the same best. -/
theorem best_eq_of_subset {k : Nat} {part items : List α} (distinct : part.Nodup)
    (distinct' : items.Nodup) (inside : part ⊆ items) (holds : best k items ⊆ part) :
    best k part = best k items := by
  obtain ⟨rest, perm, below⟩ := (best_selects k items).split
  have bestDistinct : (best k items).Nodup := (List.nodup_append.mp (perm.nodup distinct')).1
  obtain ⟨ordered, same, sublist⟩ := List.subperm_of_subset bestDistinct holds
  obtain ⟨extra, split'⟩ := sublist.exists_perm_append
  have split : part.Perm (best k items ++ extra) := split'.trans (same.append_right extra)
  have partDistinct := List.nodup_append.mp (split.nodup distinct)
  have lengths : part.length = (best k items).length + extra.length := by
    simpa using split.length_eq
  have lengths' : items.length = (best k items).length + rest.length := by
    simpa using perm.length_eq
  have extraRest : extra ⊆ rest := by
    intro item member
    have known := inside (split.mem_iff.mpr (List.mem_append_right _ member))
    rcases List.mem_append.mp (perm.mem_iff.mp known) with chosen | left
    · exact absurd rfl (partDistinct.2.2 item chosen item member)
    · exact left
  have few : extra.length ≤ rest.length := by
    have extraDistinct := partDistinct.2.1
    exact (List.subperm_of_subset extraDistinct extraRest).length_le
  have count := (best_selects k items).count
  have selects : Selects k part (best k items) :=
    ⟨⟨extra, split, fun one member other member' => below one member other (extraRest member')⟩,
      by omega⟩
  rw [← selects.sort_eq, (best_selects k items).sort_eq]

theorem best_perm_of_le {k : Nat} {items : List α} (room : items.length ≤ k) :
    (best k items).Perm items := by
  rw [best, List.take_of_length_le (by rwa [List.length_insertionSort])]
  exact List.perm_insertionSort _ _

/-- **More elements** compete with the best of those before. -/
theorem best_append (k : Nat) (items extra : List α) :
    best k (best k items ++ extra) = best k (items ++ extra) := by
  obtain ⟨left, perm, below⟩ := (best_selects k items).split
  obtain ⟨out, perm', below'⟩ := (best_selects k (best k items ++ extra)).split
  have count := (best_selects k items).count
  have count' := (best_selects k (best k items ++ extra)).count
  have lengths := perm.length_eq
  rw [List.length_append] at lengths count'
  have whole : (items ++ extra).Perm (best k (best k items ++ extra) ++ (out ++ left)) := by
    refine (perm.append_right extra).trans ?_
    rw [← List.append_assoc]
    refine List.Perm.trans ?_ (perm'.append_right left)
    rw [List.append_assoc, List.append_assoc]
    exact List.perm_append_comm.append_left _
  have selects : Selects k (items ++ extra) (best k (best k items ++ extra)) := by
    refine ⟨⟨out ++ left, whole, fun one member other member' => ?_⟩, ?_⟩
    · rcases List.mem_append.mp member' with rejected | lost
      · exact below' one member other rejected
      · -- a chosen element above a lost one would be above all the `k` best before it
        by_contra above
        have full : (best k items).length = k := by
          have some := List.length_pos_of_mem lost
          omega
        have early : (best k items).filter (fun item => item < one) = best k items :=
          List.filter_eq_self.mpr fun item known => by
            simpa using (below item known other lost).trans_lt (not_le.mp above)
        have few := before_lt_of_mem_best member
        rw [List.filter_append, List.length_append, early, full] at few
        omega
    · rw [count', List.length_append]
      omega
  rw [← selects.sort_eq, (best_selects k (best k items ++ extra)).sort_eq]

theorem lt_of_mem_best {k : Nat} {items : List α} {item other : α} (member : item ∈ best k items)
    (inside : other ∈ items) (out : other ∉ best k items) : item < other := by
  obtain ⟨rest, perm, below⟩ := (best_selects k items).split
  have left : other ∈ rest := (List.mem_append.mp (perm.mem_iff.mp inside)).resolve_left out
  exact lt_of_le_of_ne (below item member other left) fun same => out (same ▸ member)

/-! ### The element at a rank -/

/-- **The key at a rank** is below a level exactly when no more elements than the rank reach it. -/
theorem key_lt_iff {β : Type*} [LinearOrder β] {key : α → β}
    (antitone : ∀ one other, one ≤ other → key other ≤ key one) {items : List α} {rank : Nat}
    {item : α} (found : (items.insertionSort (· ≤ ·))[rank]? = some item) (level : β) :
    key item < level ↔ items.countP (fun other => decide (level ≤ key other)) ≤ rank := by
  obtain ⟨inside, here⟩ := List.getElem?_eq_some_iff.mp found
  have sorted := List.pairwise_insertionSort (· ≤ ·) items
  rw [← (List.perm_insertionSort (· ≤ ·) items).countP_eq]
  generalize items.insertionSort (· ≤ ·) = ordered at inside here sorted
  have split : ordered = ordered.take rank ++ item :: ordered.drop (rank + 1) := by
    rw [← here, ← List.drop_eq_getElem_cons inside, List.take_append_drop]
  have lengths : (ordered.take rank).length = rank := List.length_take_of_le inside.le
  rw [split, List.pairwise_append, List.pairwise_cons] at sorted
  obtain ⟨-, ⟨after, -⟩, before⟩ := sorted
  rw [split, List.countP_append, List.countP_cons]
  constructor
  · intro below
    have none : (ordered.drop (rank + 1)).countP (fun other => decide (level ≤ key other)) = 0 :=
      List.countP_eq_zero.mpr fun other member => by
        simpa using (antitone item other (after other member)).trans_lt below
    have bound := List.countP_le_length (p := fun other => decide (level ≤ key other))
      (l := ordered.take rank)
    rw [none, if_neg (by simpa using below)]
    omega
  · intro few
    by_contra reached
    have every : (ordered.take rank).countP (fun other => decide (level ≤ key other)) = rank := by
      refine (List.countP_eq_length.mpr fun other member => ?_).trans lengths
      simpa using (not_lt.mp reached).trans (antitone other item (before other member item
        List.mem_cons_self))
    rw [every, if_pos (by simpa using not_lt.mp reached)] at few
    omega

/-- **The last of the chosen** stands at the end of their ranks. -/
theorem sort_getElem_of_split {items chosen rest : List α} {worst : α}
    (split : items.Perm (chosen ++ rest)) (member : worst ∈ chosen)
    (top : ∀ other ∈ chosen, other ≤ worst) (below : ∀ other ∈ rest, worst ≤ other) :
    (items.insertionSort (· ≤ ·))[chosen.length - 1]? = some worst := by
  have positive := List.length_pos_of_mem member
  have lengths := split.length_eq
  rw [List.length_append] at lengths
  have selects : Selects chosen.length items chosen :=
    ⟨⟨rest, split, fun one inside other outside => (top one inside).trans (below other outside)⟩,
      (min_eq_left (by omega)).symm⟩
  have inside : chosen.length - 1 < (chosen.insertionSort (· ≤ ·)).length := by
    rw [List.length_insertionSort]
    omega
  have last : (items.insertionSort (· ≤ ·))[chosen.length - 1]? =
      (chosen.insertionSort (· ≤ ·))[chosen.length - 1]? := by
    rw [selects.sort_eq, best, List.getElem?_take_of_lt (by omega)]
  rw [last, List.getElem?_eq_getElem inside]
  refine congrArg some (le_antisymm ?_ ?_)
  · exact top _ ((List.mem_insertionSort _).mp (List.getElem_mem inside))
  · obtain ⟨pos, bound, here⟩ := List.getElem_of_mem ((List.mem_insertionSort (· ≤ ·)).mpr member)
    have sorted := List.pairwise_insertionSort (· ≤ ·) chosen
    have before : pos ≤ chosen.length - 1 := by
      rw [List.length_insertionSort] at bound
      omega
    rcases before.eq_or_lt with same | earlier
    · subst same
      exact here.ge
    · exact here ▸ List.pairwise_iff_getElem.mp sorted pos (chosen.length - 1) bound inside earlier

end TurboHybrid.Library.TopK
