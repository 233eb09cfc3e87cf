/-
**The `k` least elements of a stream, in a bounded heap.**

The worst kept element is at the root. An element is pushed while there is room; after that it
takes the root's place when it is better.

* `KeepsBy.offer`: one element keeps the heap a selection of what was seen, by a key;
* `KeepsBy.split`: what is left out has no better key than what is kept;
* `offerAll_keepsBy`: so does a whole stream;
* `offerAll_sort`: the sorted heap is the sorted selection.
-/
import TurboHybrid.Library.BinaryHeap
import TurboHybrid.Library.TopK

namespace TurboHybrid.Library.BoundedHeap

variable {α : Type*}

/-- Offer one element. The comparison says that its first argument is worse. -/
def offer (worse : α → α → Bool) (k : Nat) (heap : Array α) (item : α) : Array α :=
  if heap.size < k then BinaryHeap.push worse heap item
  else
    match heap[0]? with
    | some root => if worse root item then BinaryHeap.replaceRoot worse heap item else heap
    | none => heap

theorem offer_subperm (worse : α → α → Bool) (k : Nat) (heap : Array α) (item : α) :
    (offer worse k heap item).toList.Subperm (item :: heap.toList) := by
  have kept : heap.toList.Subperm (item :: heap.toList) :=
    (List.sublist_cons_self item heap.toList).subperm
  unfold offer
  split_ifs
  · exact (BinaryHeap.push_perm worse heap item).subperm
  · cases atRoot : heap[0]? with
    | none => exact kept
    | some root =>
      dsimp only
      split_ifs
      · obtain ⟨first, rest, split⟩ : ∃ first rest, heap.toList = first :: rest := by
          rw [← Array.getElem?_toList] at atRoot
          exact List.exists_cons_of_length_pos (List.getElem?_eq_some_iff.mp atRoot).1
        refine (BinaryHeap.replaceRoot_perm worse split item).subperm.trans ?_
        rw [split]
        exact ((List.sublist_cons_self first rest).cons_cons item).subperm
      · exact kept

theorem offerAll_subperm (worse : α → α → Bool) (k : Nat) (items : List α) (heap : Array α) :
    (items.foldl (offer worse k) heap).toList.Subperm (items ++ heap.toList) := by
  induction items generalizing heap with
  | nil => exact List.Subperm.refl _
  | cons item rest ih =>
    refine (ih _).trans (((List.subperm_append_left rest).mpr
      (offer_subperm worse k heap item)).trans ?_)
    exact List.perm_middle.subperm

/-! ### Elements ordered by a key -/

section Keyed

variable {K : Type*} [LinearOrder K] {key : α → K} {worse : α → α → Bool} {k : Nat}
  {seen : List α} {heap : Array α}

/-- The heap of a stream seen so far, of elements that may have the same key. -/
structure KeepsBy (key : α → K) (k : Nat) (seen : List α) (heap : Array α) : Prop where
  selects : TopK.Selects k (seen.map key) (heap.toList.map key)
  part : heap.toList.Subperm seen
  isHeap : BinaryHeap.IsHeap (OrderDual.toDual ∘ key) heap

theorem keepsBy_empty (key : α → K) (k : Nat) : KeepsBy key k [] #[] :=
  ⟨TopK.selects_nil k, List.Subperm.refl _, fun pos positive => by simp [BinaryHeap.keyAt]⟩

/-- **One offer** keeps the heap a selection. -/
theorem KeepsBy.offer (compares : BinaryHeap.Compares (OrderDual.toDual ∘ key) worse)
    (positive : 0 < k) (keeps : KeepsBy key k seen heap) (item : α) :
    KeepsBy key k (seen ++ [item]) (offer worse k heap item) := by
  have selects := keeps.selects
  have bounded : heap.size ≤ k := by
    rw [← Array.length_toList, ← List.length_map key, selects.count]
    exact min_le_left _ _
  have part : (BoundedHeap.offer worse k heap item).toList.Subperm (seen ++ [item]) :=
    ((offer_subperm worse k heap item).trans ((List.subperm_cons item).mpr keeps.part)).trans
      (List.perm_append_singleton item seen).symm.subperm
  have seenKeys : (seen ++ [item]).map key = seen.map key ++ [key item] := List.map_append
  unfold BoundedHeap.offer at part ⊢
  split_ifs at part ⊢ with room
  · refine ⟨?_, part, BinaryHeap.push_isHeap compares keeps.isHeap item⟩
    rw [seenKeys]
    refine (selects.push (by simpa using room) (key item)).of_perm (List.Perm.refl _) ?_
    exact ((BinaryHeap.push_perm worse heap item).map key).symm
  · have nonempty : 0 < heap.size := by omega
    obtain ⟨root, rest, split⟩ : ∃ root rest, heap.toList = root :: rest :=
      List.exists_cons_of_length_pos (by simpa using nonempty)
    have atRoot : heap[0]? = some root := by rw [← Array.getElem?_toList, split]; rfl
    have worst (level : K) (member : level ∈ heap.toList.map key) : level ≤ key root := by
      obtain ⟨other, held, rfl⟩ := List.mem_map.mp member
      exact BinaryHeap.root_le_mem keeps.isHeap atRoot (Array.mem_toList_iff.mp held)
    have full : (heap.toList.map key).length = k := by
      rw [List.length_map, Array.length_toList]
      omega
    have order : worse root item = true ↔ key item < key root := compares root item
    simp only [atRoot] at part ⊢
    split_ifs at part ⊢ with better
    · refine ⟨?_, part, BinaryHeap.replaceRoot_isHeap compares keeps.isHeap nonempty item⟩
      rw [split, List.map_cons] at selects worst full
      rw [seenKeys]
      refine (selects.replace (fun other member => worst other (List.mem_cons_of_mem _ member))
        (order.mp better).le full).of_perm (List.Perm.refl _) ?_
      exact ((BinaryHeap.replaceRoot_perm worse split item).map key).symm
    · rw [order, not_lt] at better
      refine ⟨?_, part, keeps.isHeap⟩
      rw [seenKeys]
      exact selects.keep (fun other member => (worst other member).trans better) full

theorem offerAll_keepsBy (compares : BinaryHeap.Compares (OrderDual.toDual ∘ key) worse)
    (positive : 0 < k) (keeps : KeepsBy key k seen heap) (items : List α) :
    KeepsBy key k (seen ++ items) (items.foldl (BoundedHeap.offer worse k) heap) := by
  induction items generalizing seen heap with
  | nil => simpa using keeps
  | cons item rest ih => simpa using ih (keeps.offer compares positive item)

theorem KeepsBy.split (keeps : KeepsBy key k seen heap) :
    ∃ rest, seen.Perm (heap.toList ++ rest) ∧
      ∀ one ∈ heap.toList, ∀ other ∈ rest, key one ≤ key other := by
  obtain ⟨left, keys, below⟩ := keeps.selects.split
  obtain ⟨ordered, same, sublist⟩ := keeps.part
  obtain ⟨rest, perm⟩ := sublist.exists_perm_append
  have split : seen.Perm (heap.toList ++ rest) := perm.trans (same.append_right rest)
  have out : (rest.map key).Perm left := by
    have joined := split.map key
    rw [List.map_append] at joined
    exact (List.perm_append_left_iff _).mp (joined.symm.trans keys)
  refine ⟨rest, split, fun one member other outside => ?_⟩
  exact below _ (List.mem_map_of_mem member) _ (out.mem_iff.mp (List.mem_map_of_mem outside))

end Keyed

/-! ### Elements in order -/

section Ordered

variable [LinearOrder α] {worse : α → α → Bool} {k : Nat}

def Orders (worse : α → α → Bool) : Prop :=
  ∀ one other, worse one other = true ↔ other < one

/-- **A whole stream** leaves its best elements. -/
theorem offerAll_sort (orders : Orders worse) (positive : 0 < k) (items : List α) :
    (items.foldl (offer worse k) #[]).toList.insertionSort (· ≤ ·) = TopK.best k items := by
  have compares : BinaryHeap.Compares (OrderDual.toDual ∘ (id : α → α)) worse :=
    fun one other => orders one other
  have keeps := (offerAll_keepsBy compares positive (keepsBy_empty id k) items).selects
  rw [List.nil_append, List.map_id, List.map_id] at keeps
  exact keeps.sort_eq

end Ordered

end TurboHybrid.Library.BoundedHeap
