/-
**Merging sorted runs with a heap.**

A cursor stands on the first item of what is left of its run. The heap holds the cursors of the
runs that are not used up, and the least of their items is the next of the merge.

* `mergeHeap`: the merge;
* `mergeHeap_perm`, `mergeHeap_sorted`: it has the items of the runs, in order;
* `mergeRuns_eq`: with distinct keys it is any sorted list of the same items.
-/
import TurboHybrid.Library.BinaryHeap
import Mathlib.Data.List.Sort

namespace TurboHybrid.Library

open BinaryHeap

/-- A run that is not used up: the item it stands on and those behind it. -/
structure RunCursor (Item : Type*) where
  current : Item
  rest : List Item

section

variable {Item K : Type*}

def RunCursor.items (cursor : RunCursor Item) : List Item := cursor.current :: cursor.rest

/-- Put the cursor of a run that is not used up on the heap. -/
def pushRun (less : Item → Item → Bool) (heap : Array (RunCursor Item)) :
    List Item → Array (RunCursor Item)
  | [] => heap
  | item :: rest =>
    push (fun one other => less one.current other.current) heap ⟨item, rest⟩

/-- Take the least item: pop its cursor, and push it again behind the item. -/
def mergeHeap (less : Item → Item → Bool) : Nat → Array (RunCursor Item) → List Item
  | 0, _ => []
  | fuel + 1, heap =>
    match heap[0]? with
    | none => []
    | some best =>
      best.current :: mergeHeap less fuel
        (pushRun less (pop (fun one other => less one.current other.current) heap) best.rest)

def openRuns (less : Item → Item → Bool) (runs : List (List Item)) : Array (RunCursor Item) :=
  runs.foldl (pushRun less) #[]

/-- **The merge of sorted runs.** -/
def mergeRuns (less : Item → Item → Bool) (runs : List (List Item)) : List Item :=
  mergeHeap less runs.flatten.length (openRuns less runs)

def heapItems (heap : Array (RunCursor Item)) : List Item := heap.toList.flatMap RunCursor.items

theorem pushRun_perm (less : Item → Item → Bool) (heap : Array (RunCursor Item))
    (run : List Item) : (heapItems (pushRun less heap run)).Perm (run ++ heapItems heap) := by
  cases run with
  | nil => exact List.Perm.refl _
  | cons item rest => exact (push_perm _ heap ⟨item, rest⟩).flatMap_right RunCursor.items

theorem openRuns_perm (less : Item → Item → Bool) (runs : List (List Item)) :
    (heapItems (openRuns less runs)).Perm runs.flatten := by
  have grown (heap : Array (RunCursor Item)) :
      (heapItems (runs.foldl (pushRun less) heap)).Perm (runs.flatten ++ heapItems heap) := by
    induction runs generalizing heap with
    | nil => exact List.Perm.refl _
    | cons run rest ih =>
      rw [List.foldl_cons, List.flatten_cons]
      refine (ih _).trans (((pushRun_perm less heap run).append_left _).trans ?_)
      rw [← List.append_assoc]
      exact List.perm_append_comm.append_right _
  simpa [openRuns, heapItems] using grown #[]

theorem toList_of_root {heap : Array (RunCursor Item)} {best : RunCursor Item}
    (atRoot : heap[0]? = some best) : ∃ others, heap.toList = best :: others := by
  rw [← Array.getElem?_toList] at atRoot
  cases listed : heap.toList with
  | nil =>
    rw [listed] at atRoot
    cases atRoot
  | cons first others =>
    rw [listed] at atRoot
    exact ⟨others, by rw [Option.some.inj atRoot]⟩

theorem advance_perm (less : Item → Item → Bool) {heap : Array (RunCursor Item)}
    {best : RunCursor Item} (atRoot : heap[0]? = some best) :
    (best.current :: heapItems (pushRun less
      (pop (fun one other => less one.current other.current) heap) best.rest)).Perm
        (heapItems heap) := by
  obtain ⟨others, listed⟩ := toList_of_root atRoot
  have popped := (pop_perm (fun one other : RunCursor Item => less one.current other.current)
    listed).flatMap_right RunCursor.items
  refine ((pushRun_perm less _ best.rest).cons _).trans ?_
  refine ((popped.append_left best.rest).cons _).trans ?_
  rw [heapItems, listed]
  exact List.Perm.refl _

theorem heapItems_nil {heap : Array (RunCursor Item)} (empty : heap[0]? = none) :
    heapItems heap = [] := by
  have size : heap.size = 0 := by
    have := Array.getElem?_eq_none_iff.mp empty
    omega
  rw [heapItems, Array.eq_empty_of_size_eq_zero size]
  rfl

theorem mergeHeap_perm (less : Item → Item → Bool) {fuel : Nat} {heap : Array (RunCursor Item)}
    (enough : (heapItems heap).length ≤ fuel) : (mergeHeap less fuel heap).Perm (heapItems heap) := by
  induction fuel generalizing heap with
  | zero => rw [List.length_eq_zero_iff.mp (Nat.le_zero.mp enough), mergeHeap]
  | succ fuel ih =>
    rw [mergeHeap]
    cases atRoot : heap[0]? with
    | none => rw [heapItems_nil atRoot]
    | some best =>
      have advanced := advance_perm less atRoot
      refine ((ih ?_).cons _).trans advanced
      have length := advanced.length_eq
      rw [List.length_cons] at length
      omega

/-! ### The order of the merge -/

variable [LinearOrder K] {key : Item → K} {less : Item → Item → Bool}

/-- The heap is one by the cursors' items, and what is left of each run is in order. -/
structure RunsOrdered (key : Item → K) (heap : Array (RunCursor Item)) : Prop where
  isHeap : IsHeap (fun cursor => key cursor.current) heap
  sorted : ∀ cursor ∈ heap.toList, cursor.items.Pairwise fun one other => key one ≤ key other

theorem compares_current (compares : Compares key less) :
    Compares (fun cursor : RunCursor Item => key cursor.current)
      fun one other => less one.current other.current :=
  fun one other => compares one.current other.current

theorem RunsOrdered.pushRun (compares : Compares key less) {heap : Array (RunCursor Item)}
    (ordered : RunsOrdered key heap) {run : List Item}
    (sorted : run.Pairwise fun one other => key one ≤ key other) :
    RunsOrdered key (pushRun less heap run) := by
  cases run with
  | nil => exact ordered
  | cons item rest =>
    refine ⟨push_isHeap (compares_current compares) ordered.isHeap _, fun cursor member => ?_⟩
    rcases List.mem_cons.mp ((push_perm _ heap ⟨item, rest⟩).subset member) with rfl | inside
    · exact sorted
    · exact ordered.sorted cursor inside

theorem RunsOrdered.pop (compares : Compares key less) {heap : Array (RunCursor Item)}
    (ordered : RunsOrdered key heap) {best : RunCursor Item} (atRoot : heap[0]? = some best) :
    RunsOrdered key (pop (fun one other => less one.current other.current) heap) := by
  obtain ⟨others, listed⟩ := toList_of_root atRoot
  refine ⟨pop_isHeap (compares_current compares) ordered.isHeap, fun cursor member => ?_⟩
  refine ordered.sorted cursor ?_
  rw [listed]
  exact List.mem_cons_of_mem _ ((pop_perm _ listed).subset member)

theorem openRuns_ordered (compares : Compares key less) {runs : List (List Item)}
    (sorted : ∀ run ∈ runs, run.Pairwise fun one other => key one ≤ key other) :
    RunsOrdered key (openRuns less runs) := by
  have grown (heap : Array (RunCursor Item)) (ordered : RunsOrdered key heap) :
      RunsOrdered key (runs.foldl (Library.pushRun less) heap) := by
    induction runs generalizing heap with
    | nil => exact ordered
    | cons run rest ih =>
      exact ih (fun run member => sorted run (.tail _ member)) _
        (ordered.pushRun compares (sorted run List.mem_cons_self))
  refine grown #[] ⟨fun pos _ => ?_, fun cursor member => nomatch member⟩
  exact le_of_eq rfl

theorem RunsOrdered.root_le {heap : Array (RunCursor Item)} (ordered : RunsOrdered key heap)
    {best : RunCursor Item} (atRoot : heap[0]? = some best) {item : Item}
    (member : item ∈ heapItems heap) : key best.current ≤ key item := by
  obtain ⟨cursor, inside, held⟩ := List.mem_flatMap.mp member
  have least := root_le_mem ordered.isHeap atRoot (Array.mem_def.mpr inside)
  rcases List.mem_cons.mp held with rfl | behind
  · exact least
  · exact least.trans (List.rel_of_pairwise_cons (ordered.sorted cursor inside) behind)

/-- **The merge is in order.** -/
theorem mergeHeap_sorted (compares : Compares key less) {fuel : Nat}
    {heap : Array (RunCursor Item)} (ordered : RunsOrdered key heap)
    (enough : (heapItems heap).length ≤ fuel) :
    (mergeHeap less fuel heap).Pairwise fun one other => key one ≤ key other := by
  induction fuel generalizing heap with
  | zero => exact List.Pairwise.nil
  | succ fuel ih =>
    rw [mergeHeap]
    cases atRoot : heap[0]? with
    | none => exact List.Pairwise.nil
    | some best =>
      have advanced := advance_perm less atRoot
      have shorter : (heapItems (pushRun less
          (BinaryHeap.pop (fun one other => less one.current other.current) heap)
            best.rest)).length ≤ fuel := by
        have length := advanced.length_eq
        rw [List.length_cons] at length
        omega
      obtain ⟨others, listed⟩ := toList_of_root atRoot
      have behind : best.rest.Pairwise fun one other => key one ≤ key other :=
        (ordered.sorted best (listed ▸ List.mem_cons_self)).of_cons
      refine List.pairwise_cons.mpr ⟨fun item member => ?_,
        ih ((ordered.pop compares atRoot).pushRun compares behind) shorter⟩
      have inside := (mergeHeap_perm less shorter).subset member
      exact ordered.root_le atRoot (advanced.subset (List.mem_cons_of_mem _ inside))

/-- **With distinct keys the merge is the sort** of the items of the runs. -/
theorem mergeRuns_eq (compares : Compares key less) {runs : List (List Item)}
    (sorted : ∀ run ∈ runs, run.Pairwise fun one other => key one ≤ key other)
    {all : List Item} (perm : runs.flatten.Perm all)
    (inOrder : all.Pairwise fun one other => key one ≤ key other)
    (distinct : ∀ one ∈ all, ∀ other ∈ all, key one = key other → one = other) :
    mergeRuns less runs = all := by
  have enough := (openRuns_perm less runs).length_eq.le
  have merged := (mergeHeap_perm less enough).trans ((openRuns_perm less runs).trans perm)
  refine List.Perm.eq_of_pairwise (fun one other inside inside' below above => ?_)
    (mergeHeap_sorted compares (openRuns_ordered compares sorted) enough) inOrder merged
  exact distinct one (merged.subset inside) other inside' (le_antisymm below above)

end

end TurboHybrid.Library
