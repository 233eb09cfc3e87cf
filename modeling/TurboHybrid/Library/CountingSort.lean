/-
**Placing entries by their keys.**

The lists of several keys lie one after another in one array. The entries of each key are counted,
the counts tell where each list begins, and an entry is written behind what its list has so far.

* `listStart_disjoint`: the lists do not overlap;
* `Placed.place`: what one more entry changes;
* `placed_all`: the array with all of them;
* `segment_placed`: in the end each list has the entries of its key, in their order;
* `segment_sortAll`: sorting the lists one after another sorts each of them.
-/
import TurboHybrid.Library.KeyedLog
import Mathlib.Logic.Function.Basic

namespace TurboHybrid.Library

variable {α : Type}

/-! ### Where the lists begin -/

/-- Where the list of a key begins, from the lengths of the lists. -/
def listStart (counts : Nat → Nat) : Nat → Nat
  | 0 => 0
  | key + 1 => listStart counts key + counts key

theorem listStart_le (counts : Nat → Nat) {key other : Nat} (below : key < other) :
    listStart counts key + counts key ≤ listStart counts other := by
  induction other with
  | zero => exact absurd below (Nat.not_lt_zero key)
  | succ other ih =>
    rcases Nat.lt_succ_iff_lt_or_eq.mp below with less | rfl
    · exact (ih less).trans (Nat.le_add_right _ _)
    · exact le_rfl

/-- **The lists do not overlap.** -/
theorem listStart_disjoint (counts : Nat → Nat) {key other index place : Nat}
    (differs : key ≠ other) (within : index < counts key) (inside : place < counts other) :
    listStart counts key + index ≠ listStart counts other + place := by
  rcases Nat.lt_or_gt_of_ne differs with less | greater
  · have apart := listStart_le counts less
    omega
  · have apart := listStart_le counts greater
    omega

/-! ### Writing entries -/

/-- The array, and where the next entry of each list goes. -/
structure Placement (α : Type) where
  write : Nat → Nat
  cells : Nat → α

def Placement.place (placement : Placement α) (entry : Nat × α) : Placement α :=
  { write := Function.update placement.write entry.1 (placement.write entry.1 + 1)
    cells := Function.update placement.cells (placement.write entry.1) entry.2 }

/-- The array after some entries: each list begins with those of its key. -/
structure Placed (counts : Nat → Nat) (taken : List (Nat × α)) (placement : Placement α) :
    Prop where
  write : ∀ key, placement.write key = listStart counts key + (valuesAt taken key).length
  room : ∀ key, (valuesAt taken key).length ≤ counts key
  cells : ∀ key index value, (valuesAt taken key)[index]? = some value →
    placement.cells (listStart counts key + index) = value

theorem placed_start (counts : Nat → Nat) (cells : Nat → α) :
    Placed counts [] ⟨listStart counts, cells⟩ :=
  ⟨fun _ => rfl, fun _ => Nat.zero_le _, fun _ _ _ known => by
    rw [valuesAt_nil, List.getElem?_nil] at known
    cases known⟩

theorem valuesAt_snoc (taken : List (Nat × α)) (entry : Nat × α) (key : Nat) :
    valuesAt (taken ++ [entry]) key =
      if entry.1 = key then valuesAt taken key ++ [entry.2] else valuesAt taken key := by
  rw [valuesAt_append, valuesAt_cons, valuesAt_nil]
  split_ifs
  · rfl
  · exact List.append_nil _

/-- **One more entry** goes behind the others of its key, where there is room for it. -/
theorem Placed.place {counts : Nat → Nat} {taken : List (Nat × α)} {placement : Placement α}
    (placed : Placed counts taken placement) (entry : Nat × α)
    (room : (valuesAt taken entry.1).length < counts entry.1) :
    Placed counts (taken ++ [entry]) (placement.place entry) := by
  have target := placed.write entry.1
  constructor
  · intro key
    rw [valuesAt_snoc]
    by_cases same : entry.1 = key
    · subst same
      rw [if_pos rfl, List.length_append, List.length_singleton]
      exact (Function.update_self ..).trans (by rw [target, Nat.add_assoc])
    · rw [if_neg same]
      exact (Function.update_of_ne (Ne.symm same) _ _).trans (placed.write key)
  · intro key
    rw [valuesAt_snoc]
    by_cases same : entry.1 = key
    · subst same
      rw [if_pos rfl, List.length_append, List.length_singleton]
      exact room
    · rw [if_neg same]
      exact placed.room key
  · intro key index value known
    rw [valuesAt_snoc] at known
    by_cases same : entry.1 = key
    · subst same
      rw [if_pos rfl] at known
      rcases Nat.lt_or_ge index (valuesAt taken entry.1).length with earlier | last
      · rw [List.getElem?_append_left earlier] at known
        refine (Function.update_of_ne ?_ _ _).trans (placed.cells _ _ _ known)
        rw [target]
        omega
      · rw [List.getElem?_append_right last, List.getElem?_singleton] at known
        split_ifs at known with zero
        have here : listStart counts entry.1 + index = placement.write entry.1 := by
          rw [target]
          omega
        rw [here]
        exact (Function.update_self ..).trans (Option.some.inj known)
    · rw [if_neg same] at known
      have within := (List.getElem?_eq_some_iff.mp known).1
      refine (Function.update_of_ne ?_ _ _).trans (placed.cells _ _ _ known)
      rw [target]
      exact listStart_disjoint counts (Ne.symm same) (within.trans_le (placed.room key)) room

/-- **All entries**, in an array with room for each list. -/
theorem placed_all (counts : Nat → Nat) {log : List (Nat × α)}
    (exact_ : ∀ key, counts key = (valuesAt log key).length) (cells : Nat → α) :
    Placed counts log (log.foldl Placement.place ⟨listStart counts, cells⟩) := by
  suffices rest : ∀ taken left : List (Nat × α), ∀ placement, taken ++ left = log →
      Placed counts taken placement → Placed counts log (left.foldl Placement.place placement) from
    rest [] log _ rfl (placed_start counts cells)
  intro taken left
  induction left generalizing taken with
  | nil =>
    intro placement whole placed
    rw [List.append_nil] at whole
    exact whole ▸ placed
  | cons entry left ih =>
    intro placement whole placed
    refine ih (taken ++ [entry]) _ (by rw [← whole, List.append_assoc]; rfl) (placed.place entry ?_)
    rw [exact_, ← whole, valuesAt_append, valuesAt_cons, if_pos rfl, List.length_append,
      List.length_cons]
    omega

/-! ### Reading lists -/

def segment (cells : Nat → α) (first count : Nat) : List α :=
  (List.range count).map fun index => cells (first + index)

theorem length_segment (cells : Nat → α) (first count : Nat) :
    (segment cells first count).length = count := by
  rw [segment, List.length_map, List.length_range]

theorem segment_congr {cells other : Nat → α} {first count : Nat}
    (same : ∀ index < count, cells (first + index) = other (first + index)) :
    segment cells first count = segment other first count :=
  List.map_congr_left fun index member => same index (List.mem_range.mp member)

theorem getElem?_segment (cells : Nat → α) {first count index : Nat} (within : index < count) :
    (segment cells first count)[index]? = some (cells (first + index)) := by
  rw [segment, List.getElem?_map, List.getElem?_range within]
  rfl

/-- **Every list is complete** once all entries are placed. -/
theorem segment_placed {counts : Nat → Nat} {log : List (Nat × α)} {placement : Placement α}
    (placed : Placed counts log placement) {key : Nat}
    (exact_ : counts key = (valuesAt log key).length) :
    segment placement.cells (listStart counts key) (counts key) = valuesAt log key := by
  apply List.ext_getElem?
  intro index
  rcases Nat.lt_or_ge index (counts key) with within | beyond
  · rw [getElem?_segment _ within]
    have known := List.getElem?_eq_getElem (exact_ ▸ within)
    rw [known, placed.cells _ _ _ known]
  · rw [List.getElem?_eq_none (by rw [length_segment]; exact beyond),
      List.getElem?_eq_none (exact_ ▸ beyond)]

/-! ### Sorting the lists -/

def sortSegment (sort : List α → List α) (cells : Nat → α) (first count : Nat) : Nat → α :=
  if 1 < count then fun place =>
    if first ≤ place ∧ place < first + count then
      ((sort (segment cells first count))[place - first]?).getD (cells place)
    else cells place
  else cells

/-- The lists of the first keys sorted, one after another. -/
def sortAll (sort : List α → List α) (counts : Nat → Nat) (keys : Nat) (cells : Nat → α) :
    Nat → α :=
  (List.range keys).foldl (fun cells key =>
    sortSegment sort cells (listStart counts key) (counts key)) cells

def sortList (sort : List α → List α) (entries : List α) : List α :=
  if 1 < entries.length then sort entries else entries

variable {sort : List α → List α}

theorem segment_sortSegment (length : ∀ entries, (sort entries).length = entries.length)
    (cells : Nat → α) (first count : Nat) :
    segment (sortSegment sort cells first count) first count =
      sortList sort (segment cells first count) := by
  unfold sortSegment sortList
  rw [length_segment]
  split_ifs
  · apply List.ext_getElem?
    intro index
    have same : (sort (segment cells first count)).length = count := by
      rw [length, length_segment]
    rcases Nat.lt_or_ge index count with within | beyond
    · rw [getElem?_segment _ within, if_pos ⟨Nat.le_add_right _ _, by omega⟩,
        Nat.add_sub_cancel_left, List.getElem?_eq_getElem (within.trans_eq same.symm),
        Option.getD_some]
    · rw [List.getElem?_eq_none (by rw [length_segment]; exact beyond),
        List.getElem?_eq_none (same.le.trans beyond)]
  · rfl

theorem sortSegment_outside (cells : Nat → α) {first count place : Nat}
    (outside : ¬(first ≤ place ∧ place < first + count)) :
    sortSegment sort cells first count place = cells place := by
  unfold sortSegment
  split_ifs
  · exact if_neg outside
  · rfl

/-- **Each list is sorted** when all are sorted one after another. -/
theorem segment_sortAll (length : ∀ entries, (sort entries).length = entries.length)
    (counts : Nat → Nat) (keys key : Nat) (cells : Nat → α) :
    segment (sortAll sort counts keys cells) (listStart counts key) (counts key) =
      if key < keys then sortList sort (segment cells (listStart counts key) (counts key))
      else segment cells (listStart counts key) (counts key) := by
  induction keys with
  | zero => rw [if_neg (Nat.not_lt_zero key)]; rfl
  | succ keys ih =>
    have step : sortAll sort counts (keys + 1) cells =
        sortSegment sort (sortAll sort counts keys cells) (listStart counts keys)
          (counts keys) := by
      rw [sortAll, List.range_succ, List.foldl_append]
      rfl
    rw [step]
    rcases Nat.lt_trichotomy key keys with below | rfl | above
    · rw [if_pos (Nat.lt_succ_of_lt below), ← (if_pos below : _ = sortList sort _), ← ih]
      refine segment_congr fun index within => sortSegment_outside _ fun inside => ?_
      have apart := listStart_le counts below
      omega
    · rw [if_pos (Nat.lt_succ_self key), segment_sortSegment length, ih,
        if_neg (Nat.lt_irrefl key)]
    · rw [if_neg (by omega), ← (if_neg (by omega : ¬key < keys) : _ = segment cells _ _), ← ih]
      refine segment_congr fun index within => sortSegment_outside _ fun inside => ?_
      have apart := listStart_le counts above
      omega

end TurboHybrid.Library
