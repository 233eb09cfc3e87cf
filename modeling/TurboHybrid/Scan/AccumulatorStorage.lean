/-
**The two storages of the accumulator.**

A query keeps its entries in a hash table of its own or in a dense array that the backend keeps
between queries, where an entry counts while its stamp is the query's generation. The entries hold
their place in the top heap, as the code lays them out.

* `Represents.addTermScore`: in either storage a score is added as in the accumulator of
  `Scan.Accumulator`;
* `denseInit_past`: no stamp of an earlier query is the new generation, over growth and wrap-around;
* `storages_agree`: over every sequence of queries the two storages show the same.
-/
import TurboHybrid.Scan.Accumulator
import Mathlib.Algebra.Field.Rat
import Mathlib.Algebra.Order.Ring.Rat

set_option linter.unusedSectionVars false

namespace TurboHybrid.Scan

open TurboHybrid.Library

universe u

variable {R : Type u} [Field R] [LinearOrder R] [IsStrictOrderedRing R]

/-! ### Entries and their storages -/

structure StoredEntry (R : Type u) extends AccumulatorEntry R where
  heapIndex : Option Nat

/-- The hash table of the server, as its callers know it: a new table is empty, and what is stored
through an entry's pointer is found under its key and changes no other key. -/
structure HashTable (Entry : Type u) where
  Table : Type u
  create : Nat → Table
  find : Table → Nat → Option Entry
  store : Table → Nat → Entry → Table
  find_create : ∀ size nodeId, find (create size) nodeId = none
  find_store : ∀ table nodeId entry other,
    find (store table nodeId entry) other = if other = nodeId then some entry else find table other

/-- A table that keeps its entries as a function of the key. -/
def HashTable.ofFunction (Entry : Type u) : HashTable Entry where
  Table := Nat → Option Entry
  create _ _ := none
  find table nodeId := table nodeId
  store table nodeId entry := Function.update table nodeId (some entry)
  find_create _ _ := rfl
  find_store table nodeId entry other := Function.update_apply table nodeId (some entry) other

/-- The dense arrays kept between queries. Only the cells below the capacity are allocated. -/
structure DenseStorage (R : Type u) where
  entries : Nat → StoredEntry R
  generations : Nat → UInt32
  capacity : Nat
  generation : UInt32

inductive Slots (table : HashTable (StoredEntry R)) where
  | dense (storage : DenseStorage R)
  | hash (entries : table.Table)

def freshEntry (nodeId : Nat) : StoredEntry R := { newEntry nodeId with heapIndex := none }

namespace Slots

variable {table : HashTable (StoredEntry R)}

def found : Slots table → Nat → Bool
  | dense storage, nodeId =>
    decide (nodeId < storage.capacity) && storage.generations nodeId == storage.generation
  | hash entries, nodeId => (table.find entries nodeId).isSome

def read : Slots table → Nat → StoredEntry R
  | dense storage, nodeId => storage.entries nodeId
  | hash entries, nodeId => (table.find entries nodeId).getD (freshEntry nodeId)

def write : Slots table → Nat → StoredEntry R → Slots table
  | dense storage, nodeId, entry =>
    dense { storage with entries := Function.update storage.entries nodeId entry }
  | hash entries, nodeId, entry => hash (table.store entries nodeId entry)

/-- Make room for a node's entry: the dense array stamps its cell. -/
def enter : Slots table → Nat → Slots table
  | dense storage, nodeId =>
    dense { storage with
      generations := Function.update storage.generations nodeId storage.generation }
  | hash entries, nodeId => hash (table.store entries nodeId (freshEntry nodeId))

def fits : Slots table → Nat → Bool
  | dense storage, nodeId => decide (nodeId < storage.capacity)
  | hash _, _ => true

def Past : Slots table → Prop
  | dense storage =>
    ∀ nodeId, nodeId < storage.capacity → storage.generations nodeId ≤ storage.generation
  | hash _ => True

theorem read_write (slots : Slots table) (nodeId : Nat) (entry : StoredEntry R) (other : Nat) :
    (slots.write nodeId entry).read other = if other = nodeId then entry else slots.read other := by
  cases slots with
  | dense storage => exact Function.update_apply storage.entries nodeId entry other
  | hash entries =>
    simp only [read, write, table.find_store]
    split_ifs <;> rfl

theorem found_write (slots : Slots table) {nodeId : Nat} (known : slots.found nodeId = true)
    (entry : StoredEntry R) (other : Nat) :
    (slots.write nodeId entry).found other = slots.found other := by
  cases slots with
  | dense storage => rfl
  | hash entries =>
    simp only [found, write, table.find_store] at known ⊢
    split_ifs with same
    · rw [same, known]
      rfl
    · rfl

theorem found_enter (slots : Slots table) {nodeId : Nat} (room : slots.fits nodeId = true)
    (other : Nat) :
    (slots.enter nodeId).found other = (decide (other = nodeId) || slots.found other) := by
  cases slots with
  | dense storage =>
    simp only [fits, decide_eq_true_eq] at room
    simp only [found, enter, Function.update_apply]
    by_cases same : other = nodeId
    · simp [same, room]
    · simp [same]
  | hash entries =>
    simp only [found, enter, table.find_store]
    by_cases same : other = nodeId <;> simp [same]

theorem read_enter (slots : Slots table) {nodeId other : Nat} (different : other ≠ nodeId) :
    (slots.enter nodeId).read other = slots.read other := by
  cases slots with
  | dense storage => rfl
  | hash entries => simp [read, enter, table.find_store, different]

theorem past_write {slots : Slots table} (past : slots.Past) (nodeId : Nat)
    (entry : StoredEntry R) : (slots.write nodeId entry).Past := by
  cases slots with
  | dense storage => exact past
  | hash entries => trivial

theorem past_enter {slots : Slots table} (past : slots.Past) (nodeId : Nat) :
    (slots.enter nodeId).Past := by
  cases slots with
  | dense storage =>
    intro other inside
    simp only [Function.update_apply]
    split_ifs
    · exact UInt32.le_refl _
    · exact past other inside
  | hash entries => trivial

theorem fits_write (slots : Slots table) (nodeId : Nat) (entry : StoredEntry R) :
    (slots.write nodeId entry).fits = slots.fits := by
  cases slots <;> rfl

theorem fits_enter (slots : Slots table) (nodeId : Nat) : (slots.enter nodeId).fits = slots.fits := by
  cases slots <;> rfl

end Slots

/-! ### The accumulator as stored -/

/-- The accumulator of a running query over one of the storages. -/
structure StoredAccumulator (table : HashTable (StoredEntry R)) where
  slots : Slots table
  touched : List Nat
  topHeap : Array Nat
  topHeapCapacity : Nat
  threshold : R
  seedThreshold : R

namespace StoredAccumulator

variable {table : HashTable (StoredEntry R)}

def scoreAt (acc : StoredAccumulator table) (nodeId : Nat) : R := (acc.slots.read nodeId).score

/-- The node's entry, made first where it is asked for and fits; whether there is one. -/
def lookup (acc : StoredAccumulator table) (nodeId : Nat) (create : Bool) :
    StoredAccumulator table × Bool :=
  if acc.slots.found nodeId then (acc, true)
  else if acc.slots.fits nodeId && create then
    ({ acc with
      slots := (acc.slots.enter nodeId).write nodeId (freshEntry nodeId)
      touched := acc.touched ++ [nodeId] }, true)
  else (acc, false)

def heapLess (acc : StoredAccumulator table) (one other : Nat) : Bool :=
  if acc.scoreAt one < acc.scoreAt other then true
  else if acc.scoreAt other < acc.scoreAt one then false
  else decide ((acc.slots.read other).nodeId < (acc.slots.read one).nodeId)

def place (acc : StoredAccumulator table) (nodeId : Nat) (heapIndex : Option Nat) :
    StoredAccumulator table :=
  { acc with slots := acc.slots.write nodeId { acc.slots.read nodeId with heapIndex } }

def heapSwap (acc : StoredAccumulator table) (first second : Nat) : StoredAccumulator table :=
  match acc.topHeap[first]?, acc.topHeap[second]? with
  | some one, some other =>
    ({ acc with topHeap := acc.topHeap.swapIfInBounds first second }.place other first).place one
      second
  | _, _ => acc

def heapSiftUp : Nat → StoredAccumulator table → Nat → StoredAccumulator table
  | 0, acc, _ => acc
  | fuel + 1, acc, pos =>
    let parent := (pos - 1) / 2
    if pos = 0 then acc
    else if BinaryHeap.lessAt acc.heapLess acc.topHeap pos parent then
      heapSiftUp fuel (acc.heapSwap pos parent) parent
    else acc

def heapSiftDown : Nat → StoredAccumulator table → Nat → StoredAccumulator table
  | 0, acc, _ => acc
  | fuel + 1, acc, pos =>
    let smallest := BinaryHeap.smallestOf acc.heapLess acc.topHeap pos
    if smallest = pos then acc
    else heapSiftDown fuel (acc.heapSwap pos smallest) smallest

def refreshThreshold (acc : StoredAccumulator table) : StoredAccumulator table :=
  { acc with
    threshold :=
      if 0 < acc.topHeapCapacity ∧ acc.topHeap.size = acc.topHeapCapacity then
        ((acc.topHeap[0]?).map acc.scoreAt).getD 0
      else 0 }

def heapPush (acc : StoredAccumulator table) (nodeId : Nat) : StoredAccumulator table :=
  { acc.place nodeId (some acc.topHeap.size) with topHeap := acc.topHeap.push nodeId }

def heapReplaceRoot (acc : StoredAccumulator table) (root nodeId : Nat) : StoredAccumulator table :=
  { (acc.place root none).place nodeId (some 0) with topHeap := acc.topHeap.setIfInBounds 0 nodeId }

def updateTopK (acc : StoredAccumulator table) (nodeId : Nat) : StoredAccumulator table :=
  if acc.topHeapCapacity = 0 then acc
  else
    refreshThreshold <|
      match (acc.slots.read nodeId).heapIndex with
      | some heapIndex => heapSiftDown acc.topHeap.size acc heapIndex
      | none =>
        if acc.topHeap.size < acc.topHeapCapacity then
          heapSiftUp acc.topHeap.size (acc.heapPush nodeId) acc.topHeap.size
        else
          match acc.topHeap[0]? with
          | none => acc
          | some root =>
            if acc.scoreAt root < acc.scoreAt nodeId then
              heapSiftDown acc.topHeap.size (acc.heapReplaceRoot root nodeId) 0
            else acc

def changeEntry (acc : StoredAccumulator table) (nodeId : Nat)
    (change : AccumulatorEntry R → AccumulatorEntry R) : StoredAccumulator table :=
  let entry := acc.slots.read nodeId
  { acc with
    slots := acc.slots.write nodeId
      { change entry.toAccumulatorEntry with heapIndex := entry.heapIndex } }

def addTermScore (acc : StoredAccumulator table) (nodeId : Nat) (score : R) (matchBit : Nat) :
    StoredAccumulator table :=
  match acc.lookup nodeId true with
  | (acc, false) => acc
  | (acc, true) => (acc.changeEntry nodeId (addScore score matchBit)).updateTopK nodeId

end StoredAccumulator

/-! ### What the storage represents -/

namespace StoredAccumulator

variable {table : HashTable (StoredEntry R)} {acc : StoredAccumulator table}

/-- **The accumulator a storage represents**: the touched nodes' entries in touched order. -/
def model (acc : StoredAccumulator table) : Accumulator R where
  denseCapacity := none
  entries := acc.touched.map fun nodeId => (acc.slots.read nodeId).toAccumulatorEntry
  topHeap := acc.topHeap
  topHeapCapacity := acc.topHeapCapacity
  threshold := acc.threshold
  seedThreshold := acc.seedThreshold

/-- The touched nodes are the ones found, and each entry knows its place in the heap. -/
structure Consistent (acc : StoredAccumulator table) : Prop where
  distinct : acc.touched.Nodup
  found : ∀ nodeId, acc.slots.found nodeId = true ↔ nodeId ∈ acc.touched
  ids : ∀ nodeId ∈ acc.touched, (acc.slots.read nodeId).nodeId = nodeId
  inside : ∀ nodeId ∈ acc.topHeap, nodeId ∈ acc.touched
  placed : ∀ nodeId ∈ acc.touched, ∀ pos,
    (acc.slots.read nodeId).heapIndex = some pos ↔ acc.topHeap[pos]? = some nodeId

structure SameEntries (acc later : StoredAccumulator table) : Prop where
  touched : later.touched = acc.touched
  found : later.slots.found = acc.slots.found
  entry : ∀ nodeId, (later.slots.read nodeId).toAccumulatorEntry =
    (acc.slots.read nodeId).toAccumulatorEntry
  capacity : later.topHeapCapacity = acc.topHeapCapacity
  threshold : later.threshold = acc.threshold
  seedThreshold : later.seedThreshold = acc.seedThreshold
  fits : later.slots.fits = acc.slots.fits
  past : acc.slots.Past → later.slots.Past

theorem SameEntries.refl (acc : StoredAccumulator table) : SameEntries acc acc :=
  ⟨rfl, rfl, fun _ => rfl, rfl, rfl, rfl, rfl, id⟩

theorem SameEntries.trans {middle later : StoredAccumulator table}
    (first : SameEntries acc middle) (second : SameEntries middle later) :
    SameEntries acc later :=
  ⟨second.touched.trans first.touched, second.found.trans first.found,
    fun nodeId => (second.entry nodeId).trans (first.entry nodeId),
    second.capacity.trans first.capacity, second.threshold.trans first.threshold,
    second.seedThreshold.trans first.seedThreshold, second.fits.trans first.fits,
    second.past ∘ first.past⟩

theorem SameEntries.model_eq {later : StoredAccumulator table} (same : SameEntries acc later) :
    later.model = { acc.model with topHeap := later.topHeap } := by
  unfold model
  rw [same.touched, same.capacity, same.threshold, same.seedThreshold]
  simp only [same.entry]

theorem place_read (acc : StoredAccumulator table) (nodeId : Nat) (heapIndex : Option Nat)
    (other : Nat) :
    (acc.place nodeId heapIndex).slots.read other =
      if other = nodeId then { acc.slots.read nodeId with heapIndex } else acc.slots.read other :=
  Slots.read_write ..

theorem place_same {nodeId : Nat} (known : acc.slots.found nodeId = true) (heapIndex : Option Nat) :
    SameEntries acc (acc.place nodeId heapIndex) := by
  refine ⟨rfl, ?_, fun other => ?_, rfl, rfl, rfl, Slots.fits_write .., fun past =>
    Slots.past_write past ..⟩
  · funext other
    exact Slots.found_write _ known _ other
  · rw [place_read]
    split_ifs with here
    · rw [here]
    · rfl

namespace Consistent

variable (consistent : Consistent acc)
include consistent

theorem lookup_model (nodeId : Nat) :
    acc.model.lookup nodeId =
      if nodeId ∈ acc.touched then some (acc.slots.read nodeId).toAccumulatorEntry else none := by
  have ids : acc.model.nodeIds = acc.touched := by
    unfold Accumulator.nodeIds model
    rw [List.map_map]
    exact (List.map_congr_left consistent.ids).trans (List.map_id' _)
  split_ifs with known
  · have member : (acc.slots.read nodeId).toAccumulatorEntry ∈ acc.model.entries :=
      List.mem_map_of_mem known
    have found := lookup_eq_some (ids ▸ consistent.distinct) member
    rwa [consistent.ids nodeId known] at found
  · rw [← Option.not_isSome_iff_eq_none, lookup_isSome, ids]
    exact known

theorem scoreOf_model {nodeId : Nat} (known : nodeId ∈ acc.touched) :
    acc.model.scoreOf nodeId = acc.scoreAt nodeId := by
  rw [Accumulator.scoreOf, consistent.lookup_model, if_pos known]
  rfl

theorem heapLess_model {one other : Nat} (known : one ∈ acc.touched) (known' : other ∈ acc.touched) :
    acc.heapLess one other = accumulatorHeapLess acc.model one other := by
  unfold heapLess accumulatorHeapLess
  rw [consistent.scoreOf_model known, consistent.scoreOf_model known', consistent.ids one known,
    consistent.ids other known']

theorem lessAt_model (first second : Nat) :
    BinaryHeap.lessAt acc.heapLess acc.topHeap first second =
      BinaryHeap.lessAt (accumulatorHeapLess acc.model) acc.topHeap first second := by
  unfold BinaryHeap.lessAt
  cases one : acc.topHeap[first]? with
  | none => rfl
  | some node =>
    cases two : acc.topHeap[second]? with
    | none => rfl
    | some node' =>
      exact consistent.heapLess_model (consistent.inside _ (Array.mem_of_getElem? one))
        (consistent.inside _ (Array.mem_of_getElem? two))

theorem smallestOf_model (pos : Nat) :
    BinaryHeap.smallestOf acc.heapLess acc.topHeap pos =
      BinaryHeap.smallestOf (accumulatorHeapLess acc.model) acc.topHeap pos := by
  simp only [BinaryHeap.smallestOf, consistent.lessAt_model]

end Consistent

/-! ### The sifts -/

theorem heapSwap_topHeap (acc : StoredAccumulator table) (first second : Nat) :
    (acc.heapSwap first second).topHeap = acc.topHeap.swapIfInBounds first second := by
  unfold heapSwap Array.swapIfInBounds
  by_cases one : first < acc.topHeap.size <;> by_cases two : second < acc.topHeap.size <;>
    simp [one, two, place]

theorem getElem?_swap {heap : Array Nat} {first second one other : Nat}
    (atFirst : heap[first]? = some one) (atSecond : heap[second]? = some other) (pos : Nat) :
    (heap.swapIfInBounds first second)[pos]? =
      if pos = second then some one else if pos = first then some other else heap[pos]? := by
  obtain ⟨inFirst, rfl⟩ := Array.getElem?_eq_some_iff.mp atFirst
  obtain ⟨inSecond, rfl⟩ := Array.getElem?_eq_some_iff.mp atSecond
  rw [Array.swapIfInBounds_def, dif_pos inFirst, dif_pos inSecond, Array.getElem?_swap]
  simp only [eq_comm]

theorem swap_outside {heap : Array Nat} {first second : Nat}
    (outside : heap[first]? = none ∨ heap[second]? = none) :
    heap.swapIfInBounds first second = heap := by
  rw [Array.swapIfInBounds_def]
  rcases outside with one | two
  · exact dif_neg (Array.getElem?_eq_none_iff.mp one).not_gt
  · simp [(Array.getElem?_eq_none_iff.mp two).not_gt]

theorem heapSwap_same (consistent : Consistent acc) (first second : Nat) :
    SameEntries acc (acc.heapSwap first second) := by
  unfold heapSwap
  cases one : acc.topHeap[first]? with
  | none => exact .refl acc
  | some node =>
    cases two : acc.topHeap[second]? with
    | none => exact .refl acc
    | some node' =>
      have known := (consistent.found node).mpr (consistent.inside _ (Array.mem_of_getElem? one))
      have known' := (consistent.found node').mpr (consistent.inside _ (Array.mem_of_getElem? two))
      let swapped : StoredAccumulator table :=
        { acc with topHeap := acc.topHeap.swapIfInBounds first second }
      have start : SameEntries acc swapped := ⟨rfl, rfl, fun _ => rfl, rfl, rfl, rfl, rfl, id⟩
      have placed : SameEntries swapped (swapped.place node' first) :=
        place_same (show swapped.slots.found node' = true from known') _
      refine start.trans (placed.trans (place_same ?_ _))
      rw [placed.found]
      exact known

theorem heapSwap_consistent (consistent : Consistent acc) (first second : Nat) :
    Consistent (acc.heapSwap first second) := by
  have same := heapSwap_same consistent first second
  have heap := heapSwap_topHeap acc first second
  refine ⟨same.touched ▸ consistent.distinct, fun nodeId => ?_, fun nodeId member => ?_,
    fun nodeId member => ?_, fun nodeId member pos => ?_⟩
  · rw [same.found, same.touched]
    exact consistent.found nodeId
  · rw [same.touched] at member
    exact (congrArg AccumulatorEntry.nodeId (same.entry nodeId)).trans (consistent.ids nodeId member)
  · rw [heap] at member
    rw [same.touched]
    exact consistent.inside nodeId
      ((BinaryHeap.swapIfInBounds_perm acc.topHeap first second).mem_iff.mp member)
  · rw [same.touched] at member
    have before := consistent.placed nodeId member
    rw [heap]
    unfold heapSwap
    cases one : acc.topHeap[first]? with
    | none =>
      rw [swap_outside (.inl one)]
      exact before pos
    | some node =>
      cases two : acc.topHeap[second]? with
      | none =>
        rw [swap_outside (.inr two)]
        exact before pos
      | some node' =>
        simp only [place_read, getElem?_swap one two]
        have atFirst := consistent.placed node (consistent.inside _ (Array.mem_of_getElem? one)) first
        have atSecond :=
          consistent.placed node' (consistent.inside _ (Array.mem_of_getElem? two)) second
        grind

theorem heapSiftUp_spec (fuel : Nat) {acc : StoredAccumulator table} (consistent : Consistent acc)
    (pos : Nat) :
    Consistent (acc.heapSiftUp fuel pos) ∧ SameEntries acc (acc.heapSiftUp fuel pos) ∧
      (acc.heapSiftUp fuel pos).topHeap =
        BinaryHeap.siftUp (accumulatorHeapLess acc.model) fuel acc.topHeap pos := by
  induction fuel generalizing acc pos with
  | zero => exact ⟨consistent, .refl acc, rfl⟩
  | succ fuel ih =>
    simp only [heapSiftUp, BinaryHeap.siftUp, consistent.lessAt_model]
    split_ifs
    · exact ⟨consistent, .refl acc, rfl⟩
    · have same := heapSwap_same consistent pos ((pos - 1) / 2)
      obtain ⟨kept, rest, heap⟩ :=
        ih (heapSwap_consistent consistent pos ((pos - 1) / 2)) ((pos - 1) / 2)
      refine ⟨kept, same.trans rest, heap.trans ?_⟩
      rw [heapSwap_topHeap, same.model_eq]
      rfl
    · exact ⟨consistent, .refl acc, rfl⟩

theorem heapSiftDown_spec (fuel : Nat) {acc : StoredAccumulator table} (consistent : Consistent acc)
    (pos : Nat) :
    Consistent (acc.heapSiftDown fuel pos) ∧ SameEntries acc (acc.heapSiftDown fuel pos) ∧
      (acc.heapSiftDown fuel pos).topHeap =
        BinaryHeap.siftDown (accumulatorHeapLess acc.model) fuel acc.topHeap pos := by
  induction fuel generalizing acc pos with
  | zero => exact ⟨consistent, .refl acc, rfl⟩
  | succ fuel ih =>
    simp only [heapSiftDown, BinaryHeap.siftDown, consistent.smallestOf_model]
    generalize BinaryHeap.smallestOf (accumulatorHeapLess acc.model) acc.topHeap pos = smallest
    split_ifs
    · exact ⟨consistent, .refl acc, rfl⟩
    · have same := heapSwap_same consistent pos smallest
      obtain ⟨kept, rest, heap⟩ := ih (heapSwap_consistent consistent pos smallest) smallest
      refine ⟨kept, same.trans rest, heap.trans ?_⟩
      rw [heapSwap_topHeap, same.model_eq]
      rfl

/-! ### Updates -/

theorem findIdx_eq (consistent : Consistent acc) {nodeId : Nat} (known : nodeId ∈ acc.touched) :
    acc.topHeap.findIdx? (· == nodeId) = (acc.slots.read nodeId).heapIndex := by
  have placed := consistent.placed nodeId known
  cases recorded : (acc.slots.read nodeId).heapIndex with
  | none =>
    rw [Array.findIdx?_eq_none_iff]
    intro other member
    obtain ⟨pos, inside, rfl⟩ := Array.mem_iff_getElem.mp member
    rw [beq_eq_false_iff_ne]
    rintro rfl
    have := (placed pos).mpr (Array.getElem?_eq_getElem inside)
    rw [recorded] at this
    cases this
  | some pos =>
    obtain ⟨inside, here⟩ := Array.getElem?_eq_some_iff.mp ((placed pos).mp recorded)
    rw [Array.findIdx?_eq_some_iff_getElem]
    refine ⟨inside, by simp [here], fun earlier before => ?_⟩
    have earlierInside : earlier < acc.topHeap.size := before.trans inside
    simp only [beq_iff_eq]
    intro same
    have there := (placed earlier).mpr (by rw [Array.getElem?_eq_getElem earlierInside, same])
    rw [recorded] at there
    have := Option.some.inj there
    omega

theorem refreshThreshold_model (consistent : Consistent acc) :
    acc.refreshThreshold.model = Scan.refreshThreshold acc.model := by
  have root : (acc.topHeap[0]?).map acc.scoreAt = (acc.topHeap[0]?).map acc.model.scoreOf := by
    cases found : acc.topHeap[0]? with
    | none => rfl
    | some node =>
      rw [Option.map_some, Option.map_some,
        consistent.scoreOf_model (consistent.inside node (Array.mem_of_getElem? found))]
  unfold StoredAccumulator.refreshThreshold Scan.refreshThreshold
  rw [root]
  rfl

theorem refreshThreshold_consistent (consistent : Consistent acc) :
    Consistent acc.refreshThreshold :=
  ⟨consistent.distinct, consistent.found, consistent.ids, consistent.inside, consistent.placed⟩

theorem heapPush_same {nodeId : Nat} (known : acc.slots.found nodeId = true) :
    SameEntries acc (acc.heapPush nodeId) :=
  (place_same known _).trans ⟨rfl, rfl, fun _ => rfl, rfl, rfl, rfl, rfl, id⟩

theorem heapPush_consistent (consistent : Consistent acc) {nodeId : Nat}
    (known : nodeId ∈ acc.touched) (outside : (acc.slots.read nodeId).heapIndex = none) :
    Consistent (acc.heapPush nodeId) := by
  have same := heapPush_same ((consistent.found nodeId).mpr known)
  refine ⟨consistent.distinct, fun other => ?_, fun other member => ?_, fun other member => ?_,
    fun other member pos => ?_⟩
  · rw [same.found]
    exact consistent.found other
  · exact (congrArg AccumulatorEntry.nodeId (same.entry other)).trans (consistent.ids other member)
  · rcases Array.mem_push.mp member with old | rfl
    · exact consistent.inside other old
    · exact known
  · have before := consistent.placed other member pos
    show ((acc.place nodeId (some acc.topHeap.size)).slots.read other).heapIndex = some pos ↔
      (acc.topHeap.push nodeId)[pos]? = some other
    rw [place_read, Array.getElem?_push]
    have bound (found : acc.topHeap[pos]? = some other) : pos < acc.topHeap.size :=
      (Array.getElem?_eq_some_iff.mp found).1
    grind

theorem heapReplaceRoot_same {root nodeId : Nat} (rootKnown : acc.slots.found root = true)
    (known : acc.slots.found nodeId = true) : SameEntries acc (acc.heapReplaceRoot root nodeId) := by
  have left := place_same rootKnown none
  refine left.trans ((place_same ?_ (some 0)).trans ⟨rfl, rfl, fun _ => rfl, rfl, rfl, rfl, rfl, id⟩)
  rw [left.found]
  exact known

theorem heapReplaceRoot_consistent (consistent : Consistent acc) {root nodeId : Nat}
    (atRoot : acc.topHeap[0]? = some root) (known : nodeId ∈ acc.touched)
    (outside : (acc.slots.read nodeId).heapIndex = none) :
    Consistent (acc.heapReplaceRoot root nodeId) := by
  have rootKnown : root ∈ acc.touched := consistent.inside root (Array.mem_of_getElem? atRoot)
  have same := heapReplaceRoot_same ((consistent.found root).mpr rootKnown)
    ((consistent.found nodeId).mpr known)
  refine ⟨consistent.distinct, fun other => ?_, fun other member => ?_, fun other member => ?_,
    fun other member pos => ?_⟩
  · rw [same.found]
    exact consistent.found other
  · exact (congrArg AccumulatorEntry.nodeId (same.entry other)).trans (consistent.ids other member)
  · rcases Array.mem_or_eq_of_mem_setIfInBounds member with old | rfl
    · exact consistent.inside other old
    · exact known
  · have before := consistent.placed other member pos
    have rootPlaced := consistent.placed root rootKnown
    show (((acc.place root none).place nodeId (some 0)).slots.read other).heapIndex = some pos ↔
      (acc.topHeap.setIfInBounds 0 nodeId)[pos]? = some other
    have positive : 0 < acc.topHeap.size := (Array.getElem?_eq_some_iff.mp atRoot).1
    rw [place_read, place_read, place_read, Array.getElem?_setIfInBounds]
    have zero := (rootPlaced 0).mpr atRoot
    have unplaced := consistent.placed nodeId known 0
    grind

/-- **The heap after an update** is the heap of the represented accumulator. -/
theorem updateTopK_spec (consistent : Consistent acc) {nodeId : Nat} (known : nodeId ∈ acc.touched) :
    Consistent (acc.updateTopK nodeId) ∧
      (acc.updateTopK nodeId).model = Scan.updateTopK acc.model nodeId ∧
      (acc.updateTopK nodeId).touched = acc.touched ∧
      (acc.updateTopK nodeId).slots.fits = acc.slots.fits ∧
      (acc.slots.Past → (acc.updateTopK nodeId).slots.Past) := by
  have finish {later : StoredAccumulator table} {heap : Array Nat} (kept : Consistent later)
      (same : SameEntries acc later) (heapEq : later.topHeap = heap) :
      Consistent later.refreshThreshold ∧
        later.refreshThreshold.model = Scan.refreshThreshold { acc.model with topHeap := heap } ∧
        later.refreshThreshold.touched = acc.touched ∧
        later.refreshThreshold.slots.fits = acc.slots.fits ∧
        (acc.slots.Past → later.refreshThreshold.slots.Past) := by
    refine ⟨refreshThreshold_consistent kept, ?_, same.touched, same.fits, same.past⟩
    rw [refreshThreshold_model kept, same.model_eq, heapEq]
  unfold StoredAccumulator.updateTopK Scan.updateTopK
  by_cases empty : acc.topHeapCapacity = 0
  · rw [if_pos empty, if_pos (show acc.model.topHeapCapacity = 0 from empty)]
    exact ⟨consistent, rfl, rfl, rfl, id⟩
  rw [if_neg empty, if_neg (show ¬acc.model.topHeapCapacity = 0 from empty)]
  have index : acc.model.topHeap.findIdx? (· == nodeId) = (acc.slots.read nodeId).heapIndex :=
    findIdx_eq consistent known
  simp only [index]
  have found := (consistent.found nodeId).mpr known
  cases place : (acc.slots.read nodeId).heapIndex with
  | some pos =>
    obtain ⟨kept, same, heap⟩ := heapSiftDown_spec acc.topHeap.size consistent pos
    exact finish kept same heap
  | none =>
    simp only
    by_cases room : acc.topHeap.size < acc.topHeapCapacity
    · rw [if_pos room, if_pos (show acc.model.topHeap.size < acc.model.topHeapCapacity from room)]
      obtain ⟨kept, same, heap⟩ := heapSiftUp_spec acc.topHeap.size
        (heapPush_consistent consistent known place) acc.topHeap.size
      refine finish kept ((heapPush_same found).trans same) (heap.trans ?_)
      rw [(heapPush_same found).model_eq]
      rfl
    · rw [if_neg room,
        if_neg (show ¬acc.model.topHeap.size < acc.model.topHeapCapacity from room)]
      have nonempty : 0 < acc.topHeap.size := by omega
      obtain ⟨root, atRoot⟩ : ∃ root, acc.topHeap[0]? = some root :=
        ⟨acc.topHeap[0], Array.getElem?_eq_getElem nonempty⟩
      have rootKnown : root ∈ acc.touched := consistent.inside root (Array.mem_of_getElem? atRoot)
      have atRoot' : acc.model.topHeap[0]? = some root := atRoot
      simp only [atRoot, atRoot', Option.map_some, Option.getD_some,
        consistent.scoreOf_model rootKnown, consistent.scoreOf_model known]
      have rootFound := (consistent.found root).mpr rootKnown
      split_ifs
      · have same := heapReplaceRoot_same rootFound found
        have kept := heapReplaceRoot_consistent consistent atRoot known place
        obtain ⟨kept, same', heap⟩ := heapSiftDown_spec acc.topHeap.size kept 0
        refine finish kept (same.trans same') (heap.trans ?_)
        rw [same.model_eq]
        rfl
      · exact finish consistent (.refl acc) rfl

/-! ### Scores -/

theorem lookup_fresh (consistent : Consistent acc) {nodeId : Nat} (fresh : nodeId ∉ acc.touched)
    (room : acc.slots.fits nodeId = true) :
    ∃ later : StoredAccumulator table, acc.lookup nodeId true = (later, true) ∧ Consistent later ∧
      later.model = { acc.model with entries := acc.model.entries ++ [newEntry nodeId] } ∧
      later.touched = acc.touched ++ [nodeId] ∧ later.slots.fits = acc.slots.fits ∧
      (acc.slots.Past → later.slots.Past) := by
  have missing : acc.slots.found nodeId = false := by
    rw [← Bool.not_eq_true, consistent.found]
    exact fresh
  have entered : (acc.slots.enter nodeId).found nodeId = true := by simp [Slots.found_enter _ room]
  have read (other : Nat) :
      ((acc.slots.enter nodeId).write nodeId (freshEntry nodeId)).read other =
        if other = nodeId then freshEntry nodeId else acc.slots.read other := by
    rw [Slots.read_write]
    split_ifs with same
    · rfl
    · exact Slots.read_enter _ same
  have old {other : Nat} (known : other ∈ acc.touched) : other ≠ nodeId := fun same =>
    fresh (same ▸ known)
  refine ⟨_, by simp only [lookup, missing, room]; rfl, ⟨?_, fun other => ?_, fun other member => ?_,
    fun other member => ?_, fun other member pos => ?_⟩, ?_, rfl, ?_, fun past => ?_⟩
  · exact consistent.distinct.append (List.nodup_singleton _) (by simpa using fresh)
  · rw [Slots.found_write _ entered, Slots.found_enter _ room]
    simp [consistent.found, or_comm]
  · simp only [read]
    split_ifs with same
    · rw [same]
      rfl
    · refine consistent.ids other ?_
      simpa [same] using member
  · exact List.mem_append_left _ (consistent.inside other member)
  · simp only [read]
    split_ifs with same
    · subst same
      refine ⟨fun placed => (nomatch placed), fun placed => ?_⟩
      exact absurd (consistent.inside other (Array.mem_of_getElem? placed)) fresh
    · exact consistent.placed other (by simpa [same] using member) pos
  · have kept : acc.touched.map (fun other =>
        (((acc.slots.enter nodeId).write nodeId (freshEntry nodeId)).read other).toAccumulatorEntry) =
        acc.touched.map fun other => (acc.slots.read other).toAccumulatorEntry :=
      List.map_congr_left fun other known => by rw [read, if_neg (old known)]
    have made : (((acc.slots.enter nodeId).write nodeId (freshEntry nodeId)).read
        nodeId).toAccumulatorEntry = newEntry nodeId := by
      rw [read, if_pos rfl]
      rfl
    simp only [model, List.map_append, List.map_cons, List.map_nil, kept, made]
  · rw [Slots.fits_write, Slots.fits_enter]
  · exact Slots.past_write (Slots.past_enter past nodeId) ..

theorem changeEntry_spec (consistent : Consistent acc) {nodeId : Nat} (known : nodeId ∈ acc.touched)
    {change : AccumulatorEntry R → AccumulatorEntry R}
    (same : ∀ entry, (change entry).nodeId = entry.nodeId) :
    Consistent (acc.changeEntry nodeId change) ∧
      (acc.changeEntry nodeId change).model =
        { acc.model with entries := acc.model.entries.map fun entry =>
            if entry.nodeId = nodeId then change entry else entry } := by
  have read (other : Nat) : (acc.changeEntry nodeId change).slots.read other =
      if other = nodeId then
        { change (acc.slots.read nodeId).toAccumulatorEntry with
          heapIndex := (acc.slots.read nodeId).heapIndex }
      else acc.slots.read other := Slots.read_write ..
  refine ⟨⟨consistent.distinct, fun other => ?_, fun other member => ?_, consistent.inside,
    fun other member pos => ?_⟩, ?_⟩
  · exact (iff_of_eq (congrArg (· = true)
      (Slots.found_write _ ((consistent.found nodeId).mpr known) _ other))).trans
      (consistent.found other)
  · rw [read]
    split_ifs with here
    · rw [here]
      exact (same _).trans (consistent.ids nodeId known)
    · exact consistent.ids other member
  · rw [read]
    split_ifs with here
    · rw [here]
      exact consistent.placed nodeId known pos
    · exact consistent.placed other member pos
  · simp only [model, List.map_map]
    have entries : acc.touched.map (fun other =>
        ((acc.changeEntry nodeId change).slots.read other).toAccumulatorEntry) =
        acc.touched.map ((fun entry => if entry.nodeId = nodeId then change entry else entry) ∘
          fun other => (acc.slots.read other).toAccumulatorEntry) := by
      refine List.map_congr_left fun other member => ?_
      rw [read, Function.comp, consistent.ids other member]
      split_ifs with here
      · rw [here]
      · rfl
    exact congrArg (fun entries => Accumulator.mk none entries acc.topHeap acc.topHeapCapacity
      acc.threshold acc.seedThreshold) entries

/-- **Adding a score** in either storage is adding it in the accumulator represented. -/
theorem addTermScore_spec (consistent : Consistent acc) {nodeId : Nat}
    (room : acc.slots.fits nodeId = true) (score : R) (matchBit : Nat) :
    Consistent (acc.addTermScore nodeId score matchBit) ∧
      (acc.addTermScore nodeId score matchBit).model =
        Scan.addTermScore acc.model nodeId score matchBit ∧
      (acc.addTermScore nodeId score matchBit).slots.fits = acc.slots.fits ∧
      (acc.slots.Past → (acc.addTermScore nodeId score matchBit).slots.Past) := by
  have change {later : StoredAccumulator table} (kept : Consistent later)
      (known : nodeId ∈ later.touched) :
      let updated := (later.changeEntry nodeId (addScore score matchBit)).updateTopK nodeId
      Consistent updated ∧
        updated.model = Scan.updateTopK { later.model with
          entries := later.model.entries.map fun entry =>
            if entry.nodeId = nodeId then addScore score matchBit entry else entry } nodeId ∧
        updated.slots.fits = later.slots.fits ∧ (later.slots.Past → updated.slots.Past) := by
    obtain ⟨changed, changedModel⟩ :=
      changeEntry_spec kept known (addScore_nodeId (R := R) score matchBit)
    obtain ⟨final, finalModel, -, fits, past⟩ := updateTopK_spec changed known
    refine ⟨final, ?_, fits.trans (Slots.fits_write ..), fun before =>
      past (Slots.past_write before ..)⟩
    rw [finalModel, changedModel]
  have unbounded : ¬acc.model.denseCapacity.any (· ≤ nodeId) = true := fun any => nomatch any
  unfold StoredAccumulator.addTermScore Scan.addTermScore accumulatorUpdate
  rw [if_neg unbounded]
  have lookupModel := consistent.lookup_model nodeId
  by_cases known : nodeId ∈ acc.touched
  · have found : acc.lookup nodeId true = (acc, true) := by
      rw [lookup, if_pos ((consistent.found nodeId).mpr known)]
    obtain ⟨final, finalModel, fits, past⟩ := change consistent known
    rw [found]
    refine ⟨final, finalModel.trans ?_, fits, past⟩
    rw [touchEntry, lookupModel, if_pos known]
    rfl
  · obtain ⟨later, made, kept, laterModel, touched, fits, past⟩ :=
      lookup_fresh consistent known room
    obtain ⟨final, finalModel, fits', past'⟩ :=
      change kept (touched ▸ List.mem_append_right _ (List.mem_singleton_self _))
    rw [made]
    refine ⟨final, finalModel.trans ?_, fits'.trans fits, past' ∘ past⟩
    have others : acc.model.entries.map (fun entry =>
        if entry.nodeId = nodeId then addScore score matchBit entry else entry) =
        acc.model.entries := by
      refine (List.map_congr_left fun entry member => if_neg ?_).trans (List.map_id' _)
      obtain ⟨other, otherKnown, rfl⟩ := List.mem_map.mp member
      rw [consistent.ids other otherKnown]
      exact fun same => known (same ▸ otherKnown)
    have last : [newEntry nodeId].map (fun entry =>
        if entry.nodeId = nodeId then addScore score matchBit entry else entry) =
        [addScore score matchBit (newEntry nodeId)] := by
      simp [newEntry]
    rw [touchEntry, lookupModel, if_neg known, laterModel]
    simp only [List.map_append, others, last]
    rfl

end StoredAccumulator

/-! ### Queries of one backend -/

/-- The array with room for the nodes; `memory` is what the new cells hold, their stamps are zero. -/
def growStorage (storage : DenseStorage R) (nodeCount : Nat) (memory : Nat → StoredEntry R) :
    DenseStorage R :=
  if storage.capacity < nodeCount then
    { storage with
      entries := fun nodeId =>
        if nodeId < storage.capacity then storage.entries nodeId else memory nodeId
      generations := fun nodeId =>
        if nodeId < storage.capacity then storage.generations nodeId else 0
      capacity := nodeCount }
  else storage

/-- The next generation; where the counter wraps around the stamps are cleared. -/
def advanceGeneration (storage : DenseStorage R) : DenseStorage R :=
  if storage.generation + 1 = 0 then { storage with generations := fun _ => 0, generation := 1 }
  else { storage with generation := storage.generation + 1 }

def denseInit (storage : DenseStorage R) (nodeCount : Nat) (memory : Nat → StoredEntry R) :
    DenseStorage R :=
  advanceGeneration (growStorage storage nodeCount memory)

structure TermScoreCall (R : Type u) (nodeCount : Nat) where
  nodeId : Fin nodeCount
  score : R
  matchBit : Nat

/-- What a query brings to its accumulator. The memory is what fresh cells of the dense array hold
before they are written. -/
structure AccumulatorQuery (R : Type u) where
  mode : AccumulatorMode
  initialSize : Nat
  topK : Nat
  nodeCount : Nat
  memory : Nat → StoredEntry R
  calls : List (TermScoreCall R nodeCount)

def initStored {table : HashTable (StoredEntry R)} (slots : Slots table) (topK : Nat) :
    StoredAccumulator table where
  slots := slots
  touched := []
  topHeap := #[]
  topHeapCapacity := topK
  threshold := 0
  seedThreshold := 0

section Queries

variable (table : HashTable (StoredEntry R))

def querySlots (storage : DenseStorage R) (query : AccumulatorQuery R) : Slots table :=
  match query.mode with
  | .dense => .dense (denseInit storage query.nodeCount query.memory)
  | .hash => .hash (table.create (max query.initialSize 16))

def runCalls {nodeCount : Nat} (acc : StoredAccumulator table)
    (calls : List (TermScoreCall R nodeCount)) : StoredAccumulator table :=
  calls.foldl (fun acc call => acc.addTermScore call.nodeId call.score call.matchBit) acc

def runQuery (storage : DenseStorage R) (query : AccumulatorQuery R) : StoredAccumulator table :=
  runCalls table (initStored (querySlots table storage query) query.topK) query.calls

def keptStorage (storage : DenseStorage R) (acc : StoredAccumulator table) : DenseStorage R :=
  match acc.slots with
  | .dense later => later
  | .hash _ => storage

/-- What a query's caller can see of its accumulator: the touched nodes, the entry found for any
node, the heap and its threshold. -/
structure Observed (R : Type u) where
  touched : List Nat
  entry : Nat → Option (AccumulatorEntry R)
  topHeap : Array Nat
  threshold : R

def observe (acc : StoredAccumulator table) : Observed R where
  touched := acc.touched
  entry nodeId :=
    if (acc.lookup nodeId false).2 then some (acc.slots.read nodeId).toAccumulatorEntry else none
  topHeap := acc.topHeap
  threshold := acc.threshold

/-- What the queries of one backend show, one after the other. -/
def runQueries (storage : DenseStorage R) : List (AccumulatorQuery R) → List (Observed R)
  | [] => []
  | query :: rest =>
    let acc := runQuery table storage query
    observe table acc :: runQueries (keptStorage table storage acc) rest

def emptyStorage (memory : Nat → StoredEntry R) : DenseStorage R where
  entries := memory
  generations _ := 0
  capacity := 0
  generation := 0

variable {table}

def DenseStorage.Past (storage : DenseStorage R) : Prop :=
  ∀ nodeId, nodeId < storage.capacity → storage.generations nodeId ≤ storage.generation

theorem growStorage_past {storage : DenseStorage R} (past : storage.Past) (nodeCount : Nat)
    (memory : Nat → StoredEntry R) :
    nodeCount ≤ (growStorage storage nodeCount memory).capacity ∧
      (growStorage storage nodeCount memory).Past := by
  unfold growStorage
  split_ifs with grows
  · refine ⟨le_rfl, fun nodeId inside => ?_⟩
    show (if nodeId < storage.capacity then storage.generations nodeId else 0) ≤ storage.generation
    split_ifs with old
    · exact past nodeId old
    · exact UInt32.zero_le
  · exact ⟨not_lt.mp grows, past⟩

theorem advanceGeneration_past {storage : DenseStorage R} (past : storage.Past) :
    (advanceGeneration storage).Past ∧
      ∀ nodeId, nodeId < storage.capacity →
        (advanceGeneration storage).generations nodeId ≠ (advanceGeneration storage).generation := by
  unfold advanceGeneration
  split_ifs with wrapped
  · exact ⟨fun _ _ => show (0 : UInt32) ≤ 1 by decide, fun _ _ => show (0 : UInt32) ≠ 1 by decide⟩
  · have later (nodeId : Nat) (inside : nodeId < storage.capacity) :
        storage.generations nodeId < storage.generation + 1 := by
      have before := UInt32.le_iff_toNat_le.mp (past nodeId inside)
      have bound := storage.generation.toNat_lt
      have unwrapped : (storage.generation.toNat + 1) % 2 ^ 32 ≠ 0 := fun zero =>
        wrapped (UInt32.toNat_inj.mp (by rw [UInt32.toNat_add]; exact zero))
      rw [UInt32.lt_iff_toNat_lt, UInt32.toNat_add, show (1 : UInt32).toNat = 1 from rfl]
      omega
    exact ⟨fun nodeId inside => UInt32.le_of_lt (later nodeId inside),
      fun nodeId inside => UInt32.ne_of_lt (later nodeId inside)⟩

/-- **A new generation is no stamp's**, whether the array grew or the counter wrapped around. -/
theorem denseInit_past {storage : DenseStorage R} (past : storage.Past) (nodeCount : Nat)
    (memory : Nat → StoredEntry R) :
    nodeCount ≤ (denseInit storage nodeCount memory).capacity ∧
      (denseInit storage nodeCount memory).Past ∧
      ∀ nodeId, nodeId < (denseInit storage nodeCount memory).capacity →
        (denseInit storage nodeCount memory).generations nodeId ≠
          (denseInit storage nodeCount memory).generation := by
  obtain ⟨room, grown⟩ := growStorage_past past nodeCount memory
  obtain ⟨kept, unstamped⟩ := advanceGeneration_past grown
  have capacity : (denseInit storage nodeCount memory).capacity =
      (growStorage storage nodeCount memory).capacity := by
    unfold denseInit advanceGeneration
    split_ifs <;> rfl
  rw [capacity]
  exact ⟨room, kept, unstamped⟩

theorem querySlots_start {storage : DenseStorage R} (past : storage.Past)
    (query : AccumulatorQuery R) :
    (∀ nodeId, (querySlots table storage query).found nodeId = false) ∧
      (∀ nodeId < query.nodeCount, (querySlots table storage query).fits nodeId = true) ∧
      (querySlots table storage query).Past := by
  unfold querySlots
  cases query.mode with
  | dense =>
    obtain ⟨room, fresh, unstamped⟩ := denseInit_past past query.nodeCount query.memory
    refine ⟨fun nodeId => ?_, fun nodeId inside => ?_, fresh⟩
    · simp only [Slots.found, Bool.and_eq_false_imp, decide_eq_true_eq, beq_eq_false_iff_ne]
      exact unstamped nodeId
    · exact decide_eq_true (inside.trans_le room)
  | hash =>
    exact ⟨fun nodeId => by simp [Slots.found, table.find_create], fun _ _ => rfl, trivial⟩

/-- The calls of a query on the accumulator represented. -/
def modelCalls {nodeCount : Nat} (acc : Accumulator R) (calls : List (TermScoreCall R nodeCount)) :
    Accumulator R :=
  calls.foldl (fun acc call => addTermScore acc call.nodeId call.score call.matchBit) acc

theorem runCalls_spec {nodeCount : Nat} (calls : List (TermScoreCall R nodeCount))
    {acc : StoredAccumulator table} (consistent : acc.Consistent)
    (room : ∀ nodeId < nodeCount, acc.slots.fits nodeId = true) :
    (runCalls table acc calls).Consistent ∧
      (runCalls table acc calls).model = modelCalls acc.model calls ∧
      (acc.slots.Past → (runCalls table acc calls).slots.Past) := by
  induction calls generalizing acc with
  | nil => exact ⟨consistent, rfl, id⟩
  | cons call rest ih =>
    obtain ⟨kept, model, fits, past⟩ :=
      StoredAccumulator.addTermScore_spec consistent (room call.nodeId call.nodeId.isLt) call.score
        call.matchBit
    obtain ⟨final, finalModel, finalPast⟩ := ih kept (fun nodeId inside => by
      rw [fits]
      exact room nodeId inside)
    refine ⟨final, finalModel.trans ?_, finalPast ∘ past⟩
    rw [model]
    rfl

theorem runQuery_spec {storage : DenseStorage R} (past : storage.Past) (query : AccumulatorQuery R) :
    (runQuery table storage query).Consistent ∧
      (runQuery table storage query).model =
        modelCalls (accumulatorInit .hash 0 query.nodeCount query.topK) query.calls ∧
      (keptStorage table storage (runQuery table storage query)).Past := by
  obtain ⟨unfound, room, fresh⟩ := @querySlots_start _ _ _ _ table _ past query
  have start : (initStored (querySlots table storage query) query.topK).Consistent :=
    ⟨List.nodup_nil, fun nodeId => by simp [initStored, unfound], fun _ member => (nomatch member),
      fun _ member => absurd member (Array.not_mem_empty _), fun _ member => (nomatch member)⟩
  obtain ⟨kept, model, later⟩ := runCalls_spec query.calls start room
  refine ⟨kept, model, ?_⟩
  have final := later fresh
  unfold keptStorage
  cases slots : (runQuery table storage query).slots with
  | dense storage' =>
    have : (Slots.dense storage' : Slots table).Past := slots ▸ final
    exact this
  | hash entries => exact past

theorem observe_eq {acc : StoredAccumulator table} (consistent : acc.Consistent) :
    observe table acc =
      ⟨acc.model.nodeIds, acc.model.lookup, acc.model.topHeap, acc.model.threshold⟩ := by
  have ids : acc.model.nodeIds = acc.touched := by
    unfold Accumulator.nodeIds StoredAccumulator.model
    rw [List.map_map]
    exact (List.map_congr_left consistent.ids).trans (List.map_id' _)
  have entry (nodeId : Nat) : (acc.lookup nodeId false).2 = decide (nodeId ∈ acc.touched) := by
    have found := consistent.found nodeId
    unfold StoredAccumulator.lookup
    cases known : acc.slots.found nodeId <;> simp_all
  unfold observe
  rw [ids]
  congr 1
  funext nodeId
  rw [entry, consistent.lookup_model]
  simp only [decide_eq_true_eq]

/-- **The two storages agree**: over every sequence of queries on one backend, each in either
storage, every query shows what it shows in a hash table of its own, of which no earlier query
knows. -/
theorem storages_agree (table : HashTable (StoredEntry R)) (memory : Nat → StoredEntry R)
    (queries : List (AccumulatorQuery R)) :
    runQueries table (emptyStorage memory) queries =
      queries.map fun query =>
        observe table (runQuery table (emptyStorage memory) { query with mode := .hash }) := by
  have run (storage : DenseStorage R) (past : storage.Past) :
      runQueries table storage queries =
        queries.map fun query =>
          observe table (runQuery table (emptyStorage memory) { query with mode := .hash }) := by
    induction queries generalizing storage with
    | nil => rfl
    | cons query rest ih =>
      obtain ⟨kept, model, later⟩ := @runQuery_spec _ _ _ _ table _ past query
      have initial : (emptyStorage memory).Past := fun _ inside => absurd inside (Nat.not_lt_zero _)
      obtain ⟨kept', model', -⟩ :=
        @runQuery_spec _ _ _ _ table _ initial { query with mode := .hash }
      rw [runQueries, List.map_cons, ih _ later, observe_eq kept, observe_eq kept', model, model']
  exact run _ fun _ inside => absurd inside (Nat.not_lt_zero _)

end Queries

/-- The score 1 for node 0 and the score 2 for node 1, of the best one of which the query keeps
track. -/
def pairQuery (mode : AccumulatorMode) : AccumulatorQuery ℚ where
  mode := mode
  initialSize := 16
  topK := 1
  nodeCount := 2
  memory := freshEntry
  calls := [⟨⟨0, Nat.zero_lt_two⟩, 1, 1⟩, ⟨⟨1, Nat.one_lt_two⟩, 2, 1⟩]

/-- The same query in both storages, one after the other. -/
theorem storages_agree_pair :
    runQueries (HashTable.ofFunction (StoredEntry ℚ)) (emptyStorage freshEntry)
        [pairQuery .dense, pairQuery .hash] =
      [pairQuery .dense, pairQuery .hash].map fun query =>
        observe (HashTable.ofFunction (StoredEntry ℚ)) (runQuery _ (emptyStorage freshEntry)
          { query with mode := .hash }) :=
  storages_agree _ _ _

end TurboHybrid.Scan
