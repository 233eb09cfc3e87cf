/-
**References from payload values to nodes.**

The cache keeps one reference for each payload that a node has, sorted by slot, value and node; an
insert appends the references of its node and sorts again. A filter on a payload finds its
references by two binary searches.

* `appendInsertNode_indexed`: after each insert the references are those of the nodes, in order;
* `payloadRefRange_exact`: the range found for a slot and a value has exactly the nodes that are
  loaded, not dead and have the value there, each once and in ascending order.
-/
import TurboHybrid.Library.BinarySearch
import Mathlib.Data.List.Sort

namespace TurboHybrid.Graph.PayloadRefs

open Library.BinarySearch

structure PayloadMeta where
  tqPayloadCount : Nat
  tqPayloadBytes : Nat

/-- What a cached node says about its payloads; `none` stands for no payload array. -/
structure ScanNode where
  loaded : Bool
  dead : Bool
  payloads : Option (Nat → Int)
  payloadMask : BitVec 16

structure PayloadRef where
  payloadSlot : Int
  payloadValue : Int
  nodeId : Nat
  deriving DecidableEq, Repr

structure PayloadStorage where
  nodes : List ScanNode
  payloadRefs : List PayloadRef

/-- The row of an insert: a row without payloads has no payload bit set. -/
structure InsertRow where
  payloads : Option (Nat → Int)
  payloadMask : BitVec 16
  masked : payloads = none → payloadMask = 0

/-- `PgturbohybridGraphPayloadRefCompare`. -/
def payloadRefCompare (ra rb : PayloadRef) : Int :=
  if ra.payloadSlot < rb.payloadSlot then -1
  else if ra.payloadSlot > rb.payloadSlot then 1
  else if ra.payloadValue < rb.payloadValue then -1
  else if ra.payloadValue > rb.payloadValue then 1
  else (if ra.nodeId > rb.nodeId then 1 else 0) - (if ra.nodeId < rb.nodeId then 1 else 0)

/-- `qsort` by the comparison. -/
def sortRefs (refs : List PayloadRef) : List PayloadRef :=
  refs.mergeSort fun ra rb => decide (payloadRefCompare ra rb ≤ 0)

def slotRefs (payloadCount nodeId : Nat) (payloads : Nat → Int) (payloadMask : BitVec 16) :
    List PayloadRef :=
  (List.range payloadCount).filterMap fun slot =>
    if payloadMask.getLsbD slot then some ⟨slot, payloads slot, nodeId⟩ else none

/-- The references of a node: none for a node that is not loaded or dead. -/
def nodeRefs (info : PayloadMeta) (node : ScanNode) (nodeId : Nat) : List PayloadRef :=
  if !node.loaded || node.dead then []
  else match node.payloads with
    | none => []
    | some payloads => slotRefs info.tqPayloadCount nodeId payloads node.payloadMask

/-- **`PgturbohybridGraphBuildPayloadRefs`**. -/
def buildPayloadRefs (info : PayloadMeta) (nodes : List ScanNode) : PayloadStorage :=
  if info.tqPayloadCount = 0 ∨ info.tqPayloadBytes = 0 then ⟨nodes, []⟩
  else
    let refs := nodes.zipIdx.flatMap fun entry => nodeRefs info entry.1 entry.2
    if refs.length = 0 then ⟨nodes, []⟩ else ⟨nodes, sortRefs refs⟩

def rowNode (info : PayloadMeta) (row : InsertRow) : ScanNode :=
  { loaded := true
    dead := false
    payloads := if 0 < info.tqPayloadBytes then some (row.payloads.getD fun _ => 0) else none
    payloadMask := row.payloadMask }

def rowRefs (info : PayloadMeta) (nodeId : Nat) (row : InsertRow) : List PayloadRef :=
  match row.payloads with
  | none => []
  | some payloads =>
    if 0 < info.tqPayloadBytes ∧ row.payloadMask ≠ 0 then
      slotRefs info.tqPayloadCount nodeId payloads row.payloadMask
    else []

/-- **The node and its references in `PgturbohybridGraphAppendInsertCacheNode`**; a row for another
node than the next one is left out. -/
def appendInsertNode (info : PayloadMeta) (storage : PayloadStorage) (nodeId : Nat)
    (row : InsertRow) : PayloadStorage :=
  if nodeId ≠ storage.nodes.length then storage
  else
    let addedRefs := rowRefs info nodeId row
    { nodes := storage.nodes ++ [rowNode info row]
      payloadRefs :=
        if 0 < addedRefs.length then sortRefs (storage.payloadRefs ++ addedRefs)
        else storage.payloadRefs }

/-- The test of the first search: the reference lies before the slot and the value. -/
def refBefore (payloadSlot payloadValue : Int) (ref : PayloadRef) : Bool :=
  decide (ref.payloadSlot < payloadSlot ∨
    (ref.payloadSlot = payloadSlot ∧ ref.payloadValue < payloadValue))

/-- The test of the second search: the reference lies after them. -/
def refAfter (payloadSlot payloadValue : Int) (ref : PayloadRef) : Bool :=
  decide (ref.payloadSlot > payloadSlot ∨
    (ref.payloadSlot = payloadSlot ∧ ref.payloadValue > payloadValue))

/-- **`PgturbohybridGraphPayloadRefRange`**: the first index and the number of references. -/
def payloadRefRange (storage : PayloadStorage) (payloadSlot payloadValue : Int) :
    Option (Nat × Nat) :=
  let refs := storage.payloadRefs
  if payloadSlot < 0 ∨ refs.length = 0 then none
  else
    let first := search (fun mid => refs[mid]?.any (refBefore payloadSlot payloadValue)) 0
      refs.length
    let last := search (fun mid => refs[mid]?.any fun ref => !refAfter payloadSlot payloadValue ref)
      first refs.length
    if last ≤ first then none else some (first, last - first)

def rangeNodes (storage : PayloadStorage) (payloadSlot payloadValue : Int) : List Nat :=
  match payloadRefRange storage payloadSlot payloadValue with
  | none => []
  | some (firstIndex, refCount) =>
    ((storage.payloadRefs.drop firstIndex).take refCount).map PayloadRef.nodeId

/-! ### Payloads of nodes -/

/-- The payload of a node in a slot; without payload bytes no node has one. -/
def ScanNode.payloadIn (info : PayloadMeta) (node : ScanNode) (payloadSlot : Int) : Option Int :=
  if 0 < info.tqPayloadBytes ∧ 0 ≤ payloadSlot ∧ payloadSlot < info.tqPayloadCount ∧
      node.payloadMask.getLsbD payloadSlot.toNat then
    node.payloads.map fun payloads => payloads payloadSlot.toNat
  else none

/-- The nodes in use that have a value in a slot, in ascending order. -/
def nodesWithPayload (info : PayloadMeta) (nodes : List ScanNode) (payloadSlot payloadValue : Int) :
    List Nat :=
  (nodes.zipIdx.filter fun entry => entry.1.loaded && !entry.1.dead &&
    decide (entry.1.payloadIn info payloadSlot = some payloadValue)).map Prod.snd

def allRefs (info : PayloadMeta) (nodes : List ScanNode) : List PayloadRef :=
  if 0 < info.tqPayloadBytes then nodes.zipIdx.flatMap fun entry => nodeRefs info entry.1 entry.2
  else []

/-- The references are those of the nodes, sorted. -/
structure Indexed (info : PayloadMeta) (storage : PayloadStorage) : Prop where
  sorted : storage.payloadRefs.Pairwise fun ra rb => payloadRefCompare ra rb ≤ 0
  perm : storage.payloadRefs.Perm (allRefs info storage.nodes)

/-! ### The order of the references -/

theorem payloadRefCompare_nonpos (ra rb : PayloadRef) :
    payloadRefCompare ra rb ≤ 0 ↔ ra.payloadSlot < rb.payloadSlot ∨
      (ra.payloadSlot = rb.payloadSlot ∧ (ra.payloadValue < rb.payloadValue ∨
        (ra.payloadValue = rb.payloadValue ∧ ra.nodeId ≤ rb.nodeId))) := by
  unfold payloadRefCompare
  split_ifs <;> omega

theorem sortRefs_sorted (refs : List PayloadRef) :
    (sortRefs refs).Pairwise fun ra rb => payloadRefCompare ra rb ≤ 0 := by
  refine (List.pairwise_mergeSort ?_ ?_ refs).imp fun below => of_decide_eq_true below
  · intro ra rb rc
    simp only [decide_eq_true_eq, payloadRefCompare_nonpos]
    omega
  · intro ra rb
    simp only [Bool.or_eq_true, decide_eq_true_eq, payloadRefCompare_nonpos]
    omega

theorem sortRefs_perm (refs : List PayloadRef) : (sortRefs refs).Perm refs :=
  List.mergeSort_perm _ _

/-! ### Building and inserting -/

theorem allRefs_eq_nil {info : PayloadMeta} (nodes : List ScanNode)
    (absent : info.tqPayloadCount = 0 ∨ info.tqPayloadBytes = 0) : allRefs info nodes = [] := by
  unfold allRefs
  rcases absent with none | none
  · refine ite_eq_right_iff.mpr fun _ => List.flatMap_eq_nil_iff.mpr fun entry _ => ?_
    rw [nodeRefs, none]
    split_ifs
    · rfl
    · cases entry.1.payloads <;> rfl
  · rw [none, if_neg (lt_irrefl 0)]

/-- **The references are built** for all nodes. -/
theorem buildPayloadRefs_indexed (info : PayloadMeta) (nodes : List ScanNode) :
    Indexed info (buildPayloadRefs info nodes) := by
  unfold buildPayloadRefs
  split_ifs with absent
  · refine ⟨List.Pairwise.nil, ?_⟩
    rw [allRefs_eq_nil nodes absent]
  · push Not at absent
    have all : allRefs info nodes =
        nodes.zipIdx.flatMap fun entry => nodeRefs info entry.1 entry.2 :=
      if_pos (Nat.pos_of_ne_zero absent.2)
    simp only
    split_ifs with none
    · refine ⟨List.Pairwise.nil, ?_⟩
      rw [all, List.length_eq_zero_iff.mp none]
    · refine ⟨sortRefs_sorted _, ?_⟩
      rw [all]
      exact sortRefs_perm _

theorem allRefs_append (info : PayloadMeta) (nodes : List ScanNode) (node : ScanNode) :
    allRefs info (nodes ++ [node]) =
      allRefs info nodes ++
        if 0 < info.tqPayloadBytes then nodeRefs info node nodes.length else [] := by
  unfold allRefs
  split_ifs
  · rw [List.zipIdx_append, List.flatMap_append, Nat.zero_add]
    rw [List.zipIdx_cons, List.zipIdx_nil, List.flatMap_singleton]
  · rfl

theorem rowRefs_eq (info : PayloadMeta) (nodeId : Nat) (row : InsertRow) :
    rowRefs info nodeId row =
      if 0 < info.tqPayloadBytes then nodeRefs info (rowNode info row) nodeId else [] := by
  have empty (payloads : Nat → Int) :
      slotRefs info.tqPayloadCount nodeId payloads 0 = [] := by
    refine List.filterMap_eq_nil_iff.mpr fun slot _ => if_neg ?_
    simp
  unfold rowRefs
  by_cases bytes : 0 < info.tqPayloadBytes
  · simp only [nodeRefs, rowNode, bytes, if_true, Bool.not_true, Bool.or_false, Bool.false_eq_true,
      if_false, true_and]
    cases given : row.payloads with
    | none => rw [row.masked given, empty]
    | some payloads =>
      rw [Option.getD_some]
      split_ifs with set
      · rfl
      · push Not at set
        rw [set, empty]
  · simp only [bytes, if_false, false_and]
    cases row.payloads <;> rfl

/-- **An insert** keeps the references those of the nodes. -/
theorem appendInsertNode_indexed {info : PayloadMeta} {storage : PayloadStorage}
    (indexed : Indexed info storage) (nodeId : Nat) (row : InsertRow) :
    Indexed info (appendInsertNode info storage nodeId row) := by
  unfold appendInsertNode
  split_ifs with other
  · exact indexed
  · push Not at other
    subst other
    have grown : (storage.payloadRefs ++ rowRefs info storage.nodes.length row).Perm
        (allRefs info (storage.nodes ++ [rowNode info row])) := by
      rw [allRefs_append, ← rowRefs_eq]
      exact indexed.perm.append_right _
    by_cases added : 0 < (rowRefs info storage.nodes.length row).length
    · refine ⟨?_, ?_⟩
      · simp only [if_pos added]
        exact sortRefs_sorted _
      · simp only [if_pos added]
        exact (sortRefs_perm _).trans grown
    · refine ⟨?_, ?_⟩
      · simp only [if_neg added]
        exact indexed.sorted
      · simp only [if_neg added]
        have none : rowRefs info storage.nodes.length row = [] :=
          List.length_eq_zero_iff.mp (Nat.eq_zero_of_not_pos added)
        rwa [none, List.append_nil] at grown

def runInserts (info : PayloadMeta) (storage : PayloadStorage)
    (inserts : List (Nat × InsertRow)) : PayloadStorage :=
  inserts.foldl (fun storage insert => appendInsertNode info storage insert.1 insert.2) storage

theorem runInserts_indexed {info : PayloadMeta} {storage : PayloadStorage}
    (indexed : Indexed info storage) (inserts : List (Nat × InsertRow)) :
    Indexed info (runInserts info storage inserts) := by
  induction inserts generalizing storage with
  | nil => exact indexed
  | cons insert rest ih => exact ih (appendInsertNode_indexed indexed insert.1 insert.2)

/-! ### The range of a payload -/

def refAt (payloadSlot payloadValue : Int) (ref : PayloadRef) : Bool :=
  decide (ref.payloadSlot = payloadSlot ∧ ref.payloadValue = payloadValue)

theorem refAt_eq (payloadSlot payloadValue : Int) (ref : PayloadRef) :
    (!refBefore payloadSlot payloadValue ref && !refAfter payloadSlot payloadValue ref) =
      refAt payloadSlot payloadValue ref := by
  rw [Bool.eq_iff_iff]
  simp only [refBefore, refAfter, refAt, Bool.and_eq_true, Bool.not_eq_true',
    decide_eq_false_iff_not, decide_eq_true_eq]
  omega

/-- **The searches** cut out the references of the slot and the value. -/
theorem rangeNodes_eq_filter {info : PayloadMeta} {storage : PayloadStorage}
    (indexed : Indexed info storage) {payloadSlot : Int} (slot : 0 ≤ payloadSlot)
    (payloadValue : Int) :
    rangeNodes storage payloadSlot payloadValue =
      (storage.payloadRefs.filter (refAt payloadSlot payloadValue)).map PayloadRef.nodeId := by
  have initial : storage.payloadRefs.Pairwise fun first second =>
      refBefore payloadSlot payloadValue second → refBefore payloadSlot payloadValue first := by
    refine indexed.sorted.imp fun below => ?_
    simp only [payloadRefCompare_nonpos, refBefore, decide_eq_true_eq] at below ⊢
    omega
  have initial' : storage.payloadRefs.Pairwise fun first second =>
      !refAfter payloadSlot payloadValue second → !refAfter payloadSlot payloadValue first := by
    refine indexed.sorted.imp fun below => ?_
    simp only [payloadRefCompare_nonpos, refAfter, Bool.not_eq_true', decide_eq_false_iff_not]
      at below ⊢
    omega
  have wider : ∀ ref ∈ storage.payloadRefs, refBefore payloadSlot payloadValue ref →
      !refAfter payloadSlot payloadValue ref := by
    intro ref _
    simp only [refBefore, refAfter, Bool.not_eq_true', decide_eq_false_iff_not, decide_eq_true_eq]
    omega
  have cut := range_eq_filter initial initial' wider
  simp only [refAt_eq] at cut
  have more : storage.payloadRefs.countP (refBefore payloadSlot payloadValue) ≤
      storage.payloadRefs.countP fun ref => !refAfter payloadSlot payloadValue ref :=
    List.countP_mono_left wider
  rw [← cut]
  unfold rangeNodes payloadRefRange
  by_cases none : storage.payloadRefs.length = 0
  · rw [List.length_eq_zero_iff.mp none]
    simp
  · simp only [slot.not_gt, none, or_self, if_false, search_countP initial (Nat.zero_le _),
      search_countP initial' more]
    split_ifs with empty
    · rw [Nat.sub_eq_zero_of_le empty, List.take_zero]
      rfl
    · rfl

theorem slotRefs_filter (payloadCount nodeId slot : Nat) (payloads : Nat → Int)
    (payloadMask : BitVec 16) (payloadValue : Int) :
    ((slotRefs payloadCount nodeId payloads payloadMask).filter (refAt slot payloadValue)).map
        PayloadRef.nodeId =
      if slot < payloadCount ∧ payloadMask.getLsbD slot ∧ payloads slot = payloadValue then
        [nodeId]
      else [] := by
  induction payloadCount with
  | zero => simp [slotRefs]
  | succ payloadCount ih =>
    have last : slotRefs (payloadCount + 1) nodeId payloads payloadMask =
        slotRefs payloadCount nodeId payloads payloadMask ++
          if payloadMask.getLsbD payloadCount then [⟨payloadCount, payloads payloadCount, nodeId⟩]
          else [] := by
      rw [slotRefs, List.range_succ, List.filterMap_append]
      refine congrArg _ ?_
      rw [List.filterMap_cons, List.filterMap_nil]
      split_ifs <;> rfl
    rw [last, List.filter_append, List.map_append, ih]
    by_cases same : slot = payloadCount
    · subst same
      simp only [lt_irrefl, false_and, if_false, List.nil_append, Nat.lt_succ_self, true_and]
      by_cases set : payloadMask.getLsbD slot
      · by_cases value : payloads slot = payloadValue <;> simp [refAt, set, value]
      · simp [set]
    · have different : (payloadCount : Int) ≠ slot := by omega
      have before : slot < payloadCount + 1 ↔ slot < payloadCount := by omega
      have none : ((if payloadMask.getLsbD payloadCount then
          [(⟨payloadCount, payloads payloadCount, nodeId⟩ : PayloadRef)] else []).filter
            (refAt slot payloadValue)) = [] := by
        split_ifs <;> simp [refAt, different]
      rw [none, List.map_nil, List.append_nil]
      simp only [before]

theorem nodeRefs_filter {info : PayloadMeta} (bytes : 0 < info.tqPayloadBytes) (node : ScanNode)
    (nodeId : Nat) {payloadSlot : Int} (slot : 0 ≤ payloadSlot) (payloadValue : Int) :
    ((nodeRefs info node nodeId).filter (refAt payloadSlot payloadValue)).map PayloadRef.nodeId =
      if node.loaded && !node.dead &&
        decide (node.payloadIn info payloadSlot = some payloadValue) then [nodeId] else [] := by
  obtain ⟨index, rfl⟩ := Int.eq_ofNat_of_zero_le slot
  unfold nodeRefs ScanNode.payloadIn
  by_cases used : node.loaded && !node.dead
  · have inUse : (!node.loaded || node.dead) = false := by
      simpa using used
    rw [inUse, used, if_neg Bool.false_ne_true]
    cases node.payloads with
    | none => simp
    | some payloads =>
      simp only [slotRefs_filter, Bool.true_and, Option.map_some, bytes, true_and,
        Int.toNat_natCast, Int.ofNat_lt, slot]
      refine if_congr ?_ rfl rfl
      rw [decide_eq_true_eq]
      split_ifs with set
      · simp [set]
      · simp only [iff_false]
        exact fun all => set ⟨all.1, all.2.1⟩
  · have unused : (!node.loaded || node.dead) = true := by
      revert used
      cases node.loaded <;> cases node.dead <;> decide
    rw [unused, Bool.eq_false_iff.mpr used]
    rfl

theorem flatMap_filter {α β : Type*} (items : List α) (test : α → Bool) (value : α → β) :
    (items.flatMap fun item => if test item then [value item] else []) =
      (items.filter test).map value := by
  induction items with
  | nil => rfl
  | cons item rest ih =>
    rw [List.flatMap_cons, ih]
    by_cases pass : test item
    · rw [if_pos pass, List.filter_cons_of_pos pass]
      rfl
    · rw [if_neg pass, List.filter_cons_of_neg pass]
      rfl

theorem allRefs_filter (info : PayloadMeta) (nodes : List ScanNode) {payloadSlot : Int}
    (slot : 0 ≤ payloadSlot) (payloadValue : Int) :
    ((allRefs info nodes).filter (refAt payloadSlot payloadValue)).map PayloadRef.nodeId =
      nodesWithPayload info nodes payloadSlot payloadValue := by
  unfold allRefs nodesWithPayload
  by_cases bytes : 0 < info.tqPayloadBytes
  · rw [if_pos bytes, List.filter_flatMap, List.map_flatMap, ← flatMap_filter]
    refine List.flatMap_congr fun entry _ => ?_
    exact nodeRefs_filter bytes entry.1 entry.2 slot payloadValue
  · have none : ∀ node : ScanNode, node.payloadIn info payloadSlot = none := fun node =>
      if_neg fun all => bytes all.1
    rw [if_neg bytes]
    simp [none]

theorem nodesWithPayload_ascending (info : PayloadMeta) (nodes : List ScanNode)
    (payloadSlot payloadValue : Int) :
    (nodesWithPayload info nodes payloadSlot payloadValue).Pairwise (· < ·) := by
  refine List.Pairwise.sublist (List.filter_sublist.map Prod.snd) ?_
  rw [List.zipIdx_map_snd]
  exact List.pairwise_lt_range'

theorem rangeNodes_eq {info : PayloadMeta} {storage : PayloadStorage}
    (indexed : Indexed info storage) (payloadSlot payloadValue : Int) :
    rangeNodes storage payloadSlot payloadValue =
      nodesWithPayload info storage.nodes payloadSlot payloadValue := by
  rcases lt_or_ge payloadSlot 0 with negative | slot
  · have none : ∀ node : ScanNode, node.payloadIn info payloadSlot = none := fun node =>
      if_neg fun all => absurd all.2.1 (not_le.mpr negative)
    simp [rangeNodes, payloadRefRange, negative, nodesWithPayload, none]
  · rw [rangeNodes_eq_filter indexed slot]
    refine List.Perm.eq_of_pairwise' (r := (· ≤ ·)) ?_
      ((nodesWithPayload_ascending _ _ _ _).imp le_of_lt) ?_
    · rw [List.pairwise_map]
      refine (List.pairwise_filter.mpr (indexed.sorted.imp fun below one other => ?_))
      simp only [refAt, decide_eq_true_eq, payloadRefCompare_nonpos] at below one other
      omega
    · rw [← allRefs_filter info storage.nodes slot]
      exact (indexed.perm.filter _).map _

/-- **The nodes of a payload** after any inserts: exactly the nodes that are loaded, not dead and
have the value in the slot, each once. -/
theorem payloadRefRange_exact (info : PayloadMeta) (nodes : List ScanNode)
    (inserts : List (Nat × InsertRow)) (payloadSlot payloadValue : Int) :
    let storage := runInserts info (buildPayloadRefs info nodes) inserts
    (rangeNodes storage payloadSlot payloadValue).Pairwise (· < ·) ∧
      ∀ nodeId, nodeId ∈ rangeNodes storage payloadSlot payloadValue ↔
        ∃ node, storage.nodes[nodeId]? = some node ∧ node.loaded ∧ ¬node.dead ∧
          node.payloadIn info payloadSlot = some payloadValue := by
  intro storage
  have indexed : Indexed info storage := runInserts_indexed (buildPayloadRefs_indexed info nodes) _
  rw [rangeNodes_eq indexed]
  refine ⟨nodesWithPayload_ascending _ _ _ _, fun nodeId => ?_⟩
  simp only [nodesWithPayload, List.mem_map, List.mem_filter, Prod.exists, Bool.and_eq_true,
    Bool.not_eq_true', decide_eq_true_eq, List.mem_zipIdx_iff_getElem?]
  constructor
  · rintro ⟨node, index, ⟨found, ⟨loaded, alive⟩, value⟩, rfl⟩
    exact ⟨node, found, loaded, by simp [alive], value⟩
  · rintro ⟨node, found, loaded, alive, value⟩
    exact ⟨node, nodeId, ⟨found, ⟨loaded, by simpa using alive⟩, value⟩, rfl⟩

/-- A dead node keeps its payload and is in no range. -/
theorem rangeNodes_dead :
    let info : PayloadMeta := ⟨1, 4⟩
    let node : ScanNode := ⟨true, true, some fun _ => 7, 1⟩
    node.loaded ∧ node.payloadIn info 0 = some 7 ∧
      0 ∉ rangeNodes (buildPayloadRefs info [node]) 0 7 := by
  refine ⟨rfl, rfl, ?_⟩
  simp [buildPayloadRefs, nodeRefs, rangeNodes, payloadRefRange]

end TurboHybrid.Graph.PayloadRefs
