/-
**Files of the shared graph cache.**

A backend maps a file that another one published and checks its layout before it builds a view into
it. Any bytes may stand in the file; a read outside of the mapping is a fault.

* `validateSharedLayout`: the check, with the layout that the counts of the header ask for;
* `Accepted`: what an accepted file satisfies, `validateSharedLayout_spec`;
* `sharedBuildView`: the pointers of the view;
* `ViewSafe`: every access through a view stays in its segment;
* `sharedLayout_safe`: no read of the check, of the view or of a search leaves its part of the file,
  and a search follows only ids of nodes.
-/
import TurboHybrid.Graph.ScanSearch
import Mathlib.Data.List.Pairwise

namespace TurboHybrid.Graph.SharedLayout

open Library

/-! ### The file -/

structure SharedMeta where
  tqNodeCount : Nat
  m : Nat
  tqCodeBytes : Nat
  tqPayloadCount : Nat
  tqPayloadBytes : Nat
  tqResidualRerankBytes : Nat

structure Mapping where
  size : Nat
  byte : Nat → UInt8

/-- A read outside of the mapping, and the errors for sizes. -/
inductive SharedFault where
  | outOfBounds
  | adjacencyTooLarge
  | viewTooLarge
  deriving DecidableEq, Repr

@[irreducible] def Mapping.word (file : Mapping) (offset width : Nat) : Nat :=
  (List.range width).foldr (fun k rest => (file.byte (offset + k)).toNat + 256 * rest) 0

def Mapping.read (file : Mapping) (offset width : Nat) : Except SharedFault Nat :=
  if offset + width ≤ file.size then .ok (file.word offset width) else .error .outOfBounds

structure SharedSegment where
  offset : Nat
  length : Nat
  deriving DecidableEq, Repr

inductive SharedArray where
  | nodes
  | codeArena
  | payloadArena
  | residualArena
  | exactArena
  | neighborCounts
  | neighborOffsets
  | neighborData
  | payloadRefs
  deriving DecidableEq, Repr

def SharedArray.all : List SharedArray :=
  [.nodes, .codeArena, .payloadArena, .residualArena, .exactArena, .neighborCounts,
    .neighborOffsets, .neighborData, .payloadRefs]

structure SharedHeader where
  fileSize : Nat
  adjRecordCount : Nat
  neighborValueCount : Nat
  payloadRefCount : Nat
  exactBytes : Nat
  segment : SharedArray → SharedSegment

/-- `sizeof(PgturbohybridGraphSharedCacheHeader)`. -/
def headerSize : Nat := 328

/-- Where the segment of an array stands in the header. -/
def segmentField (array : SharedArray) : Nat := 152 + 16 * SharedArray.all.idxOf array

def sharedHeader (file : Mapping) : SharedHeader where
  fileSize := file.word 16 8
  adjRecordCount := file.word 132 4
  neighborValueCount := file.word 136 8
  payloadRefCount := file.word 144 4
  exactBytes := file.word 148 4
  segment array :=
    { offset := file.word (segmentField array) 8
      length := file.word (segmentField array + 8) 8 }

/-! ### The layout -/

def uint64Max : Nat := 18446744073709551615

def maxAlign : Nat := 8

/-- `PgturbohybridGraphAdjRecordCount`. -/
def adjRecordCount (page : SharedMeta) : Except SharedFault Nat :=
  if 0 < levelCapacity page.m ∧ 2147483647 / levelCapacity page.m < page.tqNodeCount then
    .error .adjacencyTooLarge
  else .ok (page.tqNodeCount * levelCapacity page.m)

/-- `PgturbohybridGraphCheckedMultiplyU64`. -/
def checkedMultiply (count width : Nat) : Option Nat :=
  if width ≠ 0 ∧ uint64Max / width < count then none else some (count * width)

/-- `PgturbohybridGraphSharedAlign`. -/
def sharedAlign (offset : Nat) : Option Nat :=
  if uint64Max - (maxAlign - 1) < offset then none
  else some ((offset + (maxAlign - 1)) / maxAlign * maxAlign)

/-- `PgturbohybridGraphSharedAddBytes`. -/
def sharedAddBytes (offset bytes : Nat) : Option (SharedSegment × Nat) :=
  if bytes = 0 then some (⟨0, 0⟩, offset)
  else
    (sharedAlign offset).bind fun aligned =>
      if uint64Max - aligned < bytes then none
      else some (⟨aligned, bytes⟩, aligned + bytes)

/-- The elements of an array, by the counts of the header. -/
def arrayCount (page : SharedMeta) (records neighborValueCount payloadRefCount : Nat) :
    SharedArray → Nat
  | .nodes | .codeArena | .payloadArena | .residualArena | .exactArena => page.tqNodeCount
  | .neighborCounts | .neighborOffsets => records
  | .neighborData => neighborValueCount
  | .payloadRefs => payloadRefCount

/-- The bytes of an element: 40 for a node, 12 for a payload reference. -/
def arrayWidth (page : SharedMeta) (exactBytes : Nat) : SharedArray → Nat
  | .nodes => 40
  | .codeArena => page.tqCodeBytes
  | .payloadArena => page.tqPayloadBytes
  | .residualArena => page.tqResidualRerankBytes
  | .exactArena => exactBytes
  | .neighborCounts => 2
  | .neighborOffsets => 8
  | .neighborData => 4
  | .payloadRefs => 12

def addArrays (count width : SharedArray → Nat) :
    List SharedArray → Nat → Option (List SharedSegment × Nat)
  | [], offset => some ([], offset)
  | array :: rest, offset =>
    (checkedMultiply (count array) (width array)).bind fun bytes =>
      (sharedAddBytes offset bytes).bind fun added =>
        (addArrays count width rest added.2).map fun later => (added.1 :: later.1, later.2)

/-- **`PgturbohybridGraphBuildSharedLayout`** with the limit of the cache. -/
def buildSharedLayout (maxBytes : Nat) (page : SharedMeta)
    (records neighborValueCount payloadRefCount exactBytes : Nat) :
    Option (List SharedSegment × Nat) :=
  (addArrays (arrayCount page records neighborValueCount payloadRefCount)
      (arrayWidth page exactBytes) SharedArray.all headerSize).bind fun layout =>
    (sharedAlign layout.2).bind fun fileSize =>
      if maxBytes < fileSize ∨ uint64Max < fileSize then none else some (layout.1, fileSize)

/-! ### The check -/

/-- `PgturbohybridGraphSharedCheckedPtr`; `none` is no pointer. -/
def sharedCheckedPtr (file : Mapping) (segment : SharedSegment) : Option Nat :=
  if segment.length = 0 then none
  else if segment.offset = 0 ∨ file.size < segment.offset ∨
      file.size - segment.offset < segment.length then none
  else some segment.offset

/-- A segment is empty, or aligned behind the header and inside the file. -/
def SegmentFits (fileSize : Nat) (segment : SharedSegment) : Prop :=
  (segment.length = 0 ↔ segment.offset = 0) ∧
    (0 < segment.length → segment.offset % maxAlign = 0 ∧ headerSize ≤ segment.offset ∧
      segment.offset ≤ fileSize ∧ segment.length ≤ fileSize - segment.offset)

def Overlap (segment other : SharedSegment) : Prop :=
  0 < segment.length ∧ 0 < other.length ∧ segment.offset < other.offset + other.length ∧
    other.offset < segment.offset + segment.length

instance (fileSize : Nat) (segment : SharedSegment) : Decidable (SegmentFits fileSize segment) := by
  unfold SegmentFits
  infer_instance

instance (segment other : SharedSegment) : Decidable (Overlap segment other) := by
  unfold Overlap
  infer_instance

/-- The lists of the slots lie inside the neighbour data. -/
def checkSlots (file : Mapping) (hdr : SharedHeader) (counts offsets : Nat) :
    List Nat → Except SharedFault Bool
  | [] => .ok true
  | slot :: rest =>
    file.read (offsets + 8 * slot) 8 >>= fun offset =>
      if hdr.neighborValueCount < offset then .ok false
      else
        file.read (counts + 2 * slot) 2 >>= fun count =>
          if hdr.neighborValueCount - offset < count then .ok false
          else checkSlots file hdr counts offsets rest

def int16 (word : Nat) : Int := if word < 32768 then word else word - 65536

def checkRefs (file : Mapping) (page : SharedMeta) (refs : Nat) :
    List Nat → Except SharedFault Bool
  | [] => .ok true
  | index :: rest =>
    file.read (refs + 12 * index + 8) 4 >>= fun nodeId =>
      if page.tqNodeCount ≤ nodeId then .ok false
      else
        file.read (refs + 12 * index) 2 >>= fun payloadSlot =>
          if (page.tqPayloadCount : Int) ≤ int16 payloadSlot then .ok false
          else checkRefs file page refs rest

def checkPayloadRefs (file : Mapping) (page : SharedMeta) (hdr : SharedHeader) :
    Except SharedFault Bool :=
  if 0 < hdr.payloadRefCount then
    match sharedCheckedPtr file (hdr.segment .payloadRefs) with
    | some refs => checkRefs file page refs (List.range hdr.payloadRefCount)
    | none => .ok false
  else .ok true

def checkNeighbors (file : Mapping) (hdr : SharedHeader) : Except SharedFault Bool :=
  if 0 < hdr.adjRecordCount then
    match sharedCheckedPtr file (hdr.segment .neighborCounts),
      sharedCheckedPtr file (hdr.segment .neighborOffsets) with
    | some counts, some offsets =>
      checkSlots file hdr counts offsets (List.range hdr.adjRecordCount)
    | _, _ => .ok false
  else .ok true

/-- The segments of a header lie apart in the file and where the layout wants them. -/
def SegmentsMatch (file : Mapping) (hdr : SharedHeader) (expected : List SharedSegment) : Prop :=
  (∀ segment ∈ SharedArray.all.map hdr.segment, SegmentFits file.size segment) ∧
    (SharedArray.all.map hdr.segment).Pairwise (fun other segment => ¬Overlap segment other) ∧
    SharedArray.all.map hdr.segment = expected

instance (file : Mapping) (hdr : SharedHeader) (expected : List SharedSegment) :
    Decidable (SegmentsMatch file hdr expected) := by
  unfold SegmentsMatch
  infer_instance

/-- **`PgturbohybridGraphValidateSharedLayout`** -/
def validateSharedLayout (maxBytes : Nat) (page : SharedMeta) (file : Mapping) :
    Except SharedFault Bool :=
  let hdr := sharedHeader file
  if hdr.fileSize ≠ file.size ∨ file.size < headerSize then .ok false
  else
    adjRecordCount page >>= fun records =>
      if hdr.adjRecordCount ≠ records ∨
          page.tqNodeCount * page.tqPayloadCount < hdr.payloadRefCount ∨
          hdr.adjRecordCount * levelM page.m 0 < hdr.neighborValueCount then .ok false
      else
        match buildSharedLayout maxBytes page records hdr.neighborValueCount hdr.payloadRefCount
          hdr.exactBytes with
        | none => .ok false
        | some expected =>
          if expected.2 ≠ hdr.fileSize ∨ ¬SegmentsMatch file hdr expected.1 then .ok false
          else
            checkNeighbors file hdr >>= fun lists =>
              if lists then checkPayloadRefs file page hdr else .ok false

/-! ### The view -/

structure SharedNodeView where
  loaded : Bool
  code : Option Nat
  payloads : Option Nat
  residualSketch : Option Nat
  exactVector : Option Nat

structure SharedView where
  nodes : List SharedNodeView
  neighborCounts : Option Nat
  neighbors : List (Option Nat)
  payloadRefs : Option Nat
  payloadRefCount : Nat

/-- A pointer into an arena for a node that is loaded. -/
def nodePointer (loaded : Bool) (arena : Option Nat) (width nodeId : Nat) : Option Nat :=
  if loaded ∧ 0 < width then arena.map fun base => base + nodeId * width else none

def sharedNodeView (page : SharedMeta) (file : Mapping) (nodeId : Nat) :
    Except SharedFault SharedNodeView :=
  let hdr := sharedHeader file
  let pointer (loaded : Bool) (array : SharedArray) : Option Nat :=
    nodePointer loaded (sharedCheckedPtr file (hdr.segment array))
      (arrayWidth page hdr.exactBytes array) nodeId
  match sharedCheckedPtr file (hdr.segment .nodes) with
  | none => .error .outOfBounds
  | some nodes =>
    file.read (nodes + 40 * nodeId) 40 >>= fun _ =>
      let loaded := decide (file.word (nodes + 40 * nodeId + 38) 1 ≠ 0)
      .ok
        { loaded := loaded
          code := pointer loaded .codeArena
          payloads := pointer loaded .payloadArena
          residualSketch := pointer loaded .residualArena
          exactVector := pointer loaded .exactArena }

def sharedSlotView (file : Mapping) (slot : Nat) : Except SharedFault (Option Nat) :=
  let hdr := sharedHeader file
  match sharedCheckedPtr file (hdr.segment .neighborCounts) with
  | none => .error .outOfBounds
  | some counts =>
    file.read (counts + 2 * slot) 2 >>= fun count =>
      if 0 < count then
        match sharedCheckedPtr file (hdr.segment .neighborOffsets),
          sharedCheckedPtr file (hdr.segment .neighborData) with
        | some offsets, some neighborData =>
          file.read (offsets + 8 * slot) 8 >>= fun offset => .ok (some (neighborData + 4 * offset))
        | _, _ => .error .outOfBounds
      else .ok none

/-- **`PgturbohybridGraphSharedBuildView`** -/
def sharedBuildView (page : SharedMeta) (file : Mapping) : Except SharedFault SharedView :=
  let hdr := sharedHeader file
  if ScanSearch.maxAllocSize < 80 * page.tqNodeCount ∨
      ScanSearch.maxAllocSize < 8 * hdr.adjRecordCount then .error .viewTooLarge
  else
    (List.range page.tqNodeCount).mapM (sharedNodeView page file) >>= fun nodes =>
      (List.range hdr.adjRecordCount).mapM (sharedSlotView file) >>= fun neighbors =>
        .ok
          { nodes := nodes
            neighborCounts := sharedCheckedPtr file (hdr.segment .neighborCounts)
            neighbors := neighbors
            payloadRefs := sharedCheckedPtr file (hdr.segment .payloadRefs)
            payloadRefCount := hdr.payloadRefCount }

/-! ### The accesses of a search -/

def viewNeighbors (file : Mapping) (view : SharedView) (slot : Nat) :
    Except SharedFault (List Nat) :=
  match view.neighborCounts with
  | none => .error .outOfBounds
  | some counts =>
    file.read (counts + 2 * slot) 2 >>= fun count =>
      (List.range count).mapM fun i =>
        match view.neighbors.getD slot none with
        | some list => file.read (list + 4 * i) 4
        | none => .error .outOfBounds

def viewPayloadRef (file : Mapping) (view : SharedView) (index : Nat) : Except SharedFault Nat :=
  match view.payloadRefs with
  | none => .error .outOfBounds
  | some refs => file.read (refs + 12 * index + 8) 4

/-- The neighbours that the greedy search of a level scores. -/
def greedyBatch (nodeCount : Nat) (codeLoads : Nat → Bool) (nodeLevel : Nat → Int) (level : Int)
    (neighbors : List Nat) : List Nat :=
  neighbors.filter fun neighbor =>
    decide (neighbor < nodeCount) && codeLoads neighbor && decide (level ≤ nodeLevel neighbor)

/-! ### Reads and pointers -/

theorem read_ok {file : Mapping} {offset width : Nat} (inside : offset + width ≤ file.size) :
    file.read offset width = .ok (file.word offset width) := if_pos inside

theorem read_yields {file : Mapping} {offset width : Nat} (inside : offset + width ≤ file.size)
    (fails : SharedFault → Prop) :
    Yields fails (fun value => value = file.word offset width) (file.read offset width) := by
  rw [read_ok inside]
  exact rfl

theorem checkedPtr_fits {file : Mapping} {segment : SharedSegment}
    (fits : SegmentFits file.size segment) :
    sharedCheckedPtr file segment = if segment.length = 0 then none else some segment.offset := by
  unfold sharedCheckedPtr
  split_ifs with empty outside
  · rfl
  · obtain ⟨-, behind, inside, whole⟩ := fits.2 (Nat.pos_of_ne_zero empty)
    rw [headerSize] at behind
    omega
  · rfl

theorem SegmentFits.inside {size : Nat} {segment : SharedSegment} (fits : SegmentFits size segment)
    (some_ : 0 < segment.length) : segment.offset + segment.length ≤ size := by
  obtain ⟨-, -, inside, whole⟩ := fits.2 some_
  omega

theorem element_inside {count index : Nat} (width : Nat) (inside : index < count) :
    width * index + width ≤ count * width := by
  have less := Nat.mul_le_mul_right width (Nat.succ_le_of_lt inside)
  rw [Nat.succ_mul] at less
  rw [Nat.mul_comm width index]
  exact less

/-! ### What an accepted file satisfies -/

/-- **An accepted file.** -/
structure Accepted (page : SharedMeta) (file : Mapping) (hdr : SharedHeader) : Prop where
  header : headerSize ≤ file.size
  records : hdr.adjRecordCount = page.tqNodeCount * levelCapacity page.m
  fits : ∀ array, SegmentFits file.size (hdr.segment array)
  apart : ∀ array other, array ≠ other → ¬Overlap (hdr.segment array) (hdr.segment other)
  lengths : ∀ array, (hdr.segment array).length =
    arrayCount page hdr.adjRecordCount hdr.neighborValueCount hdr.payloadRefCount array *
      arrayWidth page hdr.exactBytes array
  slots : ∀ slot < hdr.adjRecordCount,
    file.word ((hdr.segment .neighborOffsets).offset + 8 * slot) 8 +
      file.word ((hdr.segment .neighborCounts).offset + 2 * slot) 2 ≤ hdr.neighborValueCount
  refs : ∀ index < hdr.payloadRefCount,
    file.word ((hdr.segment .payloadRefs).offset + 12 * index + 8) 4 < page.tqNodeCount ∧
      int16 (file.word ((hdr.segment .payloadRefs).offset + 12 * index) 2) < page.tqPayloadCount

theorem addArrays_lengths {count width : SharedArray → Nat} {arrays : List SharedArray}
    {offset : Nat} {layout : List SharedSegment × Nat}
    (done : addArrays count width arrays offset = some layout) :
    layout.1.map SharedSegment.length = arrays.map fun array => count array * width array := by
  induction arrays generalizing offset layout with
  | nil =>
    obtain rfl := Option.some.inj done
    rfl
  | cons array rest ih =>
    rw [addArrays, Option.bind_eq_some_iff] at done
    obtain ⟨bytes, product, done⟩ := done
    rw [Option.bind_eq_some_iff] at done
    obtain ⟨added, placed, done⟩ := done
    rw [Option.map_eq_some_iff] at done
    obtain ⟨later, found, rfl⟩ := done
    have exact_ : bytes = count array * width array := by
      unfold checkedMultiply at product
      split_ifs at product
      exact (Option.some.inj product).symm
    have length : added.1.length = bytes := by
      unfold sharedAddBytes at placed
      split_ifs at placed with empty
      · rw [← Option.some.inj placed, empty]
      · rw [Option.bind_eq_some_iff] at placed
        obtain ⟨aligned, -, placed⟩ := placed
        split_ifs at placed
        rw [← Option.some.inj placed]
    rw [List.map_cons, List.map_cons, ih found, length, exact_]

theorem SharedArray.mem_all (array : SharedArray) : array ∈ SharedArray.all := by
  cases array <;> decide

theorem buildSharedLayout_lengths {maxBytes : Nat} {page : SharedMeta}
    {records neighborValueCount payloadRefCount exactBytes : Nat}
    {expected : List SharedSegment × Nat}
    (built : buildSharedLayout maxBytes page records neighborValueCount payloadRefCount
      exactBytes = some expected) :
    expected.1.map SharedSegment.length = SharedArray.all.map fun array =>
      arrayCount page records neighborValueCount payloadRefCount array *
        arrayWidth page exactBytes array := by
  rw [buildSharedLayout, Option.bind_eq_some_iff] at built
  obtain ⟨layout, added, built⟩ := built
  rw [Option.bind_eq_some_iff] at built
  obtain ⟨fileSize, -, built⟩ := built
  split_ifs at built
  have lengths := addArrays_lengths added
  rw [← Option.some.inj built]
  exact lengths

theorem checkSlots_spec {file : Mapping} {hdr : SharedHeader} {counts offsets : Nat}
    {slots : List Nat} (inside : ∀ slot ∈ slots,
      offsets + 8 * slot + 8 ≤ file.size ∧ counts + 2 * slot + 2 ≤ file.size) :
    Yields (fun _ => False) (fun accepted => accepted = true → ∀ slot ∈ slots,
        file.word (offsets + 8 * slot) 8 + file.word (counts + 2 * slot) 2 ≤
          hdr.neighborValueCount)
      (checkSlots file hdr counts offsets slots) := by
  induction slots with
  | nil => exact fun _ slot member => absurd member List.not_mem_nil
  | cons slot rest ih =>
    obtain ⟨first, second⟩ := inside slot List.mem_cons_self
    rw [checkSlots]
    refine Yields.bind (read_yields first _) fun offset offset_ => ?_
    split_ifs with beyond
    · exact fun accepted => absurd accepted Bool.false_ne_true
    · refine Yields.bind (read_yields second _) fun count count_ => ?_
      split_ifs with long
      · exact fun accepted => absurd accepted Bool.false_ne_true
      · refine (ih fun other member => inside other (.tail _ member)).imp (fun _ => id) ?_
        intro accepted rest_ good other member
        rcases List.mem_cons.mp member with rfl | later
        · rw [← offset_, ← count_]
          omega
        · exact rest_ good other later

theorem checkRefs_spec {file : Mapping} {page : SharedMeta} {refs : Nat} {indices : List Nat}
    (inside : ∀ index ∈ indices, refs + 12 * index + 12 ≤ file.size) :
    Yields (fun _ => False) (fun accepted => accepted = true → ∀ index ∈ indices,
        file.word (refs + 12 * index + 8) 4 < page.tqNodeCount ∧
          int16 (file.word (refs + 12 * index) 2) < page.tqPayloadCount)
      (checkRefs file page refs indices) := by
  induction indices with
  | nil => exact fun _ index member => absurd member List.not_mem_nil
  | cons index rest ih =>
    have here := inside index List.mem_cons_self
    rw [checkRefs]
    refine Yields.bind (read_yields (by omega) _) fun nodeId nodeId_ => ?_
    split_ifs with beyond
    · exact fun accepted => absurd accepted Bool.false_ne_true
    · refine Yields.bind (read_yields (by omega) _) fun payloadSlot payloadSlot_ => ?_
      split_ifs with other
      · exact fun accepted => absurd accepted Bool.false_ne_true
      · refine (ih fun other member => inside other (.tail _ member)).imp (fun _ => id) ?_
        intro accepted rest_ good other_ member
        rcases List.mem_cons.mp member with rfl | later
        · rw [← nodeId_, ← payloadSlot_]
          exact ⟨Nat.not_le.mp beyond, not_le.mp other⟩
        · exact rest_ good other_ later

theorem SegmentsMatch.spec {file : Mapping} {hdr : SharedHeader} {expected : List SharedSegment}
    (match_ : SegmentsMatch file hdr expected) :
    (∀ array, SegmentFits file.size (hdr.segment array)) ∧
      ∀ array other, array ≠ other → ¬Overlap (hdr.segment array) (hdr.segment other) := by
  refine ⟨fun array => match_.1 _ (List.mem_map_of_mem array.mem_all), ?_⟩
  have apart := List.pairwise_map.mp match_.2.1
  have symmetric : Std.Symm fun array other : SharedArray =>
      ¬Overlap (hdr.segment other) (hdr.segment array) :=
    ⟨fun _ _ apart both => apart ⟨both.2.1, both.1, both.2.2.2, both.2.2.1⟩⟩
  intro array other different
  exact apart.forall other.mem_all array.mem_all different.symm

/-- The bytes from an address on lie in the segment of an array. -/
def InSegment (hdr : SharedHeader) (array : SharedArray) (address bytes : Nat) : Prop :=
  (hdr.segment array).offset ≤ address ∧
    address + bytes ≤ (hdr.segment array).offset + (hdr.segment array).length

theorem element_in_segment {page : SharedMeta} {file : Mapping} {hdr : SharedHeader}
    {array : SharedArray} (fits : SegmentFits file.size (hdr.segment array))
    (length : (hdr.segment array).length =
      arrayCount page hdr.adjRecordCount hdr.neighborValueCount hdr.payloadRefCount array *
        arrayWidth page hdr.exactBytes array) {index : Nat}
    (inside : index <
      arrayCount page hdr.adjRecordCount hdr.neighborValueCount hdr.payloadRefCount array)
    (width : 0 < arrayWidth page hdr.exactBytes array) :
    sharedCheckedPtr file (hdr.segment array) = some (hdr.segment array).offset ∧
      InSegment hdr array
        ((hdr.segment array).offset + arrayWidth page hdr.exactBytes array * index)
        (arrayWidth page hdr.exactBytes array) ∧
      (hdr.segment array).offset + arrayWidth page hdr.exactBytes array * index +
        arrayWidth page hdr.exactBytes array ≤ file.size := by
  have element := element_inside (arrayWidth page hdr.exactBytes array) inside
  rw [← length] at element
  have some_ : 0 < (hdr.segment array).length := by omega
  have whole := fits.inside some_
  refine ⟨?_, ⟨Nat.le_add_right _ _, by omega⟩, by omega⟩
  rw [checkedPtr_fits fits, if_neg some_.ne']

/-- **What the check establishes.** It reads nothing outside of the file. -/
theorem validateSharedLayout_spec (maxBytes : Nat) (page : SharedMeta) (file : Mapping) :
    Yields (fun fault => fault = .adjacencyTooLarge)
      (fun accepted => accepted = true → Accepted page file (sharedHeader file))
      (validateSharedLayout maxBytes page file) := by
  have rejected : (false : Bool) = true → Accepted page file (sharedHeader file) :=
    fun accepted => absurd accepted Bool.false_ne_true
  unfold validateSharedLayout
  dsimp only
  split_ifs with size
  · exact rejected
  · push Not at size
    have records_ : Yields (fun fault => fault = SharedFault.adjacencyTooLarge)
        (fun records => records = page.tqNodeCount * levelCapacity page.m)
        (adjRecordCount page) := by
      unfold adjRecordCount
      split_ifs
      · exact rfl
      · exact rfl
    refine Yields.bind records_ fun records count => ?_
    split_ifs with counts
    · exact rejected
    · push Not at counts
      cases built : buildSharedLayout maxBytes page records (sharedHeader file).neighborValueCount
        (sharedHeader file).payloadRefCount (sharedHeader file).exactBytes with
      | none => exact rejected
      | some expected =>
        dsimp only
        split_ifs with same
        · exact rejected
        · push Not at same
          obtain ⟨fits, apart⟩ := same.2.spec
          have lengths (array : SharedArray) : ((sharedHeader file).segment array).length =
              arrayCount page (sharedHeader file).adjRecordCount
                (sharedHeader file).neighborValueCount (sharedHeader file).payloadRefCount array *
                arrayWidth page (sharedHeader file).exactBytes array := by
            have all := buildSharedLayout_lengths built
            rw [← same.2.2.2, List.map_map, counts.1.symm] at all
            exact List.map_inj_left.mp all array array.mem_all
          have element (array : SharedArray) {index : Nat} :=
            @element_in_segment page file _ array (fits array) (lengths array) index
          have lists_ : Yields (fun _ => False) (fun accepted => accepted = true →
              ∀ slot < (sharedHeader file).adjRecordCount,
                file.word (((sharedHeader file).segment .neighborOffsets).offset + 8 * slot) 8 +
                  file.word (((sharedHeader file).segment .neighborCounts).offset + 2 * slot) 2 ≤
                    (sharedHeader file).neighborValueCount)
              (checkNeighbors file (sharedHeader file)) := by
            unfold checkNeighbors
            split_ifs with some_
            · rw [(element .neighborCounts some_ (Nat.succ_pos 1)).1,
                (element .neighborOffsets some_ (Nat.succ_pos 7)).1]
              refine (checkSlots_spec fun slot member => ?_).imp (fun _ => id) ?_
              · have inside := List.mem_range.mp member
                have first := (element .neighborOffsets inside (Nat.succ_pos 7)).2.2
                have second := (element .neighborCounts inside (Nat.succ_pos 1)).2.2
                exact ⟨first, second⟩
              · exact fun accepted all good slot inside =>
                  all good slot (List.mem_range.mpr inside)
            · exact fun _ slot inside => absurd (Nat.zero_lt_of_lt inside) some_
          have refs_ : Yields (fun _ => False) (fun accepted => accepted = true →
              ∀ index < (sharedHeader file).payloadRefCount,
                file.word (((sharedHeader file).segment .payloadRefs).offset + 12 * index + 8) 4 <
                    page.tqNodeCount ∧
                  int16 (file.word
                    (((sharedHeader file).segment .payloadRefs).offset + 12 * index) 2) <
                    page.tqPayloadCount)
              (checkPayloadRefs file page (sharedHeader file)) := by
            unfold checkPayloadRefs
            split_ifs with some_
            · rw [(element .payloadRefs some_ (Nat.succ_pos 11)).1]
              refine (checkRefs_spec fun index member => ?_).imp (fun _ => id) ?_
              · exact (element .payloadRefs (List.mem_range.mp member) (Nat.succ_pos 11)).2.2
              · exact fun accepted all good index inside =>
                  all good index (List.mem_range.mpr inside)
            · exact fun _ index inside => absurd (Nat.zero_lt_of_lt inside) some_
          refine Yields.bind (lists_.imp (fun _ => False.elim) fun _ => id) fun lists slots => ?_
          cases lists with
          | false => exact rejected
          | true =>
            refine refs_.imp (fun _ => False.elim) fun accepted refs good => ?_
            exact
              { header := size.2
                records := counts.1.trans count
                fits := fits
                apart := apart
                lengths := lengths
                slots := slots rfl
                refs := refs good }

/-! ### The accesses through a view -/

/-- The place of a list in the arrays over the slots, `PgturbohybridGraphScanAdjSlot`. -/
def scanAdjSlot (m nodeId level : Nat) : Nat := nodeId * levelCapacity m + level

def SharedNodeView.pointer (node : SharedNodeView) : SharedArray → Option Nat
  | .codeArena => node.code
  | .payloadArena => node.payloads
  | .residualArena => node.residualSketch
  | .exactArena => node.exactVector
  | _ => none

/-- **Every access through a view stays in its part of the file.** -/
structure ViewSafe (page : SharedMeta) (file : Mapping) (view : SharedView) : Prop where
  segments : ∀ array, 0 < ((sharedHeader file).segment array).length →
    headerSize ≤ ((sharedHeader file).segment array).offset ∧
      ((sharedHeader file).segment array).offset + ((sharedHeader file).segment array).length ≤
        file.size
  apart : ∀ array other, array ≠ other →
    ¬Overlap ((sharedHeader file).segment array) ((sharedHeader file).segment other)
  nodes : view.nodes.length = page.tqNodeCount
  pointers : ∀ (nodeId : Nat) (node : SharedNodeView), view.nodes[nodeId]? = some node →
    ∀ array address, node.pointer array = some address →
      InSegment (sharedHeader file) array address
        (arrayWidth page (sharedHeader file).exactBytes array)
  lists : ∀ nodeId < page.tqNodeCount, ∀ level < levelCapacity page.m,
    ∃ offset count, offset + count ≤ (sharedHeader file).neighborValueCount ∧
      (∀ i < count, InSegment (sharedHeader file) .neighborData
        (((sharedHeader file).segment .neighborData).offset + 4 * (offset + i)) 4) ∧
      viewNeighbors file view (scanAdjSlot page.m nodeId level) =
        .ok ((List.range count).map fun i =>
          file.word (((sharedHeader file).segment .neighborData).offset + 4 * (offset + i)) 4)
  refs : ∀ index < view.payloadRefCount,
    ∃ nodeId < page.tqNodeCount, viewPayloadRef file view index = .ok nodeId

/-- The pointer to the list of a slot in an accepted file. -/
def slotList (file : Mapping) (hdr : SharedHeader) (slot : Nat) : Option Nat :=
  if 0 < file.word ((hdr.segment .neighborCounts).offset + 2 * slot) 2 then
    some ((hdr.segment .neighborData).offset +
      4 * file.word ((hdr.segment .neighborOffsets).offset + 8 * slot) 8)
  else none

section Safe

variable {page : SharedMeta} {file : Mapping} (accepted : Accepted page file (sharedHeader file))
include accepted

theorem Accepted.element (array : SharedArray) (width : Nat) {index count : Nat}
    (counted : arrayCount page (sharedHeader file).adjRecordCount
      (sharedHeader file).neighborValueCount (sharedHeader file).payloadRefCount array = count)
    (wide : arrayWidth page (sharedHeader file).exactBytes array = width)
    (inside : index < count) (some_ : 0 < width) :
    sharedCheckedPtr file ((sharedHeader file).segment array) =
        some ((sharedHeader file).segment array).offset ∧
      InSegment (sharedHeader file) array
        (((sharedHeader file).segment array).offset + width * index) width ∧
      ((sharedHeader file).segment array).offset + width * index + width ≤ file.size := by
  subst counted wide
  exact element_in_segment (accepted.fits array) (accepted.lengths array) inside some_

theorem Accepted.nodeView {nodeId : Nat} (inside : nodeId < page.tqNodeCount) :
    Yields (fun fault => fault = SharedFault.viewTooLarge)
      (fun node => ∀ array address, node.pointer array = some address →
        InSegment (sharedHeader file) array address
          (arrayWidth page (sharedHeader file).exactBytes array))
      (sharedNodeView page file nodeId) := by
  obtain ⟨pointer, -, record⟩ := accepted.element .nodes 40 rfl rfl inside (Nat.succ_pos 39)
  unfold sharedNodeView
  dsimp only
  rw [pointer]
  refine Yields.bind (read_yields record _) fun value _ => ?_
  intro array address found
  have arena (loaded : Bool) (counted : arrayCount page (sharedHeader file).adjRecordCount
      (sharedHeader file).neighborValueCount (sharedHeader file).payloadRefCount array =
        page.tqNodeCount)
      (found : nodePointer loaded (sharedCheckedPtr file ((sharedHeader file).segment array))
        (arrayWidth page (sharedHeader file).exactBytes array) nodeId = some address) :
      InSegment (sharedHeader file) array address
        (arrayWidth page (sharedHeader file).exactBytes array) := by
    unfold nodePointer at found
    split_ifs at found with loaded
    obtain ⟨pointer, element, -⟩ := accepted.element array _ counted rfl inside loaded.2
    rw [pointer] at found
    rw [← Option.some.inj found, Nat.mul_comm]
    exact element
  cases array with
  | codeArena => exact arena _ rfl found
  | payloadArena => exact arena _ rfl found
  | residualArena => exact arena _ rfl found
  | exactArena => exact arena _ rfl found
  | nodes | neighborCounts | neighborOffsets | neighborData | payloadRefs => cases found

theorem Accepted.slot_inside {nodeId level : Nat} (inside : nodeId < page.tqNodeCount)
    (stored : level < levelCapacity page.m) :
    scanAdjSlot page.m nodeId level < (sharedHeader file).adjRecordCount := by
  have rows := element_inside (levelCapacity page.m) inside
  rw [accepted.records, scanAdjSlot, Nat.mul_comm nodeId]
  omega

theorem Accepted.slotView {slot : Nat} (inside : slot < (sharedHeader file).adjRecordCount) :
    Yields (fun fault => fault = SharedFault.viewTooLarge)
      (fun list => list = slotList file (sharedHeader file) slot) (sharedSlotView file slot) := by
  have counts := accepted.element .neighborCounts 2 rfl rfl inside (Nat.succ_pos 1)
  have offsets := accepted.element .neighborOffsets 8 rfl rfl inside (Nat.succ_pos 7)
  have room := accepted.slots slot inside
  unfold sharedSlotView slotList
  dsimp only
  rw [counts.1, offsets.1]
  refine Yields.bind (read_yields counts.2.2 _) fun length length_ => ?_
  rw [← length_] at room ⊢
  split_ifs with some_
  · have filled : 0 < (sharedHeader file).neighborValueCount := by omega
    have data := accepted.element .neighborData 4 rfl rfl filled (Nat.succ_pos 3)
    rw [data.1]
    refine Yields.bind (read_yields offsets.2.2 _) fun first first_ => ?_
    rw [← first_]
    exact rfl
  · exact rfl

theorem Accepted.lists {view : SharedView} {slot : Nat}
    (inside : slot < (sharedHeader file).adjRecordCount)
    (countsAt : view.neighborCounts = some ((sharedHeader file).segment .neighborCounts).offset)
    (list : view.neighbors.getD slot none = slotList file (sharedHeader file) slot) :
    ∃ offset count, offset + count ≤ (sharedHeader file).neighborValueCount ∧
      (∀ i < count, InSegment (sharedHeader file) .neighborData
        (((sharedHeader file).segment .neighborData).offset + 4 * (offset + i)) 4) ∧
      viewNeighbors file view slot =
        .ok ((List.range count).map fun i =>
          file.word (((sharedHeader file).segment .neighborData).offset + 4 * (offset + i)) 4) := by
  have counts := accepted.element .neighborCounts 2 rfl rfl inside (Nat.succ_pos 1)
  have room := accepted.slots slot inside
  have inData {i : Nat} (less : i < file.word
      (((sharedHeader file).segment .neighborCounts).offset + 2 * slot) 2) :
      file.word (((sharedHeader file).segment .neighborOffsets).offset + 8 * slot) 8 + i <
        (sharedHeader file).neighborValueCount := by omega
  refine ⟨_, _, room, fun i less => ?_, ?_⟩
  · exact (accepted.element .neighborData 4 rfl rfl (inData less) (Nat.succ_pos 3)).2.1
  · unfold viewNeighbors
    rw [countsAt]
    dsimp only
    rw [read_ok counts.2.2, list]
    refine mapM_ok fun i member => ?_
    have less := List.mem_range.mp member
    have id := accepted.element .neighborData 4 rfl rfl (inData less) (Nat.succ_pos 3)
    rw [slotList, if_pos (Nat.zero_lt_of_lt less)]
    dsimp only
    rw [Nat.add_assoc, ← Nat.mul_add]
    exact read_ok id.2.2

theorem Accepted.ref {view : SharedView} {index : Nat}
    (inside : index < (sharedHeader file).payloadRefCount)
    (refsAt : view.payloadRefs = some ((sharedHeader file).segment .payloadRefs).offset) :
    ∃ nodeId < page.tqNodeCount, viewPayloadRef file view index = .ok nodeId := by
  have record := (accepted.element .payloadRefs 12 rfl rfl inside (Nat.succ_pos 11)).2.2
  refine ⟨_, (accepted.refs index inside).1, ?_⟩
  unfold viewPayloadRef
  rw [refsAt]
  exact read_ok (by omega)

theorem Accepted.view :
    Yields (fun fault => fault = .viewTooLarge) (ViewSafe page file) (sharedBuildView page file) := by
  unfold sharedBuildView
  dsimp only
  split_ifs with large
  · exact rfl
  · refine Yields.bind (Yields.mapM fun nodeId member =>
      accepted.nodeView (List.mem_range.mp member)) fun nodes views => ?_
    have each (slot : Nat) (member : slot ∈ List.range (sharedHeader file).adjRecordCount) :
        Yields (fun fault => fault = SharedFault.viewTooLarge)
          (fun list => list = slotList file (sharedHeader file) slot) (sharedSlotView file slot) :=
      accepted.slotView (List.mem_range.mp member)
    refine Yields.bind (Yields.mapM each) fun neighbors lists => ?_
    have segments_ (array : SharedArray) (some_ : 0 < ((sharedHeader file).segment array).length) :
        headerSize ≤ ((sharedHeader file).segment array).offset ∧
          ((sharedHeader file).segment array).offset +
            ((sharedHeader file).segment array).length ≤ file.size :=
      ⟨((accepted.fits array).2 some_).2.1, (accepted.fits array).inside some_⟩
    refine Yields.ok ⟨segments_, accepted.apart, ?_, ?_, ?_, ?_⟩
    · rw [← views.length_eq, List.length_range]
    · intro nodeId node found
      obtain ⟨inside, same⟩ := List.getElem?_eq_some_iff.mp found
      have safe := views.get (views.length_eq.symm ▸ inside) inside
      rw [List.get_eq_getElem, same] at safe
      exact safe
    · intro nodeId inside level stored
      have slot := accepted.slot_inside inside stored
      have counts := accepted.element .neighborCounts 2 rfl rfl slot (Nat.succ_pos 1)
      refine accepted.lists slot counts.1 ?_
      have less : scanAdjSlot page.m nodeId level < neighbors.length := by
        rwa [← lists.length_eq, List.length_range]
      have list := lists.get (lists.length_eq ▸ less) less
      rw [List.get_eq_getElem, List.get_eq_getElem, List.getElem_range] at list
      rw [List.getD_eq_getElem?_getD, List.getElem?_eq_getElem less]
      exact list
    · intro index inside
      have refs := accepted.element .payloadRefs 12 rfl rfl inside (Nat.succ_pos 11)
      exact accepted.ref inside refs.1

end Safe

/-! ### Safety -/

theorem greedyBatch_spec (nodeCount : Nat) (codeLoads : Nat → Bool) (nodeLevel : Nat → Int)
    (level : Int) (neighbors : List Nat) :
    ∀ nodeId ∈ greedyBatch nodeCount codeLoads nodeLevel level neighbors, nodeId < nodeCount := by
  intro nodeId member
  have kept := (List.mem_filter.mp member).2
  rw [Bool.and_eq_true, Bool.and_eq_true] at kept
  exact of_decide_eq_true kept.1.1

/-- **Accepted files are safe.** For every file, the check reads inside of it; where it accepts,
building the view and each access of a search stay in their parts of the file, and of the ids in a
list the searches follow only those of nodes. -/
theorem sharedLayout_safe (maxBytes : Nat) (page : SharedMeta) (file : Mapping) :
    validateSharedLayout maxBytes page file ≠ .error .outOfBounds ∧
      (validateSharedLayout maxBytes page file = .ok true →
        Yields (fun fault => fault = .viewTooLarge) (ViewSafe page file)
          (sharedBuildView page file)) ∧
      ∀ (codeLoads : Nat → Bool) (visited neighbors : List Nat),
        (∀ nodeId ∈ ScanSearch.neighborBatch page.tqNodeCount codeLoads visited neighbors,
          nodeId < page.tqNodeCount) ∧
        ∀ (nodeLevel : Nat → Int) (level : Int),
          ∀ nodeId ∈ greedyBatch page.tqNodeCount codeLoads nodeLevel level neighbors,
            nodeId < page.tqNodeCount := by
  have checked := validateSharedLayout_spec maxBytes page file
  refine ⟨?_, ?_, ?_⟩
  · intro fault
    rw [fault] at checked
    cases checked
  · exact fun accepts => (checked.of_ok accepts rfl).view
  · intro codeLoads visited neighbors
    refine ⟨fun nodeId member => ?_, fun nodeLevel level => ?_⟩
    · exact ((ScanSearch.neighborBatch_spec _ _ _ _).2.2 nodeId member).1
    · exact greedyBatch_spec _ _ _ _ _

/-! ### A file with a stray id -/

def strayPage : SharedMeta where
  tqNodeCount := 1
  m := 2
  tqCodeBytes := 0
  tqPayloadCount := 0
  tqPayloadBytes := 0
  tqResidualRerankBytes := 0

/-- The bytes that are not zero: the sizes and segments of the header, a list of one id. -/
def strayBytes : List (Nat × UInt8) :=
  [(16, 216), (17, 1), (132, 9), (136, 1), (152, 72), (153, 1), (160, 40), (232, 112), (233, 1),
    (240, 18), (248, 136), (249, 1), (256, 72), (264, 208), (265, 1), (272, 4), (368, 1), (464, 7)]

def strayFile : Mapping where
  size := 472
  byte offset := ((strayBytes.find? fun entry => entry.1 == offset).map Prod.snd).getD 0

theorem sharedLayout_safe_stray :
    Yields (fun fault => fault = .viewTooLarge) (ViewSafe strayPage strayFile)
      (sharedBuildView strayPage strayFile) :=
  (sharedLayout_safe 1000000 strayPage strayFile).2.1 (by decide +kernel)

/-- The check accepts a list that names node 7 of a graph with one node. -/
theorem sharedLayout_stray :
    validateSharedLayout 1000000 strayPage strayFile = .ok true ∧
      (sharedBuildView strayPage strayFile >>= fun view =>
        viewNeighbors strayFile view (scanAdjSlot strayPage.m 0 0)) = .ok [7] ∧
      ¬7 < strayPage.tqNodeCount := by
  decide +kernel

end TurboHybrid.Graph.SharedLayout
