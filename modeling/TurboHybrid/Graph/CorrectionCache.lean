/-
**The correction sidecar and its cache.**

A build writes the shifts and the scales of the correction to tuples on a chain of pages. A load
reads them back, and keeps the arrays it read in a list of its backend with the file number and the
metapage fields they belong to; the search of this list drops the entries of other generations of
the index.

* `writeCorrectionPages_load`: a load of the pages that were written gives the arrays;
* `Coherent.step`: every entry belongs to a generation of its index, and an index has one at most;
* `correction_right`: both, and in every run a load returns what the pages of the index hold.
-/
import TurboHybrid.Library.PageChain
import TurboHybrid.Library.Transition
import Mathlib.Algebra.GroupWithZero.Nat
import Mathlib.Data.Finset.Card
import Mathlib.Data.Finset.Range
import Mathlib.Order.Interval.Finset.Nat

namespace TurboHybrid.Graph.CorrectionCache

open TurboHybrid.Library

variable {V : Type}

/-! ### Tuples and pages -/

inductive PageKind
  | quantCorrection
  | other
  deriving DecidableEq, Repr

/-- `PgturbohybridGraphCorrectionTupleData`; field 0 are shifts, field 1 are scales. -/
structure CorrectionTuple (V : Type) where
  type : Nat
  field : Nat
  count : Nat
  startDim : Nat
  values : Nat → V

abbrev CorrectionPage (V : Type) := Page PageKind (CorrectionTuple V)

def correctionTupleType : Nat := 0x54

def maxAlign (size : Nat) : Nat := (size + 7) / 8 * 8

def correctionTupleSize (count : Nat) : Nat := maxAlign (8 + 4 * count)

/-- A page without its header, its special space and one line pointer. -/
def usableSpace : Nat := 8192 - maxAlign 24 - maxAlign 8 - 4

/-- The largest count up to a given one whose tuple fits, at least one. -/
def fittingCount : Nat → Nat
  | 0 => 1
  | count + 1 =>
    if 0 < count ∧ usableSpace < correctionTupleSize (count + 1) then fittingCount count
    else count + 1

def correctionTupleMaxCount : Nat := fittingCount ((usableSpace - 8) / 4)

/-- `PageGetFreeSpace`. -/
def pageGetFreeSpace (items : List (CorrectionTuple V)) : Nat :=
  usableSpace - 4 * items.length - (items.map fun item => correctionTupleSize item.count).sum

/-! ### Writing -/

/-- The relation, the page that is written to and the first page. -/
structure CorrectionWriter (V : Type) where
  pages : List (CorrectionPage V)
  buf : Option Nat
  start : Option Nat

/-- `PgturbohybridGraphAppendPage`. -/
def appendPage (writer : CorrectionWriter V) : CorrectionWriter V :=
  let linked := match writer.buf with
    | none => writer.pages
    | some buf =>
      writer.pages.modify buf fun page => { page with next := some writer.pages.length }
  { pages := linked ++ [emptyPage .quantCorrection]
    buf := some writer.pages.length
    start := if writer.start.isSome then writer.start else some writer.pages.length }

/-- The test for room on the page that is written to. -/
def hasRoom (writer : CorrectionWriter V) (tupleSize : Nat) : Bool :=
  match writer.buf.bind (writer.pages[·]?) with
  | none => false
  | some page => decide (tupleSize ≤ pageGetFreeSpace page.items)

def writeTuple (writer : CorrectionWriter V) (tuple : CorrectionTuple V) :
    Option (CorrectionWriter V) :=
  let tupleSize := correctionTupleSize tuple.count
  let writer := if hasRoom writer tupleSize then writer else appendPage writer
  match writer.buf with
  | none => none
  | some buf =>
    if hasRoom writer tupleSize then
      some { writer with pages := writer.pages.modify buf fun page =>
        { page with items := page.items ++ [tuple] } }
    else none

def correctionTuple (dimensions : Nat) (arrays : Nat → Nat → V) (field startDim : Nat) :
    CorrectionTuple V where
  type := correctionTupleType
  field := field
  count := min correctionTupleMaxCount (dimensions - startDim)
  startDim := startDim
  values dim := arrays field (startDim + dim)

/-- The tuples in the order of the two loops; the dimension goes up by the largest count. -/
def correctionTuples (dimensions : Nat) (arrays : Nat → Nat → V) : List (CorrectionTuple V) :=
  (List.range 2).flatMap fun field =>
    (List.range' 0 ((dimensions + correctionTupleMaxCount - 1) / correctionTupleMaxCount)
      correctionTupleMaxCount).map (correctionTuple dimensions arrays field)

/-- `PgturbohybridGraphWriteCorrectionPages`: the relation and the start block, or an error. The
arrays are the shifts and the scales, where the build has them. -/
def writeCorrectionPages (nodeCount dimensions : Nat) (arrays : Option (Nat → Nat → V))
    (pages : List (CorrectionPage V)) : Option (List (CorrectionPage V) × Option Nat) :=
  if nodeCount = 0 ∨ dimensions = 0 then some (pages, none)
  else
    match arrays with
    | none => some (pages, none)
    | some arrays =>
      ((correctionTuples dimensions arrays).foldlM writeTuple ⟨pages, none, none⟩).map
        fun writer => (writer.pages, writer.start)

/-! ### Loading -/

/-- One array with the dimensions seen and their number missing. -/
structure LoadSide (V : Type) where
  values : Nat → V
  seen : Nat → Bool
  missing : Int

def LoadSide.mark (side : LoadSide V) (offset : Nat) : LoadSide V :=
  if side.seen offset then side
  else
    { side with
      seen := Function.update side.seen offset true
      missing := side.missing - 1 }

def LoadSide.copy (side : LoadSide V) (tuple : CorrectionTuple V) : LoadSide V :=
  (List.range tuple.count).foldl (fun side dim => side.mark (tuple.startDim + dim))
    { side with
      values := fun offset =>
        if tuple.startDim ≤ offset ∧ offset < tuple.startDim + tuple.count then
          tuple.values (offset - tuple.startDim)
        else side.values offset }

/-- One item of a page; the sides are by the number of the field. -/
def readTuple (dimensions : Nat) (sides : Nat → LoadSide V) (tuple : CorrectionTuple V) :
    Nat → LoadSide V :=
  if tuple.type ≠ correctionTupleType ∨ (tuple.field ≠ 0 ∧ tuple.field ≠ 1) then sides
  else if tuple.count = 0 ∨ dimensions ≤ tuple.startDim ∨
      dimensions - tuple.startDim < tuple.count then sides
  else Function.update sides tuple.field ((sides tuple.field).copy tuple)

/-- The walk over the chain of pages, of at most as many pages as the relation has. -/
def readPages (dimensions : Nat) (pages : List (CorrectionPage V)) :
    Nat → Option Nat → (Nat → LoadSide V) → Option (Nat → Nat → V)
  | 0, _, _ => none
  | _ + 1, none, _ => none
  | hops + 1, some blkno, sides =>
    match pages[blkno]? with
    | none => none
    | some page =>
      if page.kind ≠ some .quantCorrection then none
      else
        let sides := page.items.foldl (readTuple dimensions) sides
        if (sides 0).missing = 0 ∧ (sides 1).missing = 0 then
          some fun field => (sides field).values
        else readPages dimensions pages hops page.next sides

/-- The fields of the metapage that a load reads. -/
structure CorrectionMeta where
  dimensions : Nat
  tqFlags : Nat
  tqCorrectionStartBlkno : Option Nat
  deriving DecidableEq, Repr

def tqPlus : Nat := 1

/-- An index as a build left it: its file number, its metapage where it is readable, its pages. -/
structure Generation (V : Type) where
  relfilenumber : Nat
  meta' : Option CorrectionMeta
  pages : List (CorrectionPage V)

/-- The metapage, where the load goes on to the correction. -/
def Generation.usable (generation : Generation V) (dimensions : Nat) : Option CorrectionMeta :=
  generation.meta'.filter fun meta' =>
    decide (meta'.tqFlags &&& tqPlus ≠ 0 ∧ meta'.dimensions = dimensions ∧
      meta'.tqCorrectionStartBlkno.isSome)

def Generation.read (zero : V) (generation : Generation V) (meta' : CorrectionMeta) :
    Option (Nat → Nat → V) :=
  readPages meta'.dimensions generation.pages generation.pages.length
    meta'.tqCorrectionStartBlkno fun _ => ⟨fun _ => zero, fun _ => false, meta'.dimensions⟩

def Generation.load (zero : V) (generation : Generation V) (dimensions : Nat) :
    Option (Nat → Nat → V) :=
  (generation.usable dimensions).bind (generation.read zero)

/-! ### The cache -/

structure CacheEntry (V : Type) where
  relid : Nat
  relfilenumber : Nat
  meta' : CorrectionMeta
  arrays : Nat → Nat → V

def CacheEntry.matches' (entry : CacheEntry V) (relfilenumber : Nat) (meta' : CorrectionMeta) :
    Bool :=
  decide (entry.relfilenumber = relfilenumber ∧ entry.meta' = meta')

/-- The search of the list, which drops what it finds of other generations. -/
def searchCache (relid relfilenumber : Nat) (meta' : CorrectionMeta) :
    List (CacheEntry V) → List (CacheEntry V) × Option (Nat → Nat → V)
  | [] => ([], none)
  | entry :: rest =>
    if entry.relid ≠ relid then
      let (kept, found) := searchCache relid relfilenumber meta' rest
      (entry :: kept, found)
    else if entry.matches' relfilenumber meta' then (entry :: rest, some entry.arrays)
    else searchCache relid relfilenumber meta' rest

/-- `PgturbohybridGraphLoadCorrection`: the list and the arrays. -/
def loadCorrection (zero : V) (cache : List (CacheEntry V)) (relid : Nat)
    (generation : Generation V) (dimensions : Nat) :
    List (CacheEntry V) × Option (Nat → Nat → V) :=
  match generation.usable dimensions with
  | none => (cache, none)
  | some meta' =>
    match searchCache relid generation.relfilenumber meta' cache with
    | (kept, some arrays) => (kept, some arrays)
    | (kept, none) =>
      match generation.read zero meta' with
      | none => (kept, none)
      | some arrays => (⟨relid, generation.relfilenumber, meta', arrays⟩ :: kept, some arrays)

/-- `PgturbohybridGraphInvalidateCorrectionCache`. -/
def invalidateCorrectionCache (cache : List (CacheEntry V)) (relid : Nat) :
    List (CacheEntry V) :=
  cache.filter fun entry => entry.relid ≠ relid

/-! ### Runs of a backend -/

/-- The cache, and of every index its generations, the newest first. -/
structure Backend (V : Type) where
  history : Nat → List (Generation V)
  cache : List (CacheEntry V)

inductive Action (V : Type)
  | load (relid dimensions : Nat)
  | invalidate (relid : Nat)
  | rebuild (relid : Nat) (generation : Generation V)

def Backend.step (zero : V) (state : Backend V) : Action V → Option (Backend V)
  | .load relid dimensions =>
    (state.history relid).head?.map fun generation =>
      { state with cache := (loadCorrection zero state.cache relid generation dimensions).1 }
  | .invalidate relid =>
    some { state with cache := invalidateCorrectionCache state.cache relid }
  | .rebuild relid generation =>
    -- A build gives the index a file number or metapage fields that it did not have before.
    if ∀ old ∈ state.history relid,
        (old.relfilenumber, old.meta') ≠ (generation.relfilenumber, generation.meta') then
      some { state with
        history := Function.update state.history relid (generation :: state.history relid) }
    else none

def noBackend : Backend V := ⟨fun _ => [], []⟩

/-! ### Sizes -/

theorem correctionTupleMaxCount_eq : correctionTupleMaxCount = 2036 := by decide +kernel

theorem correctionTuple_fits {dimensions : Nat} {arrays : Nat → Nat → V} {field startDim : Nat} :
    correctionTupleSize (correctionTuple dimensions arrays field startDim).count ≤
      pageGetFreeSpace ([] : List (CorrectionTuple V)) := by
  have count : (correctionTuple dimensions arrays field startDim).count ≤ 2036 :=
    (min_le_left _ _).trans correctionTupleMaxCount_eq.le
  rw [pageGetFreeSpace, List.length_nil, List.map_nil, List.sum_nil]
  simp only [correctionTupleSize, maxAlign, usableSpace]
  omega

/-! ### The pages written -/

/-- A writer that has put some tuples on a chain of its own. -/
structure Written (items : List (CorrectionTuple V)) (writer : CorrectionWriter V) : Prop where
  empty : writer.buf = none → items = [] ∧ writer.start = none
  chain : ∀ buf, writer.buf = some buf → ∃ blocks,
    IsChain .quantCorrection writer.pages writer.start (blocks ++ [buf]) ∧
      blockItems writer.pages (blocks ++ [buf]) = items

theorem appendPage_written {items : List (CorrectionTuple V)} {writer : CorrectionWriter V}
    (written : Written items writer) : Written items (appendPage writer) ∧
      hasRoom (appendPage writer) = fun size =>
        decide (size ≤ pageGetFreeSpace ([] : List (CorrectionTuple V))) := by
  have last (linked : List (CorrectionPage V)) (length : linked.length = writer.pages.length) :
      (linked ++ [(⟨some .quantCorrection, [], none⟩ : CorrectionPage V)])[writer.pages.length]? =
        some ⟨some .quantCorrection, [], none⟩ := by
    rw [← length, List.getElem?_concat_length]
  rcases buf : writer.buf with _ | tail
  · obtain ⟨rfl, start⟩ := written.empty buf
    refine ⟨⟨fun absent => ?_, fun block named => ⟨[], ?_, ?_⟩⟩, ?_⟩
    · cases absent
    · obtain rfl := Option.some.inj named
      rw [appendPage, buf, start]
      exact ⟨rfl, _, last _ rfl, rfl, rfl⟩
    · obtain rfl := Option.some.inj named
      rw [appendPage, buf]
      exact blockItems_single (last _ rfl)
    · funext size
      rw [hasRoom, appendPage, buf, Option.bind_some]
      dsimp only [emptyPage]
      rw [last _ rfl]
  · obtain ⟨blocks, chain, items_⟩ := written.chain tail buf
    obtain ⟨page, there, kinded, ended⟩ := chain.tail_page
    have linked : writer.pages.modify tail (fun page =>
        { page with next := some writer.pages.length }) =
          writer.pages.set tail { page with next := some writer.pages.length } := by
      rw [List.modify_eq_set_getElem?, there]
      rfl
    have started : writer.start.isSome = true := by
      rw [chain.start_eq]
      cases blocks <;> rfl
    have after : appendPage writer = ⟨writer.pages.set tail
        { page with next := some writer.pages.length } ++ [⟨some .quantCorrection, [], none⟩],
          some writer.pages.length, writer.start⟩ := by
      rw [appendPage, buf]
      dsimp only
      rw [linked, if_pos started]
      rfl
    obtain ⟨chained, same⟩ := chain.addPage there kinded []
    rw [after]
    refine ⟨⟨fun absent => ?_, fun block named => ⟨blocks ++ [tail], ?_, ?_⟩⟩, ?_⟩
    · cases absent
    · obtain rfl := Option.some.inj named
      exact chained
    · obtain rfl := Option.some.inj named
      rw [same, items_, List.append_nil]
    · funext size
      rw [hasRoom, Option.bind_some]
      dsimp only
      rw [last _ List.length_set]

theorem writeTuple_written {items : List (CorrectionTuple V)} {writer : CorrectionWriter V}
    (written : Written items writer) {tuple : CorrectionTuple V}
    (fits : correctionTupleSize tuple.count ≤ pageGetFreeSpace ([] : List (CorrectionTuple V))) :
    ∃ next, writeTuple writer tuple = some next ∧ Written (items ++ [tuple]) next ∧
      next.buf.isSome := by
  set ready := if hasRoom writer (correctionTupleSize tuple.count) then writer
    else appendPage writer with readyOf
  obtain ⟨held, room⟩ : Written items ready ∧
      hasRoom ready (correctionTupleSize tuple.count) = true := by
    rw [readyOf]
    split_ifs with enough
    · exact ⟨written, enough⟩
    · obtain ⟨after, fresh⟩ := appendPage_written written
      refine ⟨after, ?_⟩
      rw [fresh]
      exact decide_eq_true fits
  rcases buf : ready.buf with _ | tail
  · rw [hasRoom, buf] at room
    cases room
  · obtain ⟨blocks, chain, items_⟩ := held.chain tail buf
    obtain ⟨page, there, kinded, ended⟩ := chain.tail_page
    have put : ready.pages.modify tail (fun page =>
        { page with items := page.items ++ [tuple] }) =
          ready.pages.set tail { page with items := page.items ++ [tuple] } := by
      rw [List.modify_eq_set_getElem?, there]
      rfl
    obtain ⟨chained, added⟩ := @IsChain.addItem _ _ _ _ _ _ tuple _ _ _ chain there kinded ended
    set changed := ready.pages.set tail { page with items := page.items ++ [tuple] }
    refine ⟨⟨changed, ready.buf, ready.start⟩, ?_, ⟨fun absent => ?_, fun block named => ?_⟩, ?_⟩
    · rw [writeTuple, ← readyOf, buf]
      exact (if_pos room).trans (by rw [put])
    · exact absurd (buf.symm.trans absent) (Option.some_ne_none _)
    · obtain rfl := Option.some.inj (buf.symm.trans named)
      exact ⟨blocks, chained, added.trans (by rw [items_])⟩
    · exact Option.isSome_of_eq_some buf

theorem writeTuples_written {tuples : List (CorrectionTuple V)}
    (fit : ∀ tuple ∈ tuples, correctionTupleSize tuple.count ≤
      pageGetFreeSpace ([] : List (CorrectionTuple V)))
    {items : List (CorrectionTuple V)} {writer : CorrectionWriter V}
    (written : Written items writer) :
    ∃ final, tuples.foldlM writeTuple writer = some final ∧ Written (items ++ tuples) final := by
  induction tuples generalizing items writer with
  | nil => exact ⟨writer, rfl, by rwa [List.append_nil]⟩
  | cons tuple rest ih =>
    obtain ⟨next, stepped, held, -⟩ := writeTuple_written written (fit tuple List.mem_cons_self)
    obtain ⟨final, ran, all⟩ := ih (fun other member => fit other (.tail _ member)) held
    refine ⟨final, ?_, by rwa [List.append_assoc] at all⟩
    rw [List.foldlM_cons, stepped]
    exact ran

/-! ### The pages read -/

section Load

variable (dimensions : Nat) (arrays : Nat → Nat → V)

structure IsPart (tuple : CorrectionTuple V) : Prop where
  type : tuple.type = correctionTupleType
  field : tuple.field < 2
  positive : 0 < tuple.count
  bounded : tuple.startDim + tuple.count ≤ dimensions
  values : ∀ dim < tuple.count, tuple.values dim = arrays tuple.field (tuple.startDim + dim)

def unseen (side : LoadSide V) : Finset Nat :=
  (Finset.range dimensions).filter fun offset => side.seen offset = false

/-- What is seen is right, and what is missing is counted. -/
structure SideRight (field : Nat) (side : LoadSide V) : Prop where
  values : ∀ offset, side.seen offset = true → side.values offset = arrays field offset
  missing : side.missing = (unseen dimensions side).card

variable {dimensions arrays}

theorem mark_right {field : Nat} {side : LoadSide V}
    (right : SideRight dimensions arrays field side) {offset : Nat} (inside : offset < dimensions)
    (value : side.values offset = arrays field offset) :
    SideRight dimensions arrays field (side.mark offset) ∧
      (side.mark offset).values = side.values ∧
      ∀ other, (side.mark offset).seen other = true ↔ side.seen other = true ∨ other = offset := by
  rw [LoadSide.mark]
  split_ifs with known
  · refine ⟨right, rfl, fun other => ⟨.inl, fun either => either.elim id ?_⟩⟩
    rintro rfl
    exact known
  · have marked (other : Nat) : Function.update side.seen offset true other = true ↔
        side.seen other = true ∨ other = offset := by
      rcases eq_or_ne other offset with rfl | different
      · rw [Function.update_self]
        exact iff_of_true rfl (.inr rfl)
      · rw [Function.update_of_ne different]
        exact (or_iff_left different).symm
    refine ⟨⟨fun other seen => ?_, ?_⟩, rfl, marked⟩
    · rcases (marked other).mp seen with before | rfl
      · exact right.values other before
      · exact value
    · have here : offset ∈ unseen dimensions side :=
        Finset.mem_filter.mpr ⟨Finset.mem_range.mpr inside, Bool.eq_false_iff.mpr known⟩
      have less : unseen dimensions { side with
          seen := Function.update side.seen offset true
          missing := side.missing - 1 } = (unseen dimensions side).erase offset := by
        ext other
        simp only [unseen, Finset.mem_filter, Finset.mem_erase, Finset.mem_range,
          ← Bool.not_eq_true, marked]
        tauto
      have some_ := Finset.card_pos.mpr ⟨_, here⟩
      have counted := right.missing
      rw [less, Finset.card_erase_of_mem here]
      dsimp only
      omega

/-- **A tuple that is copied** marks its dimensions. -/
theorem copy_right {side : LoadSide V} {tuple : CorrectionTuple V}
    (part : IsPart dimensions arrays tuple)
    (right : SideRight dimensions arrays tuple.field side) :
    SideRight dimensions arrays tuple.field (side.copy tuple) ∧
      ∀ offset, (side.copy tuple).seen offset = true ↔
        side.seen offset = true ∨
          (tuple.startDim ≤ offset ∧ offset < tuple.startDim + tuple.count) := by
  rw [LoadSide.copy]
  set start : LoadSide V := { side with
    values := fun offset =>
      if tuple.startDim ≤ offset ∧ offset < tuple.startDim + tuple.count then
        tuple.values (offset - tuple.startDim)
      else side.values offset } with startOf
  have copied (offset : Nat) (inside : tuple.startDim ≤ offset ∧
      offset < tuple.startDim + tuple.count) :
        start.values offset = arrays tuple.field offset := by
    rw [startOf]
    dsimp only
    rw [if_pos inside, part.values _ (by omega), Nat.add_sub_cancel' inside.1]
  have begun : SideRight dimensions arrays tuple.field start := by
    refine ⟨fun offset seen => ?_, right.missing⟩
    by_cases inside : tuple.startDim ≤ offset ∧ offset < tuple.startDim + tuple.count
    · exact copied offset inside
    · exact (if_neg inside).trans (right.values offset seen)
  have run (count : Nat) (most : count ≤ tuple.count) :
      SideRight dimensions arrays tuple.field ((List.range count).foldl
        (fun side dim => side.mark (tuple.startDim + dim)) start) ∧
      ((List.range count).foldl (fun side dim => side.mark (tuple.startDim + dim)) start).values =
        start.values ∧
      ∀ offset, ((List.range count).foldl
        (fun side dim => side.mark (tuple.startDim + dim)) start).seen offset = true ↔
          side.seen offset = true ∨
            (tuple.startDim ≤ offset ∧ offset < tuple.startDim + count) := by
    induction count with
    | zero => exact ⟨begun, rfl, fun offset => by simp [startOf]⟩
    | succ count ih =>
      obtain ⟨held, same, seen⟩ := ih (by omega)
      rw [List.range_succ, List.foldl_append, List.foldl_cons, List.foldl_nil]
      have bounded := part.bounded
      obtain ⟨held', same', seen'⟩ := @mark_right _ _ _ _ _ held (tuple.startDim + count)
        (by omega) (by rw [same]; exact copied _ (by omega))
      refine ⟨held', same'.trans same, fun offset => ?_⟩
      rw [seen', seen, or_assoc]
      refine or_congr_right ?_
      omega
  obtain ⟨held, -, seen⟩ := run tuple.count le_rfl
  exact ⟨held, seen⟩

def Right (dimensions : Nat) (arrays : Nat → Nat → V) (sides : Nat → LoadSide V) : Prop :=
  ∀ field, SideRight dimensions arrays field (sides field)

theorem readTuple_right {sides : Nat → LoadSide V} (right : Right dimensions arrays sides)
    {tuple : CorrectionTuple V} (part : IsPart dimensions arrays tuple) :
    Right dimensions arrays (readTuple dimensions sides tuple) ∧
      ∀ field offset, (readTuple dimensions sides tuple field).seen offset = true ↔
        (sides field).seen offset = true ∨ (tuple.field = field ∧
          tuple.startDim ≤ offset ∧ offset < tuple.startDim + tuple.count) := by
  have known := part.field
  have positive := part.positive
  have bounded := part.bounded
  rw [readTuple, if_neg (by rw [part.type]; omega), if_neg (by omega)]
  obtain ⟨held, seen⟩ := copy_right part (right tuple.field)
  refine ⟨fun field => ?_, fun field offset => ?_⟩
  · rcases eq_or_ne field tuple.field with rfl | other
    · rwa [Function.update_self]
    · rw [Function.update_of_ne other]
      exact right field
  · rcases eq_or_ne field tuple.field with rfl | other
    · rw [Function.update_self, seen]
      exact or_congr_right (and_iff_right rfl).symm
    · rw [Function.update_of_ne other]
      exact (or_iff_left fun covered => other covered.1.symm).symm

theorem readTuples_right {tuples : List (CorrectionTuple V)}
    (parts : ∀ tuple ∈ tuples, IsPart dimensions arrays tuple) {sides : Nat → LoadSide V}
    (right : Right dimensions arrays sides) :
    Right dimensions arrays (tuples.foldl (readTuple dimensions) sides) ∧
      ∀ field offset, (tuples.foldl (readTuple dimensions) sides field).seen offset = true ↔
        (sides field).seen offset = true ∨ ∃ tuple ∈ tuples, tuple.field = field ∧
          tuple.startDim ≤ offset ∧ offset < tuple.startDim + tuple.count := by
  induction tuples generalizing sides with
  | nil => exact ⟨right, fun field offset => (or_iff_left (by simp)).symm⟩
  | cons tuple rest ih =>
    obtain ⟨held, seen⟩ := readTuple_right right (parts tuple List.mem_cons_self)
    obtain ⟨all, covered⟩ := ih (fun other member => parts other (.tail _ member)) held
    refine ⟨all, fun field offset => ?_⟩
    rw [List.foldl_cons, covered, seen, or_assoc, List.exists_mem_cons_iff]

theorem Right.missing_iff {sides : Nat → LoadSide V} (right : Right dimensions arrays sides)
    (field : Nat) : (sides field).missing = 0 ↔
      ∀ offset < dimensions, (sides field).seen offset = true := by
  rw [(right field).missing, Int.natCast_eq_zero, Finset.card_eq_zero, unseen,
    Finset.filter_eq_empty_iff]
  simp only [Finset.mem_range, Bool.not_eq_false]

/-- **The walk over a chain** of parts that cover the arrays gives the arrays. -/
theorem readPages_chain {pages : List (CorrectionPage V)} {start : Option Nat} {blocks : List Nat}
    (chain : IsChain .quantCorrection pages start blocks)
    (parts : ∀ tuple ∈ blockItems pages blocks, IsPart dimensions arrays tuple) {hops : Nat}
    (enough : blocks.length ≤ hops) {sides : Nat → LoadSide V}
    (right : Right dimensions arrays sides)
    (some_ : ¬((sides 0).missing = 0 ∧ (sides 1).missing = 0))
    (all : ∀ field < 2, ∀ offset < dimensions,
      ((blockItems pages blocks).foldl (readTuple dimensions) sides field).seen offset = true) :
    ∃ loaded, readPages dimensions pages hops start sides = some loaded ∧
      ∀ field < 2, ∀ offset < dimensions, loaded field offset = arrays field offset := by
  induction blocks generalizing start hops sides with
  | nil =>
    exact absurd ⟨(right.missing_iff 0).mpr (all 0 (by decide)),
      (right.missing_iff 1).mpr (all 1 (by decide))⟩ some_
  | cons block rest ih =>
    obtain ⟨rfl, page, there, kinded, later⟩ := chain
    obtain ⟨hops, rfl⟩ : ∃ less, hops = less + 1 := ⟨hops - 1, by simp at enough; omega⟩
    have split : blockItems pages (block :: rest) = page.items ++ blockItems pages rest := by
      rw [← List.singleton_append, blockItems_append, blockItems_single there]
    rw [split] at parts all
    have held := (readTuples_right (fun tuple member =>
      parts tuple (List.mem_append_left _ member)) right).1
    rw [readPages, there]
    dsimp only
    rw [if_neg (not_not.mpr kinded)]
    split_ifs with complete
    · refine ⟨_, rfl, fun field known offset inside => ?_⟩
      have seen : (page.items.foldl (readTuple dimensions) sides field).missing = 0 := by
        obtain rfl | rfl : field = 0 ∨ field = 1 := by omega
        · exact complete.1
        · exact complete.2
      exact (held field).values offset ((held.missing_iff field).mp seen offset inside)
    · rw [List.foldl_append] at all
      exact ih later (fun tuple member => parts tuple (List.mem_append_right _ member))
        (by simpa using enough) held complete all

end Load

/-! ### The round trip -/

theorem mem_correctionTuples {dimensions : Nat} {arrays : Nat → Nat → V}
    {tuple : CorrectionTuple V} : tuple ∈ correctionTuples dimensions arrays ↔
      ∃ field < 2, ∃ round, correctionTupleMaxCount * round < dimensions ∧
        correctionTuple dimensions arrays field (correctionTupleMaxCount * round) = tuple := by
  simp only [correctionTuples, List.mem_flatMap, List.mem_range, List.mem_map, List.mem_range',
    Nat.zero_add, correctionTupleMaxCount_eq]
  refine exists_congr fun field => and_congr_right fun _ => ⟨?_, ?_⟩
  · rintro ⟨_, ⟨round, bound, rfl⟩, same⟩
    exact ⟨round, by omega, same⟩
  · rintro ⟨round, bound, same⟩
    exact ⟨_, ⟨round, by omega, rfl⟩, same⟩

theorem isPart_correctionTuples {dimensions : Nat} {arrays : Nat → Nat → V} :
    ∀ tuple ∈ correctionTuples dimensions arrays, IsPart dimensions arrays tuple := by
  intro tuple member
  obtain ⟨field, known, round, inside, rfl⟩ := mem_correctionTuples.mp member
  have most := correctionTupleMaxCount_eq
  refine ⟨rfl, known, ?_, ?_, fun _ _ => rfl⟩
  · show 0 < min _ _
    omega
  · show correctionTupleMaxCount * round + min _ _ ≤ dimensions
    omega

theorem correctionTuples_cover {dimensions : Nat} (arrays : Nat → Nat → V) {field offset : Nat}
    (known : field < 2) (inside : offset < dimensions) :
    ∃ tuple ∈ correctionTuples dimensions arrays, tuple.field = field ∧
      tuple.startDim ≤ offset ∧ offset < tuple.startDim + tuple.count := by
  have most := correctionTupleMaxCount_eq
  have below := Nat.mul_div_le offset correctionTupleMaxCount
  have above := Nat.lt_mul_div_succ offset (b := correctionTupleMaxCount) (by omega)
  refine ⟨_, mem_correctionTuples.mpr ⟨field, known, offset / correctionTupleMaxCount,
    by omega, rfl⟩, rfl, below, ?_⟩
  show offset < correctionTupleMaxCount * (offset / correctionTupleMaxCount) + min _ _
  rw [Nat.mul_add_one] at above
  omega

/-- **A load of the pages that were written** gives the arrays, whatever follows in the relation. -/
theorem writeCorrectionPages_load (zero : V) {nodeCount dimensions : Nat} (nodes : 0 < nodeCount)
    (some_ : 0 < dimensions) (arrays : Nat → Nat → V) (pages : List (CorrectionPage V)) :
    ∃ written start, writeCorrectionPages nodeCount dimensions (some arrays) pages =
        some (written, some start) ∧
      ∀ relfilenumber tqFlags later, tqFlags &&& tqPlus ≠ 0 → ∃ loaded,
        Generation.load zero
          ⟨relfilenumber, some ⟨dimensions, tqFlags, some start⟩, written ++ later⟩ dimensions =
            some loaded ∧
        ∀ field < 2, ∀ offset < dimensions, loaded field offset = arrays field offset := by
  obtain ⟨final, ran, held⟩ := @writeTuples_written V (correctionTuples dimensions arrays)
    (fun tuple member => by
      obtain ⟨field, -, round, -, rfl⟩ := mem_correctionTuples.mp member
      exact correctionTuple_fits) [] ⟨pages, none, none⟩
    (⟨fun _ => ⟨rfl, rfl⟩, fun _ named => absurd named.symm (Option.some_ne_none _)⟩ :
      Written [] ⟨pages, none, none⟩)
  rw [List.nil_append] at held
  obtain ⟨first, member, -⟩ := correctionTuples_cover arrays (show 0 < 2 by decide) some_
  rcases buf : final.buf with _ | tail
  · rw [(held.empty buf).1] at member
    cases member
  · obtain ⟨blocks, chain, items⟩ := held.chain tail buf
    obtain ⟨start, started⟩ : ∃ start, final.start = some start := by
      rw [chain.start_eq]
      cases blocks <;> exact ⟨_, rfl⟩
    rw [started] at chain
    refine ⟨final.pages, start, ?_, fun relfilenumber tqFlags later plus => ?_⟩
    · rw [writeCorrectionPages, if_neg (by omega), ran, Option.map_some, started]
    · obtain ⟨chained, same⟩ := chain.frame (append_keptOutside [] later)
        (List.disjoint_nil_right _)
      rw [items] at same
      have usable : Generation.usable
          ⟨relfilenumber, some ⟨dimensions, tqFlags, some start⟩, final.pages ++ later⟩
            dimensions = some ⟨dimensions, tqFlags, some start⟩ :=
        Option.filter_eq_some_iff.mpr ⟨rfl, decide_eq_true ⟨plus, rfl, rfl⟩⟩
      rw [Generation.load, usable, Option.bind_some, Generation.read]
      have right : Right dimensions arrays fun _ =>
          (⟨fun _ => zero, fun _ => false, dimensions⟩ : LoadSide V) := fun _ =>
        ⟨fun _ seen => absurd seen Bool.false_ne_true, by simp [unseen]⟩
      refine readPages_chain chained (same ▸ isPart_correctionTuples) chained.length_le right
        ?_ fun field known offset inside => ?_
      · dsimp only
        omega
      · rw [same, (readTuples_right isPart_correctionTuples right).2]
        exact .inr (correctionTuples_cover arrays known inside)

/-! ### The cache -/

section Cache

variable {relid relfilenumber : Nat} {meta' : CorrectionMeta} {zero : V}

/-- An entry of one of the generations of its index. -/
def BelongsTo (zero : V) (history : Nat → List (Generation V)) (entry : CacheEntry V) : Prop :=
  ∃ generation ∈ history entry.relid, generation.relfilenumber = entry.relfilenumber ∧
    generation.meta' = some entry.meta' ∧ generation.read zero entry.meta' = some entry.arrays

/-- **The invariant of a backend**: the generations of an index differ in their key, every entry is
of one of them, and an index has one entry at most. -/
structure Coherent (zero : V) (state : Backend V) : Prop where
  distinct : ∀ relid, (state.history relid).Pairwise fun one other =>
    (other.relfilenumber, other.meta') ≠ (one.relfilenumber, one.meta')
  belongs : ∀ entry ∈ state.cache, BelongsTo zero state.history entry
  atMostOne : (state.cache.map CacheEntry.relid).Nodup

theorem searchCache_kept (cache : List (CacheEntry V)) :
    List.Sublist (searchCache relid relfilenumber meta' cache).1 cache := by
  induction cache with
  | nil => exact List.Sublist.refl _
  | cons entry rest ih =>
    rw [searchCache]
    split_ifs
    · exact ih.cons_cons entry
    · exact List.Sublist.refl _
    · exact ih.cons entry

theorem searchCache_found {cache : List (CacheEntry V)} {arrays : Nat → Nat → V}
    (found : (searchCache relid relfilenumber meta' cache).2 = some arrays) :
    ∃ entry ∈ cache, entry.relid = relid ∧ entry.relfilenumber = relfilenumber ∧
      entry.meta' = meta' ∧ entry.arrays = arrays := by
  induction cache with
  | nil => cases found
  | cons entry rest ih =>
    rw [searchCache] at found
    split_ifs at found with other same
    · obtain ⟨entry', member, rest'⟩ := ih found
      exact ⟨entry', .tail _ member, rest'⟩
    · obtain ⟨file, fields⟩ := of_decide_eq_true same
      exact ⟨entry, List.mem_cons_self, not_not.mp other, file, fields, Option.some.inj found⟩
    · obtain ⟨entry', member, rest'⟩ := ih found
      exact ⟨entry', .tail _ member, rest'⟩

theorem searchCache_missed {cache : List (CacheEntry V)}
    (missed : (searchCache relid relfilenumber meta' cache).2 = none) :
    ∀ entry ∈ (searchCache relid relfilenumber meta' cache).1, entry.relid ≠ relid := by
  induction cache with
  | nil => exact fun _ member => absurd member List.not_mem_nil
  | cons entry rest ih =>
    rw [searchCache] at missed ⊢
    by_cases other : entry.relid ≠ relid
    · rw [if_pos other] at missed ⊢
      intro entry' member
      rcases List.mem_cons.mp member with rfl | later
      · exact other
      · exact ih missed entry' later
    · rw [if_neg other] at missed ⊢
      by_cases same : entry.matches' relfilenumber meta' = true
      · rw [if_pos same] at missed
        cases missed
      · rw [if_neg same] at missed ⊢
        exact ih missed

/-- **A load with the cache** returns what the pages of the index hold. -/
theorem Coherent.load {state : Backend V} (coherent : Coherent zero state) {relid : Nat}
    {generation : Generation V} (current : (state.history relid).head? = some generation)
    (dimensions : Nat) :
    (loadCorrection zero state.cache relid generation dimensions).2 =
        generation.load zero dimensions ∧
      Coherent zero { state with
        cache := (loadCorrection zero state.cache relid generation dimensions).1 } := by
  obtain ⟨older, history⟩ : ∃ older, state.history relid = generation :: older :=
    ⟨_, List.eq_cons_of_mem_head? current⟩
  have keep {kept : List (CacheEntry V)} (sub : List.Sublist kept state.cache) :
      Coherent zero { state with cache := kept } :=
    ⟨coherent.distinct, fun entry member => coherent.belongs entry (sub.subset member),
      (sub.map _).nodup coherent.atMostOne⟩
  rw [loadCorrection, Generation.load]
  rcases ready : generation.usable dimensions with _ | meta'
  · exact ⟨rfl, keep (List.Sublist.refl _)⟩
  · have named : generation.meta' = some meta' :=
      (Option.filter_eq_some_iff.mp ready).1
    dsimp only
    rw [Option.bind_some]
    have sub := @searchCache_kept V relid generation.relfilenumber meta' state.cache
    rcases search : searchCache relid generation.relfilenumber meta' state.cache with ⟨kept, found⟩
    rw [search] at sub
    have foundOf := congrArg Prod.snd search
    rcases found with _ | arrays
    · have absent := searchCache_missed foundOf
      rw [search] at absent
      dsimp only
      rcases read : generation.read zero meta' with _ | arrays
      · exact ⟨rfl, keep sub⟩
      · refine ⟨rfl, coherent.distinct, fun entry member => ?_, ?_⟩
        · rcases List.mem_cons.mp member with rfl | old
          · refine ⟨generation, ?_, rfl, named, read⟩
            show generation ∈ state.history relid
            rw [history]
            exact List.mem_cons_self
          · exact coherent.belongs entry (sub.subset old)
        · refine List.nodup_cons.mpr ⟨fun member => ?_, (keep sub).atMostOne⟩
          obtain ⟨entry, inside, same⟩ := List.mem_map.mp member
          exact absent entry inside same
    · obtain ⟨entry, member, rfl, file, rfl, rfl⟩ := searchCache_found foundOf
      refine ⟨?_, keep sub⟩
      -- The entry's generation has the key of the current one, so it is the current one.
      obtain ⟨other, inside, file', fields, read⟩ := coherent.belongs entry member
      have distinct := coherent.distinct entry.relid
      rw [history] at inside distinct
      rcases List.mem_cons.mp inside with rfl | old
      · exact read.symm
      · refine absurd ?_ ((List.pairwise_cons.mp distinct).1 other old)
        rw [file', fields, file, named]

theorem Coherent.step {state next : Backend V} {action : Action V} (coherent : Coherent zero state)
    (stepped : state.step zero action = some next) : Coherent zero next := by
  cases action with
  | load relid dimensions =>
    obtain ⟨generation, current, rfl⟩ := Option.map_eq_some_iff.mp stepped
    exact (coherent.load current dimensions).2
  | invalidate relid =>
    obtain rfl := Option.some.inj stepped
    exact ⟨coherent.distinct, fun entry member =>
      coherent.belongs entry (List.mem_of_mem_filter member),
      (List.filter_sublist.map _).nodup coherent.atMostOne⟩
  | rebuild relid generation =>
    rw [Backend.step] at stepped
    split_ifs at stepped with new
    obtain rfl := Option.some.inj stepped
    refine ⟨fun other => ?_, fun entry member => ?_, coherent.atMostOne⟩
    · dsimp only
      rcases eq_or_ne other relid with rfl | different
      · rw [Function.update_self]
        exact List.pairwise_cons.mpr ⟨new, coherent.distinct _⟩
      · rw [Function.update_of_ne different]
        exact coherent.distinct other
    · obtain ⟨old, inside, rest⟩ := coherent.belongs entry member
      refine ⟨old, ?_, rest⟩
      dsimp only
      rcases eq_or_ne entry.relid relid with same | different
      · rw [same] at inside ⊢
        rw [Function.update_self]
        exact List.mem_cons_of_mem _ inside
      · rwa [Function.update_of_ne different]

theorem coherent_of_reached {state : Backend V}
    (reached : Reached (Backend.step zero) noBackend state) : Coherent zero state :=
  reached.invariant
    ⟨fun _ => List.Pairwise.nil, fun _ member => absurd member List.not_mem_nil, List.nodup_nil⟩
    fun coherent _ stepped => coherent.step stepped

end Cache

/-- **The correction sidecar**: a load of the pages a build wrote gives its arrays, and whatever a
backend loads, invalidates and sees rebuilt, a load returns what the pages of its index hold now,
with one entry at most for an index. -/
theorem correction_right (zero : V) :
    (∀ nodeCount dimensions arrays pages, 0 < nodeCount → 0 < dimensions →
      ∃ written start, writeCorrectionPages nodeCount dimensions (some arrays) pages =
          some (written, some start) ∧
        ∀ relfilenumber tqFlags later, tqFlags &&& tqPlus ≠ 0 → ∃ loaded,
          Generation.load zero
            ⟨relfilenumber, some ⟨dimensions, tqFlags, some start⟩, written ++ later⟩ dimensions =
              some loaded ∧
          ∀ field < 2, ∀ offset < dimensions, loaded field offset = arrays field offset) ∧
      ∀ state, Reached (Backend.step zero) noBackend state →
        (∀ relid generation dimensions, (state.history relid).head? = some generation →
          (loadCorrection zero state.cache relid generation dimensions).2 =
            generation.load zero dimensions) ∧
        (state.cache.map CacheEntry.relid).Nodup :=
  ⟨fun _ _ arrays pages nodes some_ => writeCorrectionPages_load zero nodes some_ arrays pages,
    fun _ reached => ⟨fun _ _ dimensions current =>
      ((coherent_of_reached reached).load current dimensions).1,
      (coherent_of_reached reached).atMostOne⟩⟩

end TurboHybrid.Graph.CorrectionCache
