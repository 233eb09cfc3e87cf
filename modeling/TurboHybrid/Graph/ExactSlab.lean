/-
**The exact vectors.**

The bytes of a vector stand behind those of the vector before it and go on at the next page when a
page is full. The build writes all vectors; each insert appends one from the last page on, which it
reaches from the start of the chain or from the page where the backend's last append ended.

* `completed_read`: the entry of a vector that was written to its end reads the bytes of the vector,
  over every run of inserts that end or fail, whatever the other pages of the relation do;
* `writeExactPages_ok`: the build writes every vector to its end.
-/
import Mathlib.Algebra.GroupWithZero.Nat
import TurboHybrid.Library.PageChain
import TurboHybrid.Library.SlabChain
import TurboHybrid.Library.Transition

namespace TurboHybrid.Exact

open TurboHybrid.Library

/-! ### Pages -/

inductive GraphPageKind where
  | quantExact
  | other
  deriving DecidableEq

/-- The item of a slab: of its `capacity` bytes those in use. -/
structure SlabHeader where
  capacity : Nat
  data : List UInt8
  deriving DecidableEq

def SlabHeader.used (header : SlabHeader) : Nat := header.data.length

/-- An item is a slab, by its magic number, or a tuple of the format before slabs. -/
inductive ExactItem where
  | slab (header : SlabHeader)
  | tuple (type : Nat) (vector : List UInt8)
  deriving DecidableEq

abbrev ExactPage := Page GraphPageKind ExactItem

def exactTupleType : Nat := 0x53

/-- The free space of an empty page, behind the page header, the special space and one item
pointer. -/
def emptyPageFreeSpace : Nat := 8192 - 24 - 8 - 4

def exactSlabCapacity : Nat := emptyPageFreeSpace - emptyPageFreeSpace % 8 - 12

def exactSlabPage : ExactPage :=
  ⟨some .quantExact, [.slab ⟨exactSlabCapacity, []⟩], none⟩

def exactSlabHeader (page : ExactPage) : Option SlabHeader :=
  match page.items with
  | .slab header :: _ => some header
  | _ => none

def vectorSize (dimensions : Nat) : Nat := 8 + 4 * dimensions

def offsetNumber (value : Nat) : Nat := value % 2 ^ 16

def linkPage (pages : List ExactPage) (block next : Nat) : List ExactPage :=
  match pages[block]? with
  | some page => pages.set block { page with next := some next }
  | none => pages

def putBytes (pages : List ExactPage) (block : Nat) (chunk : List UInt8) : List ExactPage :=
  match pages[block]? with
  | some page =>
    match exactSlabHeader page with
    | some header =>
      pages.set block
        { page with items := .slab { header with data := header.data ++ chunk } :: page.items.tail }
    | none => pages
  | none => pages

/-! ### The build -/

structure SlabEntry where
  blkno : Nat
  offno : Nat
  deriving DecidableEq

structure SlabBuild where
  pages : List ExactPage
  buf : Option Nat
  start : Option Nat

def SlabBuild.appendPage (build : SlabBuild) : SlabBuild :=
  { pages := (match build.buf with
      | some buf => linkPage build.pages buf build.pages.length
      | none => build.pages) ++ [exactSlabPage]
    buf := some build.pages.length
    start := some (build.start.getD build.pages.length) }

def SlabBuild.header (build : SlabBuild) : Option SlabHeader :=
  build.buf.bind fun buf => build.pages[buf]?.bind exactSlabHeader

/-- The page for the next bytes: the first one, or another one when the page is full. -/
def SlabBuild.ready (build : SlabBuild) : SlabBuild :=
  match build.header with
  | none => build.appendPage
  | some header => if header.capacity ≤ header.used then build.appendPage else build

/-- The loop over the bytes of a vector. Each round writes at least one. -/
def writeExactVector (size : Nat) : Nat → SlabBuild → Option SlabEntry → List UInt8 →
    Except String (SlabBuild × Option SlabEntry)
  | _, build, entry, [] => .ok (build, entry)
  | 0, _, _, _ :: _ => .error "pgturbohybrid graph exact slab page has no capacity"
  | fuel + 1, build, entry, byte :: bytes =>
    let remaining := byte :: bytes
    let build := build.ready
    match build.buf, build.header with
    | some buf, some header =>
      let chunk := remaining.take (header.capacity - header.used)
      if chunk = [] then .error "pgturbohybrid graph exact slab page has no capacity"
      else
        let entry :=
          if remaining.length = size then some ⟨buf, offsetNumber (header.used + 1)⟩ else entry
        writeExactVector size fuel { build with pages := putBytes build.pages buf chunk } entry
          (remaining.drop chunk.length)
    | _, _ => .error "pgturbohybrid graph exact slab page has no capacity"

def writeExactVectors (size : Nat) : SlabBuild → List (List UInt8) →
    Except String (SlabBuild × List (Option SlabEntry))
  | build, [] => .ok (build, [])
  | build, vector :: vectors => do
    let (build, entry) ← writeExactVector size vector.length build none vector
    let (build, entries) ← writeExactVectors size build vectors
    return (build, entry :: entries)

def writeExactPages (dimensions : Nat) (pages : List ExactPage) (vectors : List (List UInt8)) :
    Except String (SlabBuild × List (Option SlabEntry)) :=
  writeExactVectors (vectorSize dimensions) ⟨pages, none, none⟩ vectors

/-! ### The reader -/

structure ScanNode where
  exactBlkno : Option Nat
  exactOffno : Nat
  exactVector : Option (List UInt8)

/-- `none` where the source returns false or the read of a page fails. -/
def readExactPages (pages : List ExactPage) (exactOffno size : Nat) :
    Nat → Option Nat → Nat → List UInt8 → Option (List UInt8)
  | 0, _, _, copied => if size ≤ copied.length then some copied else none
  | fuel + 1, blkno, offno, copied =>
    if size ≤ copied.length then some copied
    else
      match blkno.bind fun blkno => pages[blkno]? with
      | none => none
      | some page =>
        if page.kind ≠ some .quantExact then none
        else
          match exactSlabHeader page with
          | some header =>
            if header.used ≤ offno - 1 then none
            else
              readExactPages pages exactOffno size fuel page.next 1
                (copied ++ (header.data.drop (offno - 1)).take (size - copied.length))
          | none =>
            match page.items[exactOffno - 1]? with
            | some (.tuple type vector) =>
              if type = exactTupleType then some (vector.take size) else none
            | _ => none

def readExactVectorInto (pages : List ExactPage) (node : ScanNode) (dimensions : Nat) :
    Option (List UInt8) :=
  if node.exactBlkno = none ∨ node.exactOffno = 0 then none
  else
    match node.exactVector with
    | some vector => some (vector.take (vectorSize dimensions))
    | none =>
      readExactPages pages node.exactOffno (vectorSize dimensions) pages.length node.exactBlkno
        node.exactOffno []

/-! ### The append of an insert -/

structure IndexId where
  relid : Nat
  relfilenumber : Nat
  deriving DecidableEq

structure AppendCursor where
  index : IndexId
  start : Option Nat
  tail : Option Nat

structure ExactWrite where
  backend : Nat
  vector : List UInt8
  remaining : List UInt8
  blkno : Option Nat
  exactStart : Option Nat
  entry : Option SlabEntry

/-- The append starts at the cursor if that is of the same chain. -/
def beginExact (index : IndexId) (cursor : Option AppendCursor) (exactStart : Option Nat)
    (backend : Nat) (vector : List UInt8) : ExactWrite :=
  { backend := backend
    vector := vector
    remaining := vector
    blkno :=
      match cursor with
      | some cursor =>
        if cursor.index = index ∧ cursor.start = exactStart ∧ cursor.tail.isSome then cursor.tail
        else exactStart
      | none => exactStart
    exactStart := exactStart
    entry := none }

/-- One page is written: a link to a new page when it is full, else bytes. -/
def writeExactPage (pages : List ExactPage) (write : ExactWrite) (blkno : Nat) :
    Except String (List ExactPage × ExactWrite) :=
  match pages[blkno]? with
  | none => .error "could not read block"
  | some page =>
    if page.kind ≠ some .quantExact then
      .error "unexpected pgturbohybrid graph exact page kind while appending"
    else
      match exactSlabHeader page with
      | none => .error "cannot append to legacy pgturbohybrid graph exact tuple page"
      | some header =>
        if header.capacity ≤ header.used then
          .ok (linkPage pages blkno pages.length ++ [exactSlabPage],
            { write with blkno := some pages.length })
        else
          let chunk := write.remaining.take (header.capacity - header.used)
          .ok (putBytes pages blkno chunk,
            { write with
              remaining := write.remaining.drop chunk.length
              blkno := some blkno
              entry := some (write.entry.getD ⟨blkno, offsetNumber (header.used + 1)⟩) })

/-- One round of the loop: at a new page if there is no chain yet, else at the last one. -/
def appendExactRound (pages : List ExactPage) (write : ExactWrite) :
    Except String (List ExactPage × ExactWrite) :=
  match write.blkno with
  | none =>
    writeExactPage (pages ++ [exactSlabPage]) { write with exactStart := some pages.length }
      pages.length
  | some blkno =>
    match chainTail pages pages.length blkno with
    | none => .error "could not read block"
    | some tail => writeExactPage pages write tail

/-! ### Histories -/

/-- A vector that was written to its end, and where. -/
structure Completed where
  entry : SlabEntry
  vector : List UInt8

structure SlabState where
  pages : List ExactPage
  exactStart : Option Nat
  cursors : Nat → Option AppendCursor
  writing : Option ExactWrite
  completed : List Completed

/-- What happens to the relation: the rounds of an append, under the lock of the inserts, its end with
or without a new metapage, an error or a crash between two rounds; appends of a backend to another
index, its exit; pages of other chains that are added or changed at any time. -/
inductive SlabAction where
  | start (backend : Nat) (vector : List UInt8)
  | round
  | finish (published : Bool)
  | abort
  | turn (backend : Nat) (cursor : AppendCursor)
  | leave (backend : Nat)
  | extend (page : ExactPage)
  | rewrite (block : Nat) (page : ExactPage)

section Histories

variable (index : IndexId) (dimensions : Nat)

def slabStep (state : SlabState) : SlabAction → Option SlabState
  | .start backend vector =>
    if state.writing.isNone ∧ vector.length = vectorSize dimensions then
      some { state with
        writing := some
          (beginExact index (state.cursors backend) state.exactStart backend vector) }
    else none
  | .round =>
    match state.writing with
    | none => none
    | some write =>
      if write.remaining = [] then none
      else
        match appendExactRound state.pages write with
        | .ok (pages, write) => some { state with pages := pages, writing := some write }
        | .error _ => some { state with writing := none }
  | .finish published =>
    match state.writing with
    | none => none
    | some write =>
      if write.remaining = [] then
        some { state with
          exactStart := if published then write.exactStart else state.exactStart
          cursors := Function.update state.cursors write.backend
            (some ⟨index, write.exactStart, write.blkno⟩)
          writing := none
          completed := state.completed ++ write.entry.toList.map (⟨·, write.vector⟩) }
      else none
  | .abort => some { state with writing := none }
  | .turn backend cursor =>
    if cursor.index = index then none
    else some { state with cursors := Function.update state.cursors backend (some cursor) }
  | .leave backend =>
    some { state with cursors := Function.update state.cursors backend none }
  | .extend page =>
    if page.kind = some .quantExact then none
    else some { state with pages := state.pages ++ [page] }
  | .rewrite block page =>
    match state.pages[block]? with
    | none => none
    | some old =>
      if old.kind = some .quantExact ∨ page.kind = some .quantExact then none
      else some { state with pages := state.pages.set block page }

def builtSlab (build : SlabBuild) (entries : List (Option SlabEntry))
    (vectors : List (List UInt8)) : SlabState :=
  { pages := build.pages
    exactStart := build.start
    cursors := fun _ => none
    writing := none
    completed := (entries.zip vectors).flatMap fun node => node.1.toList.map (⟨·, node.2⟩) }

end Histories

/-! ### The slabs of the pages -/

/-- The slab in a block: the bytes in use and the next page. -/
def slabAt (pages : List ExactPage) (block : Nat) : Option (Slab UInt8) :=
  pages[block]?.bind fun page =>
    if page.kind = some .quantExact then
      (exactSlabHeader page).map fun header => ⟨header.data, page.next⟩
    else none

/-- Every page of the kind has a slab, with links to later pages. -/
structure SlabPages (pages : List ExactPage) : Prop where
  slabs : ∀ (block : Nat) (page : ExactPage), pages[block]? = some page →
    page.kind = some .quantExact → ∃ data : List UInt8, page.items = [.slab ⟨exactSlabCapacity, data⟩] ∧ data.length ≤ exactSlabCapacity
  rising : SlabsRising (slabAt pages) pages.length

section Slabs

variable {pages : List ExactPage} {page : ExactPage} {block : Nat} {data : List UInt8}

theorem slabAt_of_page (here : pages[block]? = some page) (kind : page.kind = some .quantExact)
    (items : page.items = [.slab ⟨exactSlabCapacity, data⟩]) :
    slabAt pages block = some ⟨data, page.next⟩ := by
  unfold slabAt exactSlabHeader
  rw [here, Option.bind_some, if_pos kind, items]
  rfl

theorem slabAt_lt {slab : Slab UInt8} (here : slabAt pages block = some slab) :
    block < pages.length := by
  by_contra outside
  unfold slabAt at here
  rw [List.getElem?_eq_none (not_lt.mp outside)] at here
  cases here

theorem slabAt_length (pages : List ExactPage) : slabAt pages pages.length = none := by
  unfold slabAt
  rw [List.getElem?_eq_none le_rfl]
  rfl

theorem SlabPages.page_of_slab (chains : SlabPages pages) {slab : Slab UInt8}
    (here : slabAt pages block = some slab) :
    ∃ page, pages[block]? = some page ∧ page.kind = some .quantExact ∧
      page.items = [.slab ⟨exactSlabCapacity, slab.data⟩] ∧ page.next = slab.next ∧
      slab.data.length ≤ exactSlabCapacity := by
  have read := here
  unfold slabAt at read
  obtain ⟨page, there, rest⟩ := Option.bind_eq_some_iff.mp read
  split_ifs at rest with kind
  obtain ⟨data, items, short⟩ := chains.slabs block page there kind
  have same := (slabAt_of_page there kind items).symm.trans here
  obtain rfl := Option.some.inj same
  exact ⟨page, there, kind, items, rfl, short⟩

theorem slabAt_append (pages : List ExactPage) (page : ExactPage)
    (other : page.kind ≠ some .quantExact) : slabAt (pages ++ [page]) = slabAt pages := by
  funext block
  unfold slabAt
  rcases Nat.lt_trichotomy block pages.length with before | rfl | after
  · rw [List.getElem?_append_left before]
  · rw [List.getElem?_concat_length, Option.bind_some, if_neg other,
      List.getElem?_eq_none le_rfl, Option.bind_none]
  · rw [List.getElem?_eq_none (by simp; omega), List.getElem?_eq_none after.le]

theorem slabAt_fresh (pages : List ExactPage) :
    slabAt (pages ++ [exactSlabPage]) =
      Function.update (slabAt pages) pages.length (some ⟨[], none⟩) := by
  funext block
  rcases Nat.lt_trichotomy block pages.length with before | rfl | after
  · rw [Function.update_of_ne before.ne]
    unfold slabAt
    rw [List.getElem?_append_left before]
  · rw [Function.update_self]
    exact slabAt_of_page List.getElem?_concat_length rfl rfl
  · rw [Function.update_of_ne after.ne']
    unfold slabAt
    rw [List.getElem?_eq_none (by simp; omega), List.getElem?_eq_none after.le]

theorem slabAt_set (page : ExactPage) (inside : block < pages.length) (kind : page.kind = some .quantExact)
    (items : page.items = [.slab ⟨exactSlabCapacity, data⟩]) :
    slabAt (pages.set block page) = Function.update (slabAt pages) block (some ⟨data, page.next⟩) := by
  funext other
  by_cases same : other = block
  · subst same
    rw [Function.update_self]
    exact slabAt_of_page (List.getElem?_set_self inside) kind items
  · rw [Function.update_of_ne same]
    unfold slabAt
    rw [List.getElem?_set_ne (Ne.symm same)]

structure Kept (pages changed : List ExactPage) : Prop where
  chains : SlabPages changed
  extended : Extends (slabAt pages) (slabAt changed)
  longer : pages.length ≤ changed.length

theorem fresh_kept (chains : SlabPages pages) : Kept pages (pages ++ [exactSlabPage]) := by
  have absent := slabAt_length pages
  refine ⟨⟨?_, ⟨fun block slab here => slabAt_lt here, ?_⟩⟩, ?_, ?_⟩
  · intro block page here kind
    rcases Nat.lt_or_ge block pages.length with before | behind
    · rw [List.getElem?_append_left before] at here
      exact chains.slabs block page here kind
    · rw [List.getElem?_append_right behind] at here
      obtain rfl : exactSlabPage = page := by
        have only := List.mem_of_getElem? here
        exact (List.mem_singleton.mp only).symm
      exact ⟨[], rfl, Nat.zero_le _⟩
  · intro block slab here next link
    rw [slabAt_fresh] at here
    by_cases same : block = pages.length
    · rw [same, Function.update_self] at here
      obtain rfl := Option.some.inj here
      cases link
    · rw [Function.update_of_ne same] at here
      exact chains.rising.later block slab here next link
  · rw [slabAt_fresh]
    exact extends_fresh absent
  · rw [List.length_append]
    exact Nat.le_add_right _ _

theorem set_kept (chains : SlabPages pages) {slab : Slab UInt8}
    (here : slabAt pages block = some slab) (ended : slab.next = none)
    (kind : page.kind = some .quantExact)
    (items : page.items = [.slab ⟨exactSlabCapacity, data⟩])
    (short : data.length ≤ exactSlabCapacity) (front : slab.data <+: data)
    (later : ∀ next, page.next = some next → block < next) :
    Kept pages (pages.set block page) := by
  have inside := slabAt_lt here
  refine ⟨⟨?_, ⟨fun block slab here => slabAt_lt here, ?_⟩⟩, ?_, ?_⟩
  · intro other changed there changedKind
    by_cases same : other = block
    · subst same
      rw [List.getElem?_set_self inside] at there
      obtain rfl := Option.some.inj there
      exact ⟨data, items, short⟩
    · rw [List.getElem?_set_ne (Ne.symm same)] at there
      exact chains.slabs other changed there changedKind
  · intro other changed there next link
    rw [slabAt_set page inside kind items] at there
    by_cases same : other = block
    · subst same
      rw [Function.update_self] at there
      obtain rfl := Option.some.inj there
      exact later next link
    · rw [Function.update_of_ne same] at there
      exact chains.rising.later other changed there next link
  · rw [slabAt_set page inside kind items]
    exact extends_last here ended front
  · rw [List.length_set]

theorem putBytes_last (chains : SlabPages pages)
    (here : slabAt pages block = some ⟨data, none⟩) {chunk : List UInt8}
    (fits : data.length + chunk.length ≤ exactSlabCapacity) :
    Kept pages (putBytes pages block chunk) ∧
      slabAt (putBytes pages block chunk) =
        Function.update (slabAt pages) block (some ⟨data ++ chunk, none⟩) := by
  obtain ⟨page, there, kind, items, ended, -⟩ := chains.page_of_slab here
  have put : putBytes pages block chunk = pages.set block
      { page with items := [.slab ⟨exactSlabCapacity, data ++ chunk⟩] } := by
    unfold putBytes exactSlabHeader
    rw [there]
    dsimp only
    rw [items]
    rfl
  rw [put]
  constructor
  · refine set_kept chains here rfl kind rfl ?_ (List.prefix_append _ _) ?_
    · rwa [List.length_append]
    · intro next link
      rw [show page.next = none from ended] at link
      cases link
  · refine (slabAt_set { page with items := [.slab ⟨exactSlabCapacity, data ++ chunk⟩] }
      (slabAt_lt here) kind rfl).trans ?_
    exact congrArg (fun next => Function.update (slabAt pages) block (some ⟨data ++ chunk, next⟩))
      ended

theorem linkPage_last (chains : SlabPages pages)
    (here : slabAt pages block = some ⟨data, none⟩) :
    Kept pages (linkPage pages block pages.length ++ [exactSlabPage]) ∧
      slabAt (linkPage pages block pages.length ++ [exactSlabPage]) =
        Function.update
          (Function.update (slabAt pages) block (some ⟨data, some pages.length⟩)) pages.length
          (some ⟨[], none⟩) := by
  obtain ⟨page, there, kind, items, -, short⟩ := chains.page_of_slab here
  have inside := slabAt_lt here
  have link : linkPage pages block pages.length =
      pages.set block { page with next := some pages.length } := by
    unfold linkPage
    rw [there]
  have linked : Kept pages (linkPage pages block pages.length) := by
    rw [link]
    refine set_kept chains here rfl kind items short (List.prefix_refl _) ?_
    intro next same
    exact Option.some.inj same ▸ inside
  have length : (linkPage pages block pages.length).length = pages.length := by
    rw [link, List.length_set]
  have fresh := fresh_kept linked.chains
  constructor
  · exact ⟨fresh.chains, linked.extended.trans fresh.extended, linked.longer.trans fresh.longer⟩
  · rw [slabAt_fresh, length, link]
    exact congrArg (fun slabs => Function.update slabs pages.length (some ⟨[], none⟩))
      (slabAt_set { page with next := some pages.length } inside kind items)

end Slabs

/-! ### One vector -/

/-- What the writer of a vector has written: nothing yet, or the first bytes, from the entry to the
end of the last page of a chain. -/
inductive WrittenTo (pages : List ExactPage) (vector : List UInt8) :
    Option SlabEntry → List UInt8 → Option Nat → Prop where
  | nothing (last : Option Nat) : WrittenTo pages vector none vector last
  | front {entry : SlabEntry} {done remaining data : List UInt8} {offset last : Nat}
      (split : vector = done ++ remaining) (offno : entry.offno = offset + 1)
      (held : Holds (slabAt pages) exactSlabCapacity entry.blkno offset done last)
      (ended : slabAt pages last = some ⟨data, none⟩) :
      WrittenTo pages vector (some entry) remaining (some last)

def Readable (pages : List ExactPage) (entry : SlabEntry) (vector : List UInt8) : Prop :=
  ∃ offset, entry.offno = offset + 1 ∧
    readSlabs (slabAt pages) pages.length (some entry.blkno) offset vector.length = some vector

section Vector

variable {pages : List ExactPage} {vector remaining data : List UInt8} {entry : Option SlabEntry}
variable {last block : Nat} {buf : Option Nat}

theorem exactSlabCapacity_fits : exactSlabCapacity < 2 ^ 16 - 1 := by decide

theorem Readable.kept {changed : List ExactPage} (kept : Kept pages changed) {entry : SlabEntry}
    (readable : Readable pages entry vector) : Readable changed entry vector := by
  obtain ⟨offset, offno, read⟩ := readable
  exact ⟨offset, offno, readSlabs_extends kept.extended kept.longer read⟩

theorem WrittenTo.readable (chains : SlabPages pages) (written : WrittenTo pages vector entry [] buf)
    (bytes : vector ≠ []) : ∃ start, entry = some start ∧ Readable pages start vector := by
  cases written with
  | nothing => exact absurd rfl bytes
  | @front start done remaining data offset last split offno held ended =>
    obtain rfl : vector = done := split.trans (List.append_nil _)
    exact ⟨start, rfl, offset, offno, held.read chains.rising (Nat.le_add_left _ _)⟩

theorem WrittenTo.nowhere (written : WrittenTo pages vector entry remaining none) :
    entry = none ∧ remaining = vector := by
  cases written
  exact ⟨rfl, rfl⟩

theorem WrittenTo.ended (written : WrittenTo pages vector entry remaining buf)
    (begun : entry.isSome) :
    ∃ last data, buf = some last ∧ slabAt pages last = some ⟨data, none⟩ := by
  cases written with
  | nothing => cases begun
  | front split offno held ended => exact ⟨_, _, rfl, ended⟩

theorem WrittenTo.same {changed : List ExactPage} (same : slabAt changed = slabAt pages)
    (written : WrittenTo pages vector entry remaining buf) :
    WrittenTo changed vector entry remaining buf := by
  cases written with
  | nothing => exact WrittenTo.nothing _
  | front split offno held ended =>
    rw [← same] at held ended
    exact WrittenTo.front split offno held ended

theorem WrittenTo.put (chains : SlabPages pages) (written : WrittenTo pages vector entry remaining buf)
    (here : slabAt pages block = some ⟨data, none⟩) (room : data.length < exactSlabCapacity)
    (place : entry.isSome → buf = some block) {chunk : List UInt8}
    (front : chunk = remaining.take (exactSlabCapacity - data.length)) :
    Kept pages (putBytes pages block chunk) ∧
      WrittenTo (putBytes pages block chunk) vector
        (some (entry.getD ⟨block, offsetNumber (data.length + 1)⟩)) (remaining.drop chunk.length)
        (some block) := by
  have short : chunk.length ≤ exactSlabCapacity - data.length := by
    rw [front, List.length_take]
    exact min_le_left _ _
  obtain ⟨kept, slabs⟩ := putBytes_last chains here (by omega : data.length + chunk.length ≤ _)
  have rest : chunk ++ remaining.drop chunk.length = remaining := by
    rw [front, List.length_take]
    rcases le_total (exactSlabCapacity - data.length) remaining.length with more | whole
    · rw [min_eq_left more, List.take_append_drop]
    · rw [min_eq_right whole, List.take_of_length_le whole, List.drop_length, List.append_nil]
  refine ⟨kept, ?_⟩
  cases written with
  | nothing =>
    refine @WrittenTo.front _ _ _ ([] ++ chunk) _ (data ++ chunk) data.length _ ?_ ?_ ?_ ?_
    · exact rest.symm
    · have fits := exactSlabCapacity_fits
      exact Nat.mod_eq_of_lt (by omega)
    · rw [slabs]
      exact (Holds.start here room).put here rfl chunk
    · rw [slabs]
      exact Function.update_self _ _ _
  | @front start done remaining old offset last split offno held ended =>
    obtain rfl : last = block := Option.some.inj (place rfl)
    refine @WrittenTo.front _ _ _ (done ++ chunk) _ (data ++ chunk) offset _ ?_ offno ?_ ?_
    · rw [split, List.append_assoc, rest]
    · rw [slabs]
      exact held.put here rfl chunk
    · rw [slabs]
      exact Function.update_self _ _ _

theorem WrittenTo.link (chains : SlabPages pages)
    (written : WrittenTo pages vector entry remaining buf)
    (here : slabAt pages block = some ⟨data, none⟩) (full : data.length = exactSlabCapacity)
    (place : entry.isSome → buf = some block) :
    Kept pages (linkPage pages block pages.length ++ [exactSlabPage]) ∧
      WrittenTo (linkPage pages block pages.length ++ [exactSlabPage]) vector entry remaining
        (some pages.length) := by
  obtain ⟨kept, slabs⟩ := linkPage_last chains here
  refine ⟨kept, ?_⟩
  cases written with
  | nothing => exact WrittenTo.nothing _
  | @front start done remaining old offset last split offno held ended =>
    obtain rfl : last = block := Option.some.inj (place rfl)
    refine @WrittenTo.front _ _ _ _ _ [] _ _ split offno ?_ ?_
    · rw [slabs]
      exact held.link here rfl full (slabAt_length pages)
    · rw [slabs]
      exact Function.update_self _ _ _

end Vector

/-! ### The build writes every vector -/

/-- The build stands at the last page of its chain, if it has one. -/
structure BuildSound (build : SlabBuild) : Prop where
  chains : SlabPages build.pages
  ends : ∀ buf, build.buf = some buf → ∃ data, slabAt build.pages buf = some ⟨data, none⟩

section Build

variable {build : SlabBuild} {vector remaining : List UInt8} {entry : Option SlabEntry} {size : Nat}

theorem SlabBuild.header_of_slab (chains : SlabPages build.pages) {buf : Nat} {data : List UInt8}
    (here : build.buf = some buf) (slab : slabAt build.pages buf = some ⟨data, none⟩) :
    build.header = some ⟨exactSlabCapacity, data⟩ := by
  obtain ⟨page, there, -, items, -, -⟩ := chains.page_of_slab slab
  unfold SlabBuild.header exactSlabHeader
  rw [here, Option.bind_some, there, Option.bind_some, items]

theorem BuildSound.ready (sound : BuildSound build)
    (written : WrittenTo build.pages vector entry remaining build.buf) :
    ∃ buf data, build.ready.buf = some buf ∧
      build.ready.header = some ⟨exactSlabCapacity, data⟩ ∧
      slabAt build.ready.pages buf = some ⟨data, none⟩ ∧ data.length < exactSlabCapacity ∧
      Kept build.pages build.ready.pages ∧
      WrittenTo build.ready.pages vector entry remaining (some buf) := by
  cases here : build.buf with
  | none =>
    have fresh := fresh_kept sound.chains
    have absent : build.header = none := by
      unfold SlabBuild.header
      rw [here]
      rfl
    have appended : build.ready =
        ⟨build.pages ++ [exactSlabPage], some build.pages.length,
          some (build.start.getD build.pages.length)⟩ := by
      unfold SlabBuild.ready SlabBuild.appendPage
      rw [absent, here]
    have slab : slabAt (build.pages ++ [exactSlabPage]) build.pages.length = some ⟨[], none⟩ := by
      rw [slabAt_fresh, Function.update_self]
    rw [appended]
    refine ⟨build.pages.length, [], rfl, ?_, slab, by decide, fresh, ?_⟩
    · exact SlabBuild.header_of_slab fresh.chains rfl slab
    · rw [here] at written
      cases written
      exact WrittenTo.nothing _
  | some buf =>
    obtain ⟨data, slab⟩ := sound.ends buf here
    have header := SlabBuild.header_of_slab sound.chains here slab
    obtain ⟨-, -, -, -, -, short⟩ := sound.chains.page_of_slab slab
    rw [here] at written
    by_cases full : exactSlabCapacity ≤ data.length
    · obtain ⟨kept, linked⟩ := written.link sound.chains slab (le_antisymm short full) fun _ => rfl
      have appended : build.ready =
          ⟨linkPage build.pages buf build.pages.length ++ [exactSlabPage], some build.pages.length,
            some (build.start.getD build.pages.length)⟩ := by
        unfold SlabBuild.ready SlabBuild.appendPage
        rw [header, here]
        exact if_pos full
      have last : slabAt (linkPage build.pages buf build.pages.length ++ [exactSlabPage])
          build.pages.length = some ⟨[], none⟩ := by
        rw [(linkPage_last sound.chains slab).2, Function.update_self]
      rw [appended]
      refine ⟨build.pages.length, [], rfl, ?_, last, by decide, kept, linked⟩
      exact SlabBuild.header_of_slab kept.chains rfl last
    · have same : build.ready = build := by
        unfold SlabBuild.ready
        rw [header]
        exact if_neg full
      rw [same]
      refine ⟨buf, data, here, header, slab, not_le.mp full, ?_, written⟩
      exact ⟨sound.chains, Extends.refl _, le_rfl⟩

theorem Kept.trans {pages changed later : List ExactPage} (first : Kept pages changed)
    (second : Kept changed later) : Kept pages later :=
  ⟨second.chains, first.extended.trans second.extended, first.longer.trans second.longer⟩

/-- **A vector is written to its end.** The induction is on the rounds that are left; the entry is
set in the round that finds all bytes remaining. -/
theorem writeExactVector_ok {fuel : Nat} (sound : BuildSound build)
    (written : WrittenTo build.pages vector entry remaining build.buf)
    (enough : remaining.length ≤ fuel) (first : entry = none ↔ remaining.length = size)
    (least : remaining.length ≤ size) :
    ∃ final entry', writeExactVector size fuel build entry remaining = .ok (final, entry') ∧
      BuildSound final ∧ Kept build.pages final.pages ∧
      WrittenTo final.pages vector entry' [] final.buf := by
  induction fuel generalizing build entry remaining with
  | zero =>
    obtain rfl := List.length_eq_zero_iff.mp (Nat.le_zero.mp enough)
    exact ⟨build, entry, rfl, sound, ⟨sound.chains, Extends.refl _, le_rfl⟩, written⟩
  | succ fuel ih =>
    cases remaining with
    | nil => exact ⟨build, entry, rfl, sound, ⟨sound.chains, Extends.refl _, le_rfl⟩, written⟩
    | cons byte bytes =>
      obtain ⟨buf, data, here, header, slab, room, kept, ready⟩ := sound.ready written
      obtain ⟨more, put⟩ := ready.put kept.chains slab room (fun _ => rfl) rfl
      have taken : (byte :: bytes).take (exactSlabCapacity - data.length) ≠ [] := by
        obtain ⟨space, eq⟩ : ∃ space, exactSlabCapacity - data.length = space + 1 :=
          ⟨exactSlabCapacity - data.length - 1, by omega⟩
        rw [eq]
        exact List.cons_ne_nil _ _
      have positive := List.length_pos_iff.mpr taken
      have entries : (if (byte :: bytes).length = size then
            some ⟨buf, offsetNumber (data.length + 1)⟩ else entry) =
          some (entry.getD ⟨buf, offsetNumber (data.length + 1)⟩) := by
        by_cases all : (byte :: bytes).length = size
        · rw [if_pos all, first.mpr all]
          rfl
        · rw [if_neg all]
          cases entry with
          | none => exact absurd (first.mp rfl) all
          | some entry => rfl
      rw [writeExactVector]
      simp only [here, header, SlabHeader.used]
      rw [if_neg taken, entries]
      have next : BuildSound { build.ready with
          pages := putBytes build.ready.pages buf
            ((byte :: bytes).take (exactSlabCapacity - data.length)) } := by
        refine ⟨more.chains, ?_⟩
        intro other same
        obtain rfl := Option.some.inj (here.symm.trans same)
        cases put with
        | front _ _ _ ended => exact ⟨_, ended⟩
      obtain ⟨final, entry', ran, finalSound, finalKept, finalWritten⟩ := ih next
        (by rw [here]; exact put)
        (by rw [List.length_drop]; simp only [List.length_cons] at enough ⊢; omega)
        (by
          rw [List.length_drop]
          constructor
          · intro none
            cases none
          · intro all
            simp only [List.length_cons] at all least
            omega)
        (by rw [List.length_drop]; exact (Nat.sub_le _ _).trans least)
      refine ⟨final, entry', ?_, finalSound, kept.trans (more.trans finalKept), finalWritten⟩
      rw [← here]
      exact ran

theorem vector_ne_nil {dimensions : Nat} (size : vector.length = vectorSize dimensions) :
    vector ≠ [] := by
  rintro rfl
  simp only [List.length_nil, vectorSize] at size
  omega

theorem writeExactVectors_ok {dimensions : Nat} {vectors : List (List UInt8)}
    (sound : BuildSound build)
    (sizes : ∀ vector ∈ vectors, vector.length = vectorSize dimensions) :
    ∃ final entries, writeExactVectors (vectorSize dimensions) build vectors =
        .ok (final, entries) ∧ BuildSound final ∧ Kept build.pages final.pages ∧
      entries.length = vectors.length ∧ ∀ node ∈ entries.zip vectors,
        ∃ start, node.1 = some start ∧ Readable final.pages start node.2 := by
  induction vectors generalizing build with
  | nil =>
    refine ⟨build, [], rfl, sound, ⟨sound.chains, Extends.refl _, le_rfl⟩, rfl, ?_⟩
    intro node member
    cases member
  | cons vector vectors ih =>
    have size := sizes vector List.mem_cons_self
    obtain ⟨middle, entry, ran, middleSound, kept, written⟩ :=
      writeExactVector_ok sound (WrittenTo.nothing _) le_rfl (iff_of_true rfl size) size.le
    obtain ⟨start, rfl, readable⟩ := written.readable middleSound.chains (vector_ne_nil size)
    obtain ⟨final, entries, later, finalSound, more, lengths, all⟩ := ih middleSound
      fun vector member => sizes vector (List.mem_cons_of_mem _ member)
    refine ⟨final, some start :: entries, ?_, finalSound, kept.trans more, ?_, ?_⟩
    · rw [writeExactVectors, ran]
      show (writeExactVectors (vectorSize dimensions) middle vectors >>= _) = _
      rw [later]
      rfl
    · rw [List.length_cons, List.length_cons, lengths]
    · intro node member
      rw [List.zip_cons_cons, List.mem_cons] at member
      rcases member with rfl | member
      · exact ⟨start, rfl, readable.kept more⟩
      · exact all node member

theorem slabPages_others {others : List ExactPage}
    (kinds : ∀ page ∈ others, page.kind ≠ some .quantExact) : SlabPages others := by
  have none (block : Nat) : slabAt others block = none := by
    unfold slabAt
    cases here : others[block]? with
    | none => rfl
    | some page => exact if_neg (kinds page (List.mem_of_getElem? here))
  refine ⟨?_, ?_, ?_⟩
  · intro block page here kind
    exact absurd kind (kinds page (List.mem_of_getElem? here))
  · intro block slab here
    rw [none] at here
    cases here
  · intro block slab here
    rw [none] at here
    cases here

/-- **The build writes every vector to its end.** -/
theorem writeExactPages_ok {dimensions : Nat} {others : List ExactPage}
    {vectors : List (List UInt8)} (kinds : ∀ page ∈ others, page.kind ≠ some .quantExact)
    (sizes : ∀ vector ∈ vectors, vector.length = vectorSize dimensions) :
    ∃ final entries, writeExactPages dimensions others vectors = .ok (final, entries) ∧
      BuildSound final ∧ entries.length = vectors.length ∧
      ∀ node ∈ entries.zip vectors, ∃ start, node.1 = some start ∧
        Readable final.pages start node.2 := by
  have sound : BuildSound ⟨others, none, none⟩ := by
    refine ⟨slabPages_others kinds, ?_⟩
    intro buf here
    cases here
  obtain ⟨final, entries, ran, finalSound, -, lengths, all⟩ := writeExactVectors_ok sound sizes
  exact ⟨final, entries, ran, finalSound, lengths, all⟩

end Build

/-! ### The appends -/

section Appends

variable {pages changed : List ExactPage} {write after : ExactWrite}

theorem chainTail_ends {fuel block tail : Nat} (found : chainTail pages fuel block = some tail) :
    (∃ page, pages[tail]? = some page ∧ page.next = none) ∧
      ∀ page, pages[block]? = some page → page.next = none → tail = block := by
  induction fuel generalizing block with
  | zero => cases found
  | succ fuel ih =>
    rw [chainTail] at found
    cases here : pages[block]? with
    | none =>
      rw [here] at found
      cases found
    | some page =>
      rw [here] at found
      dsimp only at found
      cases link : page.next with
      | none =>
        rw [link] at found
        obtain rfl := Option.some.inj found
        exact ⟨⟨page, here, link⟩, fun _ _ _ => rfl⟩
      | some next =>
        rw [link] at found
        refine ⟨(ih found).1, ?_⟩
        intro other same ended
        obtain rfl := Option.some.inj same
        rw [link] at ended
        cases ended

theorem writeExactPage_spec (chains : SlabPages pages) {blkno : Nat} {buf : Option Nat}
    (written : WrittenTo pages write.vector write.entry write.remaining buf)
    (place : write.entry.isSome → buf = some blkno)
    (ends : ∀ page, pages[blkno]? = some page → page.next = none)
    (result : writeExactPage pages write blkno = .ok (changed, after)) :
    Kept pages changed ∧ after.vector = write.vector ∧
      WrittenTo changed after.vector after.entry after.remaining after.blkno := by
  unfold writeExactPage at result
  cases here : pages[blkno]? with
  | none =>
    rw [here] at result
    cases result
  | some page =>
    rw [here] at result
    dsimp only at result
    split_ifs at result with kind
    have exactKind : page.kind = some .quantExact := not_not.mp kind
    obtain ⟨data, items, short⟩ := chains.slabs blkno page here exactKind
    have slab : slabAt pages blkno = some ⟨data, none⟩ := by
      rw [slabAt_of_page here exactKind items, ends page here]
    have header : exactSlabHeader page = some ⟨exactSlabCapacity, data⟩ := by
      unfold exactSlabHeader
      rw [items]
    rw [header] at result
    dsimp only at result
    by_cases full : exactSlabCapacity ≤ SlabHeader.used ⟨exactSlabCapacity, data⟩
    · rw [if_pos full] at result
      obtain ⟨rfl, rfl⟩ := Prod.mk.inj (Except.ok.inj result)
      obtain ⟨kept, linked⟩ := written.link chains slab (le_antisymm short full) place
      exact ⟨kept, rfl, linked⟩
    · rw [if_neg full] at result
      obtain ⟨rfl, rfl⟩ := Prod.mk.inj (Except.ok.inj result)
      obtain ⟨kept, put⟩ := written.put chains slab (not_le.mp full) place rfl
      exact ⟨kept, rfl, put⟩

/-- **One round of an append** keeps what was written, and the append goes on where it stands. -/
theorem appendExactRound_spec (chains : SlabPages pages)
    (written : WrittenTo pages write.vector write.entry write.remaining write.blkno)
    (result : appendExactRound pages write = .ok (changed, after)) :
    Kept pages changed ∧ after.vector = write.vector ∧
      WrittenTo changed after.vector after.entry after.remaining after.blkno := by
  unfold appendExactRound at result
  cases place : write.blkno with
  | none =>
    rw [place] at result written
    have fresh := fresh_kept chains
    obtain ⟨entry, remaining⟩ := written.nowhere
    have nothing : WrittenTo (pages ++ [exactSlabPage]) write.vector write.entry write.remaining
        none := by
      rw [entry, remaining]
      exact WrittenTo.nothing _
    have at_start : write.entry.isSome → (none : Option Nat) = some pages.length := by
      intro begun
      rw [entry] at begun
      cases begun
    obtain ⟨kept, same, later⟩ := @writeExactPage_spec _ _
      { write with exactStart := some pages.length, blkno := none } _ fresh.chains _ _ nothing
      at_start
      (by
        intro page here
        rw [List.getElem?_concat_length] at here
        exact Option.some.inj here ▸ rfl)
      result
    exact ⟨fresh.trans kept, same, later⟩
  | some blkno =>
    rw [place] at result written
    dsimp only at result
    cases found : chainTail pages pages.length blkno with
    | none =>
      rw [found] at result
      cases result
    | some tail =>
      rw [found] at result
      obtain ⟨⟨last, there, ended⟩, stays⟩ := chainTail_ends found
      refine writeExactPage_spec chains written ?_ ?_ result
      · intro begun
        obtain ⟨last, data, here, slab⟩ := written.ended begun
        obtain rfl := Option.some.inj here
        obtain ⟨page, found, -, -, next, -⟩ := chains.page_of_slab slab
        rw [stays page found next]
      · intro page here
        obtain rfl := Option.some.inj (there.symm.trans here)
        exact ended

end Appends

/-! ### Every history -/

/-- What every history keeps: the vectors written to their end can be read, and the append under way
is at the end of what it has written. -/
structure SlabSound (dimensions : Nat) (state : SlabState) : Prop where
  chains : SlabPages state.pages
  readable : ∀ written ∈ state.completed, Readable state.pages written.entry written.vector ∧
    written.vector.length = vectorSize dimensions
  writing : ∀ write, state.writing = some write →
    WrittenTo state.pages write.vector write.entry write.remaining write.blkno ∧
      write.vector.length = vectorSize dimensions

section Runs

variable {index : IndexId} {dimensions : Nat} {state : SlabState}

theorem SlabSound.built {others : List ExactPage} {vectors : List (List UInt8)}
    {build : SlabBuild} {entries : List (Option SlabEntry)}
    (kinds : ∀ page ∈ others, page.kind ≠ some .quantExact)
    (sizes : ∀ vector ∈ vectors, vector.length = vectorSize dimensions)
    (ran : writeExactPages dimensions others vectors = .ok (build, entries)) :
    SlabSound dimensions (builtSlab build entries vectors) := by
  obtain ⟨final, starts, again, sound, -, all⟩ := writeExactPages_ok kinds sizes
  obtain ⟨rfl, rfl⟩ := Prod.mk.inj (Except.ok.inj (again.symm.trans ran))
  refine ⟨sound.chains, ?_, ?_⟩
  · intro written member
    obtain ⟨node, inside, here⟩ := List.mem_flatMap.mp member
    obtain ⟨start, entry, readable⟩ := all node inside
    rw [entry] at here
    obtain rfl := List.mem_singleton.mp here
    exact ⟨readable, sizes node.2 (List.of_mem_zip inside).2⟩
  · intro write none
    cases none

theorem SlabSound.others (sound : SlabSound dimensions state) {pages : List ExactPage}
    (same : slabAt pages = slabAt state.pages) (length : state.pages.length ≤ pages.length)
    (slabs : SlabPages pages) : SlabSound dimensions { state with pages := pages } := by
  have kept : Kept state.pages pages := ⟨slabs, same ▸ Extends.refl _, length⟩
  refine ⟨slabs, ?_, ?_⟩
  · intro written member
    obtain ⟨readable, size⟩ := sound.readable written member
    exact ⟨readable.kept kept, size⟩
  · intro write here
    obtain ⟨written, size⟩ := sound.writing write here
    exact ⟨written.same same, size⟩

theorem SlabPages.of_same {pages changed : List ExactPage} (chains : SlabPages pages)
    (same : slabAt changed = slabAt pages) (length : pages.length ≤ changed.length)
    (old : ∀ (block : Nat) (page : ExactPage), changed[block]? = some page →
      page.kind = some .quantExact → pages[block]? = some page) : SlabPages changed := by
  refine ⟨?_, ?_, ?_⟩
  · intro block page here kind
    exact chains.slabs block page (old block page here kind) kind
  · intro block slab here
    rw [same] at here
    exact (chains.rising.inside block slab here).trans_le length
  · intro block slab here
    rw [same] at here
    exact chains.rising.later block slab here

theorem slabStep_sound {action : SlabAction} {after : SlabState}
    (sound : SlabSound dimensions state)
    (stepped : slabStep index dimensions state action = some after) :
    SlabSound dimensions after := by
  cases action with
  | start backend vector =>
    simp only [slabStep] at stepped
    split_ifs at stepped with free
    obtain rfl := Option.some.inj stepped
    refine ⟨sound.chains, sound.readable, ?_⟩
    intro write here
    obtain rfl := Option.some.inj here
    exact ⟨WrittenTo.nothing _, free.2⟩
  | round =>
    simp only [slabStep] at stepped
    cases here : state.writing with
    | none =>
      rw [here] at stepped
      cases stepped
    | some write =>
      rw [here] at stepped
      dsimp only at stepped
      split_ifs at stepped
      obtain ⟨written, size⟩ := sound.writing write here
      cases result : appendExactRound state.pages write with
      | error message =>
        rw [result] at stepped
        obtain rfl := Option.some.inj stepped
        refine ⟨sound.chains, sound.readable, ?_⟩
        intro write none
        cases none
      | ok next =>
        rw [result] at stepped
        obtain rfl := Option.some.inj stepped
        obtain ⟨kept, same, later⟩ := appendExactRound_spec sound.chains written result
        refine ⟨kept.chains, ?_, ?_⟩
        · intro done member
          obtain ⟨readable, doneSize⟩ := sound.readable done member
          exact ⟨readable.kept kept, doneSize⟩
        · intro write there
          obtain rfl := Option.some.inj there
          exact ⟨later, same ▸ size⟩
  | finish published =>
    simp only [slabStep] at stepped
    cases here : state.writing with
    | none =>
      rw [here] at stepped
      cases stepped
    | some write =>
      rw [here] at stepped
      dsimp only at stepped
      split_ifs at stepped with whole
      all_goals
        obtain rfl := Option.some.inj stepped
        obtain ⟨written, size⟩ := sound.writing write here
        rw [whole] at written
        refine ⟨sound.chains, ?_, ?_⟩
        · intro done member
          rcases List.mem_append.mp member with old | new
          · exact sound.readable done old
          · obtain ⟨start, entry, readable⟩ :=
              written.readable sound.chains (vector_ne_nil size)
            rw [entry] at new
            obtain rfl := List.mem_singleton.mp new
            exact ⟨readable, size⟩
        · intro write none
          cases none
  | abort =>
    obtain rfl := Option.some.inj stepped
    refine ⟨sound.chains, sound.readable, ?_⟩
    intro write none
    cases none
  | turn backend cursor =>
    simp only [slabStep] at stepped
    split_ifs at stepped
    obtain rfl := Option.some.inj stepped
    exact ⟨sound.chains, sound.readable, sound.writing⟩
  | leave backend =>
    obtain rfl := Option.some.inj stepped
    exact ⟨sound.chains, sound.readable, sound.writing⟩
  | extend page =>
    simp only [slabStep] at stepped
    split_ifs at stepped with kind
    obtain rfl := Option.some.inj stepped
    have same := slabAt_append state.pages page kind
    refine sound.others same (by simp) (sound.chains.of_same same (by simp) ?_)
    intro block other here exactKind
    rcases Nat.lt_or_ge block state.pages.length with before | behind
    · rwa [List.getElem?_append_left before] at here
    · rw [List.getElem?_append_right behind] at here
      obtain rfl := List.mem_singleton.mp (List.mem_of_getElem? here)
      exact absurd exactKind kind
  | rewrite block page =>
    simp only [slabStep] at stepped
    cases here : state.pages[block]? with
    | none =>
      rw [here] at stepped
      cases stepped
    | some old =>
      rw [here] at stepped
      dsimp only at stepped
      split_ifs at stepped with kinds
      obtain rfl := Option.some.inj stepped
      obtain ⟨oldKind, newKind⟩ := not_or.mp kinds
      have inside : block < state.pages.length := (List.getElem?_eq_some_iff.mp here).1
      have same : slabAt (state.pages.set block page) = slabAt state.pages := by
        funext other
        unfold slabAt
        by_cases there : other = block
        · rw [there, List.getElem?_set_self inside, here, Option.bind_some, Option.bind_some,
            if_neg oldKind, if_neg newKind]
        · rw [List.getElem?_set_ne (Ne.symm there)]
      refine sound.others same (by simp) (sound.chains.of_same same (by simp) ?_)
      intro other changed there exactKind
      by_cases place : other = block
      · rw [place, List.getElem?_set_self inside] at there
        obtain rfl := Option.some.inj there
        exact absurd exactKind newKind
      · rwa [List.getElem?_set_ne (Ne.symm place)] at there

/-! ### What a reader finds -/

theorem readExactPages_of_slabs {pages : List ExactPage} (chains : SlabPages pages)
    {exactOffno size fuel offset : Nat} {start : Option Nat} {copied bytes : List UInt8}
    (short : copied.length ≤ size)
    (read : readSlabs (slabAt pages) fuel start offset (size - copied.length) = some bytes) :
    readExactPages pages exactOffno size fuel start (offset + 1) copied = some (copied ++ bytes) := by
  induction fuel generalizing start offset copied bytes with
  | zero =>
    rw [readExactPages]
    cases left : size - copied.length with
    | zero =>
      rw [left] at read
      obtain rfl := Option.some.inj read
      rw [if_pos (Nat.sub_eq_zero_iff_le.mp left), List.append_nil]
    | succ rest =>
      rw [left] at read
      cases read
  | succ fuel ih =>
    rw [readExactPages]
    cases left : size - copied.length with
    | zero =>
      rw [left] at read
      obtain rfl : [] = bytes := by
        simpa only [readSlabs, Option.some.injEq] using read
      rw [if_pos (Nat.sub_eq_zero_iff_le.mp left), List.append_nil]
    | succ rest =>
      rw [left] at read
      rw [if_neg (by omega)]
      cases start with
      | none => cases read
      | some block =>
        rw [readSlabs] at read
        cases slab : slabAt pages block with
        | none =>
          rw [slab] at read
          cases read
        | some slab' =>
          rw [slab] at read
          dsimp only at read
          split_ifs at read with ended
          obtain ⟨later, tail, rfl⟩ := Option.map_eq_some_iff.mp read
          obtain ⟨page, here, kind, items, next, -⟩ := chains.page_of_slab slab
          have header : exactSlabHeader page = some ⟨exactSlabCapacity, slab'.data⟩ := by
            unfold exactSlabHeader
            rw [items]
          simp only [Option.bind_some, here, header, SlabHeader.used, Nat.add_sub_cancel]
          rw [if_neg (not_not.mpr kind), if_neg ended, next, ← left, ← List.append_assoc]
          refine ih ?_ ?_
          · rw [List.length_append, List.length_take]
            omega
          · rw [← left] at tail
            rw [List.length_append, ← Nat.sub_sub]
            exact tail

/-- **The entry of a vector that was written to its end reads the bytes of the vector.** -/
theorem completed_read {others : List ExactPage} {vectors : List (List UInt8)}
    {build : SlabBuild} {entries : List (Option SlabEntry)}
    (kinds : ∀ page ∈ others, page.kind ≠ some .quantExact)
    (sizes : ∀ vector ∈ vectors, vector.length = vectorSize dimensions)
    (ran : writeExactPages dimensions others vectors = .ok (build, entries))
    (reached : Reached (slabStep index dimensions) (builtSlab build entries vectors) state)
    {written : Completed} (member : written ∈ state.completed) :
    readExactVectorInto state.pages ⟨some written.entry.blkno, written.entry.offno, none⟩
      dimensions = some written.vector := by
  have sound : SlabSound dimensions state :=
    reached.invariant (SlabSound.built kinds sizes ran)
      fun before _ stepped => slabStep_sound before stepped
  obtain ⟨⟨offset, offno, read⟩, size⟩ := sound.readable written member
  unfold readExactVectorInto
  rw [if_neg (by rw [offno]; simp), offno, ← size]
  exact readExactPages_of_slabs sound.chains (Nat.zero_le _) read

/-- An index built with one vector of one dimension. A backend inserts another one, then an insert
of the same backend fails after its page was written, and the next one starts at its cursor. -/
def slabHistory : List SlabAction :=
  [.start 0 (List.replicate 12 2), .round, .finish true, .extend blankPage,
    .start 0 (List.replicate 12 3), .round, .abort, .start 0 (List.replicate 12 4), .round,
    .finish true]

theorem completed_read_cursor : ∃ state,
    Reached (slabStep ⟨1, 1⟩ 1)
      (builtSlab ⟨[emptyPage .other, { exactSlabPage with
        items := [.slab ⟨exactSlabCapacity, List.replicate 12 1⟩] }], some 1, some 1⟩
        [some ⟨1, 1⟩] [List.replicate 12 1]) state ∧
      ∃ written ∈ state.completed, written.entry = ⟨1, 37⟩ ∧
        readExactVectorInto state.pages ⟨some written.entry.blkno, written.entry.offno, none⟩ 1 =
          some (List.replicate 12 4) := by
  have run : runActions (slabStep ⟨1, 1⟩ 1)
      (builtSlab ⟨[emptyPage .other, { exactSlabPage with
        items := [.slab ⟨exactSlabCapacity, List.replicate 12 1⟩] }], some 1, some 1⟩
        [some ⟨1, 1⟩] [List.replicate 12 1]) slabHistory = some _ := rfl
  refine ⟨_, reached_of_run run, ⟨⟨1, 37⟩, List.replicate 12 4⟩,
    List.mem_of_getElem? (i := 2) rfl, rfl, ?_⟩
  exact @completed_read ⟨1, 1⟩ 1 _ [emptyPage .other] [List.replicate 12 1] _ _ (by decide)
    (by decide) rfl (reached_of_run run) _ (List.mem_of_getElem? (i := 2) rfl)

end Runs

end TurboHybrid.Exact
