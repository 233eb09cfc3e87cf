/-
**The writers of the base: one term after the other.**

The postings of a term are written in chunks, each linked from the one before, then its block
maximum, the head of its best postings and its lexicon entry. A disk keeps the pages together with
the writes that made them.

* `addItem`: an item goes to the last page of a chain, with or without a log;
* `writeLinkedChunk`, `writeImpactHead`, `writeLexiconItem`: the tuples of a term;
* `writeTerm`: the writer of the in-memory build;
* `writeTermFromRuns`: the writer of the merge, which cuts chunks while it reads postings;
* `writeTermFromRuns_eq`: both write the same.
-/
import Mathlib.Data.Rat.Cast.OfScientific
import TurboHybrid.Store.Page

namespace TurboHybrid.Store

open TurboHybrid.Index TurboHybrid.Library TurboHybrid.Query TurboHybrid.Scan

/-! ### Disks -/

/-- A write: the relation grows by a page, or pages change together. -/
inductive PageWrite (R : Type) where
  | extend
  | put (changes : List (BlockNumber × StorePage R))

section Disks

variable {R : Type}

def PageWrite.apply (pages : List (StorePage R)) : PageWrite R → List (StorePage R)
  | .extend => pages ++ [blankPage]
  | .put changes => changes.foldl (fun pages change => pages.set change.1 change.2) pages

structure Disk (R : Type) where
  pages : List (StorePage R)
  log : List (PageWrite R)

def Disk.write (disk : Disk R) (change : PageWrite R) : Disk R :=
  ⟨change.apply disk.pages, disk.log ++ [change]⟩

inductive WriteError where
  | tupleExceedsPage
  | unexpectedPageKind
  | failedToAdd
  | nodeIdOutOfRange
  | absentBlock
  | codec (error : CodecError)
  deriving DecidableEq, Repr

def WriteError.message : WriteError → String
  | .tupleExceedsPage => "pgturbohybrid BM25 tuple exceeds page size"
  | .unexpectedPageKind => "unexpected pgturbohybrid BM25 page kind while appending"
  | .failedToAdd => "failed to append pgturbohybrid BM25 WAL item"
  | .nodeIdOutOfRange => "pgturbohybrid BM25 doc nodeId out of range"
  | .absentBlock => "could not read block"
  | .codec error => error.message

/-- A failed writer, with the disk as it leaves it. -/
structure WriteFailure (R : Type) where
  error : WriteError
  disk : Disk R

/-- Where a writer stands in a chain: its start, the page it holds, the pages it counted. -/
structure ChainTail where
  start : Option BlockNumber
  current : Option BlockNumber
  pages : Nat
  deriving DecidableEq, Repr

/-- A page and the block it is at, as a writer holds it. -/
structure HeldPage (R : Type) where
  disk : Disk R
  tail : ChainTail
  blkno : BlockNumber
  page : StorePage R

/-- The last page of a chain of one kind, from a block on. -/
def findWalTail (kind : PageKind) (pages : List (StorePage R)) :
    Nat → BlockNumber → Except WriteError (BlockNumber × StorePage R)
  | 0, _ => .error .absentBlock
  | fuel + 1, blkno =>
    match pages[blkno]? with
    | none => .error .absentBlock
    | some page =>
      if page.kind ≠ some kind then .error .unexpectedPageKind
      else
        match page.next with
        | none => .ok (blkno, page)
        | some next => findWalTail kind pages fuel next

/-- The page a logged writer goes on with: the one it holds, a new first page, or the end of the
chain it was given. -/
def ensureWalTail (kind : PageKind) (disk : Disk R) (tail : ChainTail) :
    Except (WriteFailure R) (HeldPage R) :=
  match tail.current, tail.start with
  | some blkno, _ =>
    match disk.pages[blkno]? with
    | none => .error ⟨.absentBlock, disk⟩
    | some page =>
      if page.kind ≠ some kind then .error ⟨.unexpectedPageKind, disk⟩
      else .ok ⟨disk, tail, blkno, page⟩
  | none, none =>
    let blkno := disk.pages.length
    .ok ⟨(disk.write .extend).write (.put [(blkno, emptyPage kind)]),
      ⟨some blkno, some blkno, tail.pages + 1⟩, blkno, emptyPage kind⟩
  | none, some start =>
    match findWalTail kind disk.pages disk.pages.length start with
    | .error error => .error ⟨error, disk⟩
    | .ok (blkno, page) => .ok ⟨disk, { tail with current := some blkno }, blkno, page⟩

def addToPage (page : StorePage R) (item : StoreItem R) : StorePage R :=
  { page with items := page.items ++ [item] }

def linkTo (page : StorePage R) (next : BlockNumber) : StorePage R := { page with next := some next }

structure Added (R : Type) where
  disk : Disk R
  tail : ChainTail
  place : ItemRef

/-- The logged append: the new page, its link and the item are one write. -/
def addWalItem (kind : PageKind) (disk : Disk R) (tail : ChainTail) (item : StoreItem R) :
    Except (WriteFailure R) (Added R) := do
  let held ← ensureWalTail kind disk tail
  if fitsPage held.page.items item then
    return ⟨held.disk.write (.put [(held.blkno, addToPage held.page item)]), held.tail,
      ⟨held.blkno, held.page.items.length + 1⟩⟩
  else
    let extended := held.disk.write .extend
    let new := held.disk.pages.length
    if fitsPage [] item then
      return ⟨extended.write (.put [(held.blkno, linkTo held.page new),
          (new, addToPage (emptyPage kind) item)]),
        { held.tail with current := some new, pages := held.tail.pages + 1 }, ⟨new, 1⟩⟩
    else .error ⟨.failedToAdd, extended⟩

def appendPage (kind : PageKind) (disk : Disk R) (tail : ChainTail) : HeldPage R :=
  let new := disk.pages.length
  let extended := disk.write .extend
  let linked :=
    match tail.current.bind fun blkno => (disk.pages[blkno]?).map fun page => (blkno, page) with
    | none => extended
    | some (blkno, page) => extended.write (.put [(blkno, linkTo page new)])
  ⟨linked.write (.put [(new, emptyPage kind)]),
    ⟨some (tail.start.getD new), some new, tail.pages + 1⟩, new, emptyPage kind⟩

def holdPage (kind : PageKind) (disk : Disk R) (tail : ChainTail) (item : StoreItem R) :
    HeldPage R :=
  match tail.current.bind fun blkno => (disk.pages[blkno]?).map fun page => (blkno, page) with
  | none => appendPage kind disk tail
  | some (blkno, page) =>
    if fitsPage page.items item then ⟨disk, tail, blkno, page⟩ else appendPage kind disk tail

def addUnloggedItem (kind : PageKind) (disk : Disk R) (tail : ChainTail) (item : StoreItem R) :
    Except (WriteFailure R) (Added R) :=
  let held := holdPage kind disk tail item
  if fitsPage held.page.items item then
    .ok ⟨held.disk.write (.put [(held.blkno, addToPage held.page item)]), held.tail,
      ⟨held.blkno, held.page.items.length + 1⟩⟩
  else .error ⟨.failedToAdd, held.disk⟩

def addItem (useWal : Bool) (kind : PageKind) (disk : Disk R) (tail : ChainTail)
    (item : StoreItem R) : Except (WriteFailure R) (Added R) :=
  if maxItemSize < item.size then .error ⟨.tupleExceedsPage, disk⟩
  else if useWal then addWalItem kind disk tail item
  else addUnloggedItem kind disk tail item

/-- Set the link of a tuple, if it is one that has a link. -/
def linkItem (relink : StoreItem R → Option (StoreItem R)) (disk : Disk R) (place : ItemRef) :
    Disk R :=
  match disk.pages[place.blkno]? with
  | none => disk
  | some page =>
    match (page.items[place.offno - 1]?).bind relink with
    | none => disk
    | some item =>
      disk.write (.put [(place.blkno, { page with items := page.items.set (place.offno - 1) item })])

def linkPostings (next : ItemRef) : StoreItem R → Option (StoreItem R)
  | .postings tuple => some (.postings { tuple with next := some (next.blkno, next.offno) })
  | _ => none

def linkImpact (next : ItemRef) : StoreItem R → Option (StoreItem R)
  | .impact tuple => some (.impact { tuple with next := some next })
  | _ => none

def linkPostingsChunk (disk : Disk R) (prev : Option ItemRef) (next : ItemRef) : Disk R :=
  match prev with
  | none => disk
  | some prev => linkItem (linkPostings next) disk prev

def linkImpactChunk (disk : Disk R) (prev : Option ItemRef) (next : ItemRef) : Disk R :=
  match prev with
  | none => disk
  | some prev => linkItem (linkImpact next) disk prev

end Disks

/-! ### Norms and scores -/

/-- The options of an index and of its relation, with the functions of the mathematical library. -/
structure WriterOptions (R : Type) where
  useWal : Bool
  precomputeTfNorm : Bool
  k1 : R
  b : R
  impactHead : Bool
  impactMinDf : Nat
  impactHeadK : Nat
  lround : R → Int
  log : R → R

/-- The documents' counters and the lengths by node. -/
structure DocTotals where
  docCount : Nat
  totalDocLen : Nat
  denseDocLens : List Nat

variable {R : Type} [Field R] [LinearOrder R]

def buildNorm (options : WriterOptions R) (docs : DocTotals) (nodeId : Nat) : R :=
  let avgDocLen : R := if docs.docCount = 0 then 1 else docs.totalDocLen / docs.docCount
  let docLen : R := max (docs.denseDocLens.getD nodeId 0) 1
  options.k1 * (1 - options.b + options.b * docLen / max avgDocLen 1)

def buildPostingScore (options : WriterOptions R) (docs : DocTotals) (posting : TermPosting) : R :=
  (posting.tf * (options.k1 + 1)) / (posting.tf + buildNorm options docs posting.nodeId)

def quantizeTfNorm (options : WriterOptions R) (docs : DocTotals) (nodeId tf : Nat) :
    Fin (2 ^ 16) :=
  let quantized := options.lround
    (buildPostingScore options docs ⟨nodeId, tf⟩ / max (options.k1 + 1) 1 * uint16Max)
  Fin.ofNat (2 ^ 16) (min quantized.toNat uint16Max)

/-- The inverse document frequency of a head's scores. -/
def impactIdf (options : WriterOptions R) (docs : DocTotals) (df : Nat) : R :=
  options.log (1 + (max (docs.docCount : R) 1 - df + 0.5) / ((df : R) + 0.5))

/-! ### The tuples of a term -/

structure TermSink (R : Type) where
  disk : Disk R
  lexicon : ChainTail
  postings : ChainTail
  blockMax : ChainTail
  impact : ChainTail
  termId : Nat

structure PostingsRun where
  first : Option ItemRef
  prev : Option ItemRef
  bytes : Nat
  chunkCount : Nat

def PostingsRun.start : PostingsRun := ⟨none, none, 0, 0⟩

def encoded {Value : Type} (disk : Disk R) :
    Except CodecError Value → Except (WriteFailure R) Value
  | .ok value => .ok value
  | .error error => .error ⟨.codec error, disk⟩

/-- One more chunk of a term, linked from the one before. -/
def writeLinkedChunk (options : WriterOptions R) (docs : DocTotals)
    (state : TermSink R × PostingsRun) (chunk : List TermPosting) :
    Except (WriteFailure R) (TermSink R × PostingsRun) := do
  let sink := state.1
  let run := state.2
  let tuple ← encoded sink.disk (encodePostingsTuple (quantizeTfNorm options docs)
    options.precomputeTfNorm sink.termId run.chunkCount chunk)
  let added ← addItem options.useWal .postings sink.disk sink.postings (.postings tuple)
  return ({ sink with
      disk := linkPostingsChunk added.disk run.prev added.place
      postings := added.tail },
    { first := run.first.or (some added.place)
      prev := some added.place
      bytes := run.bytes + (StoreItem.postings tuple : StoreItem R).size
      chunkCount := run.chunkCount + 1 })

/-- The postings cut into chunks, all full but the last. -/
def chunksOf {Item : Type} (size : Nat) : Nat → List Item → List (List Item)
  | 0, _ => []
  | _, [] => []
  | fuel + 1, item :: rest =>
    (item :: rest).take size :: chunksOf size fuel ((item :: rest).drop size)

def writePostings (options : WriterOptions R) (docs : DocTotals) (sink : TermSink R)
    (postings : List TermPosting) : Except (WriteFailure R) (TermSink R × PostingsRun) :=
  (chunksOf maxPostingsPerChunk postings.length postings).foldlM (writeLinkedChunk options docs)
    (sink, .start)

structure TermTotals where
  df : Nat
  cf : Nat
  prevNode : Nat
  maxTf : Nat
  firstNodeId : Nat
  lastNodeId : Nat
  deriving DecidableEq, Repr

def TermTotals.start : TermTotals := ⟨0, 0, uint32Max, 0, uint32Max, 0⟩

def TermTotals.add (totals : TermTotals) (posting : TermPosting) : TermTotals where
  df := if posting.nodeId ≠ totals.prevNode then totals.df + 1 else totals.df
  cf := totals.cf + posting.tf
  prevNode := posting.nodeId
  maxTf := max totals.maxTf posting.tf
  firstNodeId := if totals.firstNodeId = uint32Max then posting.nodeId else totals.firstNodeId
  lastNodeId := posting.nodeId

def writeBlockMax (options : WriterOptions R) (sink : TermSink R)
    (firstNodeId lastNodeId maxTf : Nat) : Except (WriteFailure R) (TermSink R × ItemRef) := do
  let added ← addItem options.useWal .blockMax sink.disk sink.blockMax
    (.blockMax ⟨sink.termId, firstNodeId, lastNodeId, maxTf⟩)
  return ({ sink with disk := added.disk, blockMax := added.tail }, added.place)

def impactEntry (options : WriterOptions R) (docs : DocTotals) (posting : TermPosting) :
    ImpactTupleEntry R :=
  ⟨posting.nodeId, quantizeTfNorm options docs posting.nodeId posting.tf,
    buildPostingScore options docs posting⟩

/-- The order of a head: best score first, then least node. -/
def impactBefore (one other : ImpactTupleEntry R) : Bool :=
  decide (other.score < one.score) ||
    (!decide (one.score < other.score) && decide (one.nodeId ≤ other.nodeId))

def maxImpactEntries : Nat := (8192 / 2 - 16) / 12

def writeImpactTuple (options : WriterOptions R) (state : TermSink R × PostingsRun)
    (entries : List (ImpactTupleEntry R)) :
    Except (WriteFailure R) (TermSink R × PostingsRun) := do
  let sink := state.1
  let run := state.2
  let added ← addItem options.useWal .impact sink.disk sink.impact
    (.impact ⟨sink.termId, none, entries⟩)
  return ({ sink with
      disk := linkImpactChunk added.disk run.prev added.place
      impact := added.tail },
    { run with first := run.first.or (some added.place), prev := some added.place })

/-- The best postings of a term frequent enough for a head, and their number. -/
def writeImpactHead (options : WriterOptions R) (docs : DocTotals) (sink : TermSink R)
    (entries : List (ImpactTupleEntry R)) (df : Nat) :
    Except (WriteFailure R) (TermSink R × Option ItemRef × Nat) :=
  if options.impactHead = false ∨ df < max options.impactMinDf 1 ∨ entries = [] then
    .ok (sink, none, 0)
  else do
    let scaled := entries.map fun entry =>
      { entry with score := entry.score * impactIdf options docs df }
    let sorted := scaled.insertionSort fun one other => impactBefore one other
    let head := sorted.take (min (max options.impactHeadK 1) uint16Max)
    let written ← (chunksOf maxImpactEntries head.length head).foldlM (writeImpactTuple options)
      (sink, .start)
    return (written.1, written.2.first, head.length)

structure TermName where
  termHash : UInt64
  term : Lexeme
  deriving DecidableEq, Repr

def writeLexiconItem (options : WriterOptions R) (sink : TermSink R) (name : TermName)
    (totals : TermTotals) (run : PostingsRun) (blockMax : ItemRef) (impact : Option ItemRef)
    (impactCount : Nat) : Except (WriteFailure R) (TermSink R) := do
  let added ← addItem options.useWal .lexicon sink.disk sink.lexicon
    (.lexicon ⟨name.termHash, name.term, sink.termId, totals.df, totals.cf, run.first,
      run.chunkCount, run.bytes, some blockMax, impact, impactCount⟩)
  return { sink with disk := added.disk, lexicon := added.tail, termId := sink.termId + 1 }

def finishTerm (options : WriterOptions R) (docs : DocTotals) (name : TermName)
    (written : TermSink R × PostingsRun) (totals : TermTotals)
    (entries : List (ImpactTupleEntry R)) : Except (WriteFailure R) (TermSink R) := do
  let blockMax ← writeBlockMax options written.1 totals.firstNodeId totals.lastNodeId totals.maxTf
  let impact ← writeImpactHead options docs blockMax.1 entries totals.df
  writeLexiconItem options impact.1 name totals written.2 blockMax.2 impact.2.1 impact.2.2

/-! ### The two writers of a term -/

/-- **The writer of the in-memory build.** The first and last node and the largest frequency are
read off the term's part of the sorted array. -/
def writeTerm (options : WriterOptions R) (docs : DocTotals) (sink : TermSink R) (name : TermName)
    (postings : List TermPosting) : Except (WriteFailure R) (TermSink R) := do
  let totals := postings.foldl TermTotals.add .start
  let written ← writePostings options docs sink postings
  finishTerm options docs name written
    { totals with
      firstNodeId := (postings.head?.map TermPosting.nodeId).getD 0
      lastNodeId := (postings.getLast?.map TermPosting.nodeId).getD 0
      maxTf := maxOf (postings.map TermPosting.tf) }
    (postings.map (impactEntry options docs))

/-- What the merge has of a term: the chunks written, the chunk being filled, the counters and the
entries for the head. -/
structure TermScan (R : Type) where
  written : TermSink R × PostingsRun
  chunk : List TermPosting
  totals : TermTotals
  entries : List (ImpactTupleEntry R)

def flushChunk (options : WriterOptions R) (docs : DocTotals) (scan : TermScan R) :
    Except (WriteFailure R) (TermScan R) := do
  let written ← writeLinkedChunk options docs scan.written scan.chunk
  return { scan with written := written, chunk := [] }

def scanPosting (options : WriterOptions R) (docs : DocTotals) (scan : TermScan R)
    (posting : TermPosting) : Except (WriteFailure R) (TermScan R) :=
  let next : TermScan R :=
    { scan with
      chunk := scan.chunk ++ [posting]
      totals := scan.totals.add posting
      entries := scan.entries ++ [impactEntry options docs posting] }
  if next.chunk.length = maxPostingsPerChunk then flushChunk options docs next else .ok next

def flushRest (options : WriterOptions R) (docs : DocTotals) (scan : TermScan R) :
    Except (WriteFailure R) (TermScan R) :=
  if scan.chunk ≠ [] then flushChunk options docs scan else .ok scan

/-- **The writer of the merge.** -/
def writeTermFromRuns (options : WriterOptions R) (docs : DocTotals) (sink : TermSink R)
    (name : TermName) (postings : List TermPosting) : Except (WriteFailure R) (TermSink R) := do
  let scan ← postings.foldlM (scanPosting options docs) ⟨(sink, .start), [], .start, []⟩
  let scan ← flushRest options docs scan
  finishTerm options docs name scan.written scan.totals scan.entries

/-! ### Chunks -/

section Chunks

variable {Item : Type} {size : Nat}

@[simp] theorem chunksOf_nil (fuel : Nat) : chunksOf size fuel ([] : List Item) = [] := by
  cases fuel <;> rfl

theorem chunksOf_fuel (positive : 0 < size) {fuel more : Nat} {items : List Item}
    (enough : items.length ≤ fuel) (enough' : items.length ≤ more) :
    chunksOf size fuel items = chunksOf size more items := by
  induction fuel generalizing more items with
  | zero =>
    rw [List.length_eq_zero_iff.mp (Nat.le_zero.mp enough), chunksOf_nil, chunksOf_nil]
  | succ fuel ih =>
    cases items with
    | nil => rw [chunksOf_nil, chunksOf_nil]
    | cons item rest =>
      obtain ⟨more, rfl⟩ : ∃ less, more = less + 1 := ⟨more - 1, by simp at enough'; omega⟩
      rw [List.length_cons] at enough enough'
      rw [chunksOf, chunksOf]
      congr 1
      refine ih ?_ ?_ <;> rw [List.length_drop, List.length_cons] <;> omega

theorem chunksOf_append {front back : List Item} (positive : 0 < size)
    (full : front.length = size) :
    chunksOf size (front ++ back).length (front ++ back) =
      front :: chunksOf size back.length back := by
  cases front with
  | nil => simp at full; omega
  | cons item rest =>
    rw [List.cons_append, List.length_cons, chunksOf, ← List.cons_append, List.take_left' full,
      List.drop_left' full]
    congr 1
    exact chunksOf_fuel positive (by rw [List.length_append]; omega) le_rfl

theorem chunksOf_short {items : List Item} (nonempty : items ≠ []) (short : items.length ≤ size) :
    chunksOf size items.length items = [items] := by
  cases items with
  | nil => exact absurd rfl nonempty
  | cons item rest =>
    rw [List.length_cons, chunksOf, List.take_of_length_le short, List.drop_of_length_le short,
      chunksOf_nil]

end Chunks

/-! ### The same writes -/

section Same

variable (options : WriterOptions R) (docs : DocTotals)

theorem maxPostingsPerChunk_pos : 0 < maxPostingsPerChunk := by
  rw [maxPostingsPerChunk_eq]
  omega

/-- **Cutting chunks while reading** writes what cutting the whole list writes. -/
theorem scanPostings_eq (postings : List TermPosting) (scan : TermScan R)
    (filling : scan.chunk.length < maxPostingsPerChunk) :
    (postings.foldlM (scanPosting options docs) scan >>= flushRest options docs) =
      ((chunksOf maxPostingsPerChunk (scan.chunk ++ postings).length
          (scan.chunk ++ postings)).foldlM (writeLinkedChunk options docs) scan.written).map
        fun written => ⟨written, [], postings.foldl TermTotals.add scan.totals,
          scan.entries ++ postings.map (impactEntry options docs)⟩ := by
  induction postings generalizing scan with
  | nil =>
    obtain ⟨written, chunk, totals, entries⟩ := scan
    rw [List.append_nil, List.foldlM_nil]
    show flushRest options docs _ = _
    unfold flushRest
    by_cases empty : chunk = []
    · subst empty
      rw [if_neg (by simp)]
      simp [Except.map, pure, Except.pure]
    · rw [if_pos empty, chunksOf_short empty filling.le]
      rw [List.foldlM_cons, flushChunk]
      cases writeLinkedChunk options docs written chunk with
      | error failure => rfl
      | ok next => simp [Except.map, bind, Except.bind, pure, Except.pure]
  | cons posting rest ih =>
    obtain ⟨written, chunk, totals, entries⟩ := scan
    rw [List.foldlM_cons, scanPosting]
    dsimp only at filling ⊢
    have joined : chunk ++ posting :: rest = (chunk ++ [posting]) ++ rest := by simp
    have entriesJoined : entries ++ (posting :: rest).map (impactEntry options docs) =
        (entries ++ [impactEntry options docs posting]) ++
          rest.map (impactEntry options docs) := by
      simp
    rw [joined, entriesJoined, List.foldl_cons]
    by_cases full : (chunk ++ [posting]).length = maxPostingsPerChunk
    · rw [if_pos full, chunksOf_append maxPostingsPerChunk_pos full, List.foldlM_cons, flushChunk]
      cases writeLinkedChunk options docs written (chunk ++ [posting]) with
      | error failure => rfl
      | ok next => exact ih ⟨next, [], _, _⟩ maxPostingsPerChunk_pos
    · rw [if_neg full]
      refine ih ⟨written, chunk ++ [posting], _, _⟩ ?_
      rw [List.length_append, List.length_singleton] at full ⊢
      show chunk.length + 1 < maxPostingsPerChunk
      omega

theorem foldl_totals (postings : List TermPosting) (totals : TermTotals)
    (known : totals.firstNodeId ≠ uint32Max) :
    (postings.foldl TermTotals.add totals).firstNodeId = totals.firstNodeId ∧
      (postings.foldl TermTotals.add totals).lastNodeId =
        (postings.getLast?.map TermPosting.nodeId).getD totals.lastNodeId ∧
      (postings.foldl TermTotals.add totals).maxTf =
        (postings.map TermPosting.tf).foldl max totals.maxTf := by
  induction postings generalizing totals with
  | nil => exact ⟨rfl, rfl, rfl⟩
  | cons posting rest ih =>
    have same : (totals.add posting).firstNodeId = totals.firstNodeId := if_neg known
    obtain ⟨first, last, largest⟩ := ih (totals.add posting) (same ▸ known)
    refine ⟨first.trans same, last.trans ?_, largest⟩
    rw [List.getLast?_cons]
    cases rest.getLast? <;> rfl

theorem totals_same {totals : TermTotals} {firstNodeId lastNodeId maxTf : Nat}
    (first : totals.firstNodeId = firstNodeId) (last : totals.lastNodeId = lastNodeId)
    (largest : totals.maxTf = maxTf) :
    { totals with firstNodeId := firstNodeId, lastNodeId := lastNodeId, maxTf := maxTf } =
      totals := by
  subst first last largest
  rfl

/-- **The merge writes a term as the in-memory build does.** -/
theorem writeTermFromRuns_eq (sink : TermSink R) (name : TermName) {postings : List TermPosting}
    (nonempty : postings ≠ []) (known : ∀ posting ∈ postings, posting.nodeId ≠ uint32Max) :
    writeTermFromRuns options docs sink name postings =
      writeTerm options docs sink name postings := by
  have scanned := scanPostings_eq options docs postings ⟨(sink, .start), [], .start, []⟩
    maxPostingsPerChunk_pos
  have totals : ({ postings.foldl TermTotals.add .start with
      firstNodeId := (postings.head?.map TermPosting.nodeId).getD 0
      lastNodeId := (postings.getLast?.map TermPosting.nodeId).getD 0
      maxTf := maxOf (postings.map TermPosting.tf) } : TermTotals) =
      postings.foldl TermTotals.add .start := by
    obtain ⟨first, rest, rfl⟩ := List.exists_cons_of_ne_nil nonempty
    obtain ⟨firstNode, lastNode, largest⟩ := foldl_totals rest (TermTotals.start.add first)
      (known first List.mem_cons_self)
    have last : (((first :: rest).getLast?).map TermPosting.nodeId).getD 0 =
        (rest.getLast?.map TermPosting.nodeId).getD first.nodeId := by
      rw [List.getLast?_cons]
      cases rest.getLast? <;> rfl
    have most : maxOf ((first :: rest).map TermPosting.tf) =
        (rest.map TermPosting.tf).foldl max (max 0 first.tf) := rfl
    rw [last, most, List.foldl_cons]
    exact totals_same firstNode lastNode largest
  have streamed : writeTermFromRuns options docs sink name postings =
      ((postings.foldlM (scanPosting options docs) ⟨(sink, .start), [], .start, []⟩ >>=
        flushRest options docs) >>= fun scan =>
          finishTerm options docs name scan.written scan.totals scan.entries) :=
    (bind_assoc _ _ _).symm
  rw [streamed, scanned, writeTerm, totals, writePostings]
  dsimp only [List.nil_append]
  cases (chunksOf maxPostingsPerChunk postings.length postings).foldlM
    (writeLinkedChunk options docs) (sink, PostingsRun.start) <;> rfl

end Same

end TurboHybrid.Store
