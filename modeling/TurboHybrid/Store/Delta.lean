/-
**Inserted documents: the delta's chains.**

An insert appends the document to the delta chain, one segment for each of its terms to the chain
of the term's bucket, and a new directory of the buckets; the metadata then names what it wrote.
The end of the delta chain is taken from the backend's cursor where that still fits the metadata.

* `appendDelta`: the insert, with its errors;
* `appendDelta_spec`: an insert adds its document to that list, or none if it fails;
* `runDelta_spec`: so does a history of inserts of any backends.
-/
import TurboHybrid.Reader.Cache
import TurboHybrid.Store.Page

namespace TurboHybrid.Store

open TurboHybrid.Index TurboHybrid.Library TurboHybrid.Query TurboHybrid.Reader TurboHybrid.Scan

variable {R : Type}

/-! ### Documents -/

/-- A lexeme of a text and the number of its positions, which may be left out. Lexeme lengths have
eleven bits. -/
structure WordEntry where
  lexeme : Lexeme
  positions : Nat
  short : lexeme.length < 2048

def WordEntry.single (byte : UInt8) (positions : Nat) : WordEntry :=
  ⟨[byte], positions, (by simp : [byte].length < 2048)⟩

def WordEntry.tf (entry : WordEntry) : Nat := if 0 < entry.positions then entry.positions else 1

def docLen (vector : List WordEntry) : Nat := (vector.map WordEntry.tf).sum

/-- The terms of a document; the empty lexeme is none. -/
def collectVectorTerms (vector : List WordEntry) : List DeltaTerm :=
  (vector.filter fun entry => decide (0 < entry.lexeme.length)).map fun entry =>
    ⟨hashTerm entry.lexeme, entry.lexeme, entry.tf⟩

/-- A call of the insert, under the memory budget of its backend. -/
structure Insertion where
  nodeId : Nat
  heaptid : ItemPointer
  vector : List WordEntry
  softBudget : Nat

def Insertion.delta (insertion : Insertion) : DeltaTuple :=
  ⟨insertion.nodeId, insertion.heaptid, docLen insertion.vector,
    collectVectorTerms insertion.vector⟩

/-! ### State -/

structure DeltaMeta where
  deltaStartBlkno : Option BlockNumber
  deltaTermDirectoryBlkno : Option BlockNumber
  deltaGeneration : Nat
  deltaDocCount : Nat
  deltaTotalDocLen : Nat
  deltaTermCount : Nat
  deltaPages : Nat
  deltaTermPages : Nat

/-- Where a backend left the delta of the relation it last inserted into. -/
structure DeltaCursor where
  relid : Nat
  relfilenumber : Nat
  start : BlockNumber
  tail : BlockNumber
  generation : Nat
  pages : Nat

/-- The pages of an index, its delta's metadata and the cursors of the backends. -/
structure DeltaState (R : Type*) where
  relid : Nat
  relfilenumber : Nat
  logged : Bool
  pages : List (StorePage R)
  deltaMeta : DeltaMeta
  cursors : Nat → Option DeltaCursor

inductive DeltaError where
  | exceededBudget
  | tooManyTerms
  | tupleExceedsPage
  | termTupleExceedsPage
  | directoryPageKind
  | directoryBucketCount
  | absentBlock
  | append (error : ChainError)
  deriving DecidableEq, Repr

def DeltaError.message : DeltaError → String
  | .exceededBudget => "pgturbohybrid BM25 build collector exceeded maintenance_work_mem"
  | .tooManyTerms => "pgturbohybrid BM25 delta document has too many distinct terms"
  | .tupleExceedsPage => "pgturbohybrid BM25 delta tuple exceeds page size"
  | .termTupleExceedsPage => "pgturbohybrid BM25 delta term tuple exceeds page size"
  | .directoryPageKind => "pgturbohybrid BM25 delta term directory has unexpected page kind"
  | .directoryBucketCount => "pgturbohybrid BM25 delta term directory has invalid bucket count"
  | .absentBlock => "could not read block"
  | .append .unexpectedKind => "unexpected pgturbohybrid graph page kind while appending"
  | .append _ => "failed to append pgturbohybrid graph tuple"

/-- A failed insert, with the pages as it leaves them. -/
structure DeltaFailure (R : Type*) where
  error : DeltaError
  pages : List (StorePage R)

def appendItem (logged : Bool) (kind : PageKind) (pages : List (StorePage R))
    (start : Option BlockNumber) (item : StoreItem R) :
    Except (DeltaFailure R) (Appended PageKind (StoreItem R)) :=
  match appendTuple fitsPage logged kind pages start item with
  | .ok appended => .ok appended
  | .error refused => .error ⟨.append refused.error, refused.pages⟩

/-! ### The insert -/

def initDeltaDirectory : DeltaDirectory := List.replicate deltaTermBuckets ⟨none, none, 0⟩

def readDeltaDirectory (pages : List (StorePage R)) (blkno : Option BlockNumber) :
    Except DeltaError (Option DeltaDirectory) :=
  match blkno with
  | none => .ok none
  | some blkno =>
    match pages[blkno]? with
    | none => .error .absentBlock
    | some page =>
      if page.kind ≠ some .deltaTerm then .error .directoryPageKind
      else
        match page.items.findSome? StoreItem.deltaDirectory? with
        | none => .ok none
        | some directory =>
          if directory.length ≠ deltaTermBuckets then .error .directoryBucketCount
          else .ok (some directory)

/-- A read during an insert, whose error leaves the pages as they are. -/
def whileReading {Value : Type} (pages : List (StorePage R)) :
    Except DeltaError Value → Except (DeltaFailure R) Value
  | .ok value => .ok value
  | .error error => .error ⟨error, pages⟩

/-- The number of pages of a chain and its last block. The walk stops at a page of another kind. -/
def countChainPagesAndTail (kind : PageKind) (pages : List (StorePage R)) :
    Nat → Option BlockNumber → Nat × Option BlockNumber
  | 0, _ => (0, none)
  | _, none => (0, none)
  | fuel + 1, some blkno =>
    match pages[blkno]? with
    | none => (0, none)
    | some page =>
      if page.kind ≠ some kind then (0, none)
      else
        let (count, tail) := countChainPagesAndTail kind pages fuel page.next
        (count + 1, some (tail.getD blkno))

/-- The pages while segments are appended, and the directory as it will be written. -/
structure SegmentState (R : Type*) where
  pages : List (StorePage R)
  directory : DeltaDirectory

def deltaTermTuple (delta : DeltaTuple) (term : DeltaTerm) : DeltaTermTuple :=
  ⟨term.termHash, term.term, [⟨delta.nodeId, delta.heaptid, delta.docLen, term.tf⟩]⟩

def growBucket (bucket : DeltaTermBucket) (appendStart insertBlkno : BlockNumber) :
    DeltaTermBucket where
  startBlkno := some (bucket.startBlkno.getD appendStart)
  tailBlkno := some insertBlkno
  pages :=
    if bucket.startBlkno = none then 1
    else if bucket.tailBlkno ≠ some insertBlkno then bucket.pages + 1
    else bucket.pages

def appendDeltaTermSegment (logged : Bool) (delta : DeltaTuple) (state : SegmentState R)
    (term : DeltaTerm) : Except (DeltaFailure R) (SegmentState R) :=
  if maxItemSize < deltaTermTupleSize 1 term.term.length then
    .error ⟨.termTupleExceedsPage, state.pages⟩
  else do
    let bucketNo := deltaTermBucketNo term.termHash
    let bucket := state.directory.getD bucketNo ⟨none, none, 0⟩
    let appended ← appendItem logged .deltaTerm state.pages
      (bucket.tailBlkno.or bucket.startBlkno) (.deltaTerm (deltaTermTuple delta term))
    return ⟨appended.pages,
      state.directory.set bucketNo (growBucket bucket appended.start appended.insertBlock)⟩

def appendDeltaTermSegments (logged : Bool) (delta : DeltaTuple) (state : SegmentState R) :
    Except (DeltaFailure R) (SegmentState R) :=
  delta.terms.foldlM (appendDeltaTermSegment logged delta) state

def deltaDirectoryTermPages (directory : DeltaDirectory) : Nat :=
  (directory.map DeltaTermBucket.pages).sum

/-- Whether a backend's cursor is for the delta as the metadata has it. -/
def cursorHit (state : DeltaState R) (cursor : DeltaCursor) : Bool :=
  cursor.relid == state.relid && cursor.relfilenumber == state.relfilenumber &&
    cursor.generation == state.deltaMeta.deltaGeneration &&
    some cursor.start == state.deltaMeta.deltaStartBlkno

/-- The number of pages of the delta chain and its last block. -/
def deltaTailOf (state : DeltaState R) (backend : Nat) : Nat × Option BlockNumber :=
  match (state.cursors backend).filter (cursorHit state) with
  | some cursor => (cursor.pages, some cursor.tail)
  | none =>
    countChainPagesAndTail .delta state.pages state.pages.length state.deltaMeta.deltaStartBlkno

/-- The pages of the delta chain after its document went to a block. -/
def deltaPagesAfter (pages : List (StorePage R)) (start tail : Option BlockNumber)
    (deltaPages insertBlkno : Nat) : Nat :=
  if start = none then 1
  else
    match tail with
    | none => (countChainPagesAndTail .delta pages pages.length start).1
    | some tail => if insertBlkno ≠ tail then deltaPages + 1 else deltaPages

def publishDelta (state : DeltaState R) (backend : Nat) (delta : DeltaTuple)
    (pages : List (StorePage R)) (deltaStart tail directoryBlkno deltaPages deltaTermPages : Nat) :
    DeltaState R :=
  let generation := state.deltaMeta.deltaGeneration + 1
  { state with
    pages := pages
    deltaMeta :=
      { deltaStartBlkno := some deltaStart
        deltaTermDirectoryBlkno := some directoryBlkno
        deltaGeneration := generation
        deltaDocCount := state.deltaMeta.deltaDocCount + 1
        deltaTotalDocLen := state.deltaMeta.deltaTotalDocLen + delta.docLen
        deltaTermCount := state.deltaMeta.deltaTermCount + delta.terms.length
        deltaPages := deltaPages
        deltaTermPages := deltaTermPages }
    cursors := Function.update state.cursors backend
      (some ⟨state.relid, state.relfilenumber, deltaStart, tail, generation, deltaPages⟩) }

def storeDelta (state : DeltaState R) (backend : Nat) (delta : DeltaTuple) :
    Except (DeltaFailure R) (DeltaState R) := do
  let directory ← whileReading state.pages
    (readDeltaDirectory state.pages state.deltaMeta.deltaTermDirectoryBlkno)
  let document ← appendItem state.logged .delta state.pages
    ((deltaTailOf state backend).2.or state.deltaMeta.deltaStartBlkno) (.delta delta)
  let segments ← appendDeltaTermSegments state.logged delta
    ⟨document.pages, directory.getD initDeltaDirectory⟩
  let written ← appendItem state.logged .deltaTerm segments.pages none
    (.deltaDirectory segments.directory)
  return publishDelta state backend delta written.pages
    (state.deltaMeta.deltaStartBlkno.getD document.start) document.insertBlock written.start
    (deltaPagesAfter document.pages state.deltaMeta.deltaStartBlkno
      (deltaTailOf state backend).2 (deltaTailOf state backend).1 document.insertBlock)
    (deltaDirectoryTermPages segments.directory)

def appendDelta (state : DeltaState R) (backend : Nat) (insertion : Insertion) :
    DeltaState R × Option DeltaError :=
  let delta := insertion.delta
  if insertion.softBudget < 24 * delta.terms.length + termBytesLen delta.terms then
    (state, some .exceededBudget)
  else if uint16Max < delta.terms.length then (state, some .tooManyTerms)
  else if maxItemSize < (StoreItem.delta delta : StoreItem R).size then
    (state, some .tupleExceedsPage)
  else
    match storeDelta state backend delta with
    | .ok stored => (stored, none)
    | .error failure => ({ state with pages := failure.pages }, some failure.error)

/-- The inserts a page and the budget have room for. -/
def Insertion.accepted (insertion : Insertion) : Bool :=
  decide (24 * insertion.delta.terms.length + termBytesLen insertion.delta.terms ≤
      insertion.softBudget) &&
    decide (insertion.delta.terms.length ≤ uint16Max) &&
    decide (deltaTupleSize insertion.delta.terms.length (termBytesLen insertion.delta.terms) ≤
      pageCapacity)

/-- What happens to the delta: a backend inserts, or a backend starts or inserts into another
relation, which takes its cursor. -/
inductive DeltaAction where
  | insert (backend : Nat) (insertion : Insertion)
  | elsewhere (backend : Nat)

def DeltaAction.apply (state : DeltaState R) : DeltaAction → DeltaState R
  | .insert backend insertion => (appendDelta state backend insertion).1
  | .elsewhere backend => { state with cursors := Function.update state.cursors backend none }

def runDelta (state : DeltaState R) (history : List DeltaAction) : DeltaState R :=
  history.foldl DeltaAction.apply state

def DeltaAction.document : DeltaAction → Option DeltaTuple
  | .insert _ insertion => if insertion.accepted then some insertion.delta else none
  | .elsewhere _ => none

/-! ### What the chains hold -/

def segmentsOf (documents : List DeltaTuple) : List DeltaTermTuple :=
  documents.flatMap fun delta => delta.terms.map (deltaTermTuple delta)

def inBucket (bucketNo : Nat) (segments : List DeltaTermTuple) : List DeltaTermTuple :=
  segments.filter fun segment => deltaTermBucketNo segment.termHash == bucketNo

def bucketAt (directory : DeltaDirectory) (bucketNo : Nat) : DeltaTermBucket :=
  directory.getD bucketNo ⟨none, none, 0⟩

/-- The chains of a directory's buckets hold the segments of each bucket, in order. -/
structure BucketChains (pages : List (StorePage R)) (directory : DeltaDirectory)
    (blocksOf : Nat → List Nat) (segments : List DeltaTermTuple) : Prop where
  length : directory.length = deltaTermBuckets
  chain : ∀ bucketNo < deltaTermBuckets,
    IsChain .deltaTerm pages (bucketAt directory bucketNo).startBlkno (blocksOf bucketNo)
  items : ∀ bucketNo < deltaTermBuckets,
    blockItems pages (blocksOf bucketNo) = (inBucket bucketNo segments).map .deltaTerm
  tail : ∀ bucketNo < deltaTermBuckets, ∀ tail,
    (bucketAt directory bucketNo).tailBlkno = some tail → tail ∈ blocksOf bucketNo
  noTail : ∀ bucketNo < deltaTermBuckets, (bucketAt directory bucketNo).tailBlkno = none →
    (bucketAt directory bucketNo).startBlkno = none
  apart : ∀ one < deltaTermBuckets, ∀ other < deltaTermBuckets, one ≠ other →
    List.Disjoint (blocksOf one) (blocksOf other)

/-- The delta chain holds the documents, in order. -/
structure DocumentChain (pages : List (StorePage R)) (start : Option BlockNumber)
    (blocks : List Nat) (documents : List DeltaTuple) : Prop where
  chain : IsChain .delta pages start blocks
  items : blockItems pages blocks = documents.map .delta

/-- The directory the metadata names is that of the documents' segments; without documents there
may be none. -/
def DirectoryFor (pages : List (StorePage R)) (blkno : Option BlockNumber)
    (documents : List DeltaTuple) : Prop :=
  (blkno = none ∧ documents = []) ∨
    ∃ block directory blocksOf, blkno = some block ∧
      pages[block]? = some ⟨some .deltaTerm, [.deltaDirectory directory], none⟩ ∧
        BucketChains pages directory blocksOf (segmentsOf documents)

/-- A backend's cursor is for a known chain, and stands on the delta chain if it is for that. -/
structure CursorStands (state : DeltaState R) (blocks : List Nat) (cursor : DeltaCursor) :
    Prop where
  known : cursor.start < state.pages.length
  stands : some cursor.start = state.deltaMeta.deltaStartBlkno → cursor.tail ∈ blocks

/-- **The delta of a state** is that of the documents. -/
def Holds (state : DeltaState R) (documents : List DeltaTuple) : Prop :=
  ∃ blocks, DocumentChain state.pages state.deltaMeta.deltaStartBlkno blocks documents ∧
    DirectoryFor state.pages state.deltaMeta.deltaTermDirectoryBlkno documents ∧
      ∀ backend cursor, state.cursors backend = some cursor → CursorStands state blocks cursor

theorem segmentsOf_snoc (documents : List DeltaTuple) (delta : DeltaTuple) :
    segmentsOf (documents ++ [delta]) =
      segmentsOf documents ++ delta.terms.map (deltaTermTuple delta) := by
  simp [segmentsOf]

theorem inBucket_snoc (bucketNo : Nat) (segments : List DeltaTermTuple) (segment : DeltaTermTuple) :
    inBucket bucketNo (segments ++ [segment]) = inBucket bucketNo segments ++
      if deltaTermBucketNo segment.termHash = bucketNo then [segment] else [] := by
  rw [inBucket, List.filter_append, List.filter_singleton]
  by_cases here : deltaTermBucketNo segment.termHash = bucketNo
  · rw [if_pos here, beq_iff_eq.mpr here]
    rfl
  · rw [if_neg here, beq_eq_false_iff_ne.mpr here]
    rfl

theorem deltaTermBucketNo_lt (termHash : UInt64) : deltaTermBucketNo termHash < deltaTermBuckets :=
  Nat.mod_lt _ (by decide)

theorem bucketAt_set {directory : DeltaDirectory} {bucketNo : Nat} (bucket : DeltaTermBucket)
    (inside : bucketNo < directory.length) (other : Nat) :
    bucketAt (directory.set bucketNo bucket) other =
      if other = bucketNo then bucket else bucketAt directory other := by
  unfold bucketAt
  rw [List.getD_eq_getElem?_getD, List.getD_eq_getElem?_getD]
  by_cases here : other = bucketNo
  · rw [if_pos here, here, List.getElem?_set_self inside]
    rfl
  · rw [if_neg here, List.getElem?_set_ne (Ne.symm here)]

theorem bucketAt_init (bucketNo : Nat) :
    bucketAt initDeltaDirectory bucketNo = ⟨none, none, 0⟩ := by
  unfold bucketAt initDeltaDirectory
  rw [List.getD_eq_getElem?_getD, List.getElem?_replicate]
  split_ifs <;> rfl

theorem bucketChains_init (pages : List (StorePage R)) :
    BucketChains pages initDeltaDirectory (fun _ => []) [] where
  length := List.length_replicate
  chain bucketNo _ := congrArg DeltaTermBucket.startBlkno (bucketAt_init bucketNo)
  items _ _ := rfl
  tail bucketNo _ tail named := by
    rw [bucketAt_init] at named
    cases named
  noTail bucketNo _ _ := congrArg DeltaTermBucket.startBlkno (bucketAt_init bucketNo)
  apart _ _ _ _ _ := List.disjoint_nil_left _

theorem BucketChains.frame {pages changed : List (StorePage R)} {directory : DeltaDirectory}
    {blocksOf : Nat → List Nat} {segments : List DeltaTermTuple} {touched : List Nat}
    (chains : BucketChains pages directory blocksOf segments)
    (kept : KeptOutside touched pages changed)
    (apart : ∀ bucketNo < deltaTermBuckets, List.Disjoint (blocksOf bucketNo) touched) :
    BucketChains changed directory blocksOf segments :=
  { chains with
    chain := fun bucketNo inside =>
      ((chains.chain bucketNo inside).frame kept (apart bucketNo inside)).1
    items := fun bucketNo inside =>
      ((chains.chain bucketNo inside).frame kept (apart bucketNo inside)).2.trans
        (chains.items bucketNo inside) }

theorem DocumentChain.frame {pages changed : List (StorePage R)} {start : Option BlockNumber}
    {blocks touched : List Nat} {documents : List DeltaTuple}
    (chain : DocumentChain pages start blocks documents)
    (kept : KeptOutside touched pages changed) (apart : List.Disjoint blocks touched) :
    DocumentChain changed start blocks documents :=
  ⟨(chain.chain.frame kept apart).1, (chain.chain.frame kept apart).2.trans chain.items⟩

theorem appendItem_ok {logged : Bool} {kind : PageKind} {pages : List (StorePage R)}
    {start : Option BlockNumber} {item : StoreItem R} {appended : Appended PageKind (StoreItem R)}
    (done : appendTuple fitsPage logged kind pages start item = .ok appended) :
    appendItem logged kind pages start item = .ok appended := by
  rw [appendItem, done]

/-! ### Segments -/

theorem deltaTermTuple_fits (delta : DeltaTuple) {term : DeltaTerm}
    (short : term.term.length < 2048) :
    deltaTermTupleSize 1 term.term.length ≤ maxItemSize ∧
      fitsPage [] (.deltaTerm (deltaTermTuple delta term) : StoreItem R) = true := by
  have sized : deltaTermTupleSize 1 term.term.length ≤ pageCapacity := by
    unfold deltaTermTupleSize maxAlign pageCapacity
    omega
  exact ⟨sized.trans (by decide), fitsPage_empty.mpr sized⟩

theorem BucketChains.appendFrom {pages : List (StorePage R)} {directory : DeltaDirectory}
    {blocksOf : Nat → List Nat} {segments : List DeltaTermTuple}
    (chains : BucketChains pages directory blocksOf segments) {bucketNo : Nat}
    (inside : bucketNo < deltaTermBuckets) :
    AppendFrom ((bucketAt directory bucketNo).tailBlkno.or (bucketAt directory bucketNo).startBlkno)
      (blocksOf bucketNo) := by
  cases tailed : (bucketAt directory bucketNo).tailBlkno with
  | none =>
    have started := chains.noTail bucketNo inside tailed
    have chain := chains.chain bucketNo inside
    rw [started] at chain ⊢
    exact ⟨fun _ => chain.unique (show IsChain .deltaTerm pages none [] from rfl),
      (fun _ named => nomatch named)⟩
  | some tail =>
    refine ⟨(fun absent => nomatch absent), fun block named => ?_⟩
    obtain rfl := Option.some.inj named
    exact chains.tail bucketNo inside tail tailed

theorem BucketChains.grow {pages changed : List (StorePage R)} {directory : DeltaDirectory}
    {blocksOf : Nat → List Nat} {segments : List DeltaTermTuple} {added : List Nat}
    {appendStart insertBlkno : Nat}
    (chains : BucketChains pages directory blocksOf segments) (segment : DeltaTermTuple)
    (fresh : ∀ block ∈ added, pages.length ≤ block)
    (chain : IsChain .deltaTerm changed
      (some ((bucketAt directory (deltaTermBucketNo segment.termHash)).startBlkno.getD appendStart))
      (blocksOf (deltaTermBucketNo segment.termHash) ++ added))
    (items : blockItems changed (blocksOf (deltaTermBucketNo segment.termHash) ++ added) =
      blockItems pages (blocksOf (deltaTermBucketNo segment.termHash)) ++ [.deltaTerm segment])
    (inserted : insertBlkno ∈ blocksOf (deltaTermBucketNo segment.termHash) ++ added)
    (kept : KeptOutside (blocksOf (deltaTermBucketNo segment.termHash)) pages changed) :
    BucketChains changed
      (directory.set (deltaTermBucketNo segment.termHash)
        (growBucket (bucketAt directory (deltaTermBucketNo segment.termHash)) appendStart
          insertBlkno))
      (Function.update blocksOf (deltaTermBucketNo segment.termHash)
        (blocksOf (deltaTermBucketNo segment.termHash) ++ added))
      (segments ++ [segment]) := by
  have inside := deltaTermBucketNo_lt segment.termHash
  have others := fun items : List DeltaTermTuple => fun other : Nat =>
    inBucket_snoc other items segment
  generalize deltaTermBucketNo segment.termHash = bucketNo at *
  have within : bucketNo < directory.length := chains.length.symm ▸ inside
  have away : ∀ other < deltaTermBuckets, other ≠ bucketNo →
      IsChain .deltaTerm changed (bucketAt directory other).startBlkno (blocksOf other) ∧
        blockItems changed (blocksOf other) = blockItems pages (blocksOf other) :=
    fun other bound different =>
      (chains.chain other bound).frame kept (chains.apart other bound bucketNo inside different)
  have disjoint : ∀ other < deltaTermBuckets, other ≠ bucketNo →
      List.Disjoint (blocksOf other) (blocksOf bucketNo ++ added) := by
    intro other bound different block member member'
    rcases List.mem_append.mp member' with old | new
    · exact chains.apart other bound bucketNo inside different member old
    · have := (chains.chain other bound).lt member
      have := fresh block new
      omega
  refine ⟨?_, ?_, ?_, ?_, ?_, ?_⟩
  · rw [List.length_set, chains.length]
  · intro other bound
    rw [bucketAt_set _ within]
    by_cases here : other = bucketNo
    · rw [if_pos here, here, Function.update_self]
      exact chain
    · rw [if_neg here, Function.update_of_ne here]
      exact (away other bound here).1
  · intro other bound
    rw [others, List.map_append, ← chains.items other bound]
    by_cases here : other = bucketNo
    · rw [here, if_pos rfl, Function.update_self]
      exact items
    · rw [if_neg (Ne.symm here), Function.update_of_ne here, List.map_nil, List.append_nil]
      exact (away other bound here).2
  · intro other bound tail named
    rw [bucketAt_set _ within] at named
    by_cases here : other = bucketNo
    · rw [if_pos here] at named
      rw [here, Function.update_self, ← Option.some.inj named]
      exact inserted
    · rw [if_neg here] at named
      rw [Function.update_of_ne here]
      exact chains.tail other bound tail named
  · intro other bound absent
    rw [bucketAt_set _ within] at absent ⊢
    by_cases here : other = bucketNo
    · rw [if_pos here] at absent
      cases absent
    · rw [if_neg here] at absent ⊢
      exact chains.noTail other bound absent
  · intro one bound other bound' different
    by_cases here : one = bucketNo
    · subst here
      rw [Function.update_self, Function.update_of_ne (Ne.symm different)]
      exact (disjoint other bound' (Ne.symm different)).symm
    · rw [Function.update_of_ne here]
      by_cases here' : other = bucketNo
      · subst here'
        rw [Function.update_self]
        exact disjoint one bound different
      · rw [Function.update_of_ne here']
        exact chains.apart one bound other bound' different

/-- **One more segment** goes to the end of its bucket's chain. -/
theorem appendDeltaTermSegment_spec (logged : Bool) (delta : DeltaTuple) {state : SegmentState R}
    {blocksOf : Nat → List Nat} {segments : List DeltaTermTuple} {term : DeltaTerm}
    (chains : BucketChains state.pages state.directory blocksOf segments)
    (short : term.term.length < 2048) :
    ∃ next blocksOf', appendDeltaTermSegment logged delta state term = .ok next ∧
      BucketChains next.pages next.directory blocksOf' (segments ++ [deltaTermTuple delta term]) ∧
      state.pages.length ≤ next.pages.length ∧ ∀ start blocks documents, DocumentChain state.pages start blocks documents →
        DocumentChain next.pages start blocks documents := by
  obtain ⟨small, room⟩ := deltaTermTuple_fits (R := R) delta short
  have inside := deltaTermBucketNo_lt term.termHash
  obtain ⟨result, added, done, fresh, chained, items, inserted, kept⟩ :=
    appendTuple_spec logged (chains.chain _ inside) (chains.appendFrom inside) room
  rw [appendDeltaTermSegment, if_neg (by omega)]
  have appended := appendItem_ok done
  unfold bucketAt at appended
  dsimp only
  rw [appended]
  refine ⟨_, _, rfl, chains.grow (deltaTermTuple delta term) fresh chained items inserted kept,
    kept.1, fun start blocks documents chain => chain.frame kept ?_⟩
  exact chain.chain.disjoint_of_kind (chains.chain _ inside) (by decide)

theorem appendDeltaTermSegments_spec (logged : Bool) (delta : DeltaTuple) (terms : List DeltaTerm)
    {state : SegmentState R} {blocksOf : Nat → List Nat} {segments : List DeltaTermTuple}
    (chains : BucketChains state.pages state.directory blocksOf segments)
    (short : ∀ term ∈ terms, term.term.length < 2048) :
    ∃ next blocksOf', terms.foldlM (appendDeltaTermSegment logged delta) state = .ok next ∧
      BucketChains next.pages next.directory blocksOf'
        (segments ++ terms.map (deltaTermTuple delta)) ∧
      state.pages.length ≤ next.pages.length ∧ ∀ start blocks documents, DocumentChain state.pages start blocks documents →
        DocumentChain next.pages start blocks documents := by
  induction terms generalizing state blocksOf segments with
  | nil => exact ⟨state, blocksOf, rfl, by simpa using chains, le_rfl, fun _ _ _ chain => chain⟩
  | cons term rest ih =>
    obtain ⟨middle, middleBlocks, done, grown, longer, kept⟩ :=
      appendDeltaTermSegment_spec logged delta chains (short term List.mem_cons_self)
    obtain ⟨next, nextBlocks, done', grown', longer', kept'⟩ :=
      ih grown fun term member => short term (.tail _ member)
    refine ⟨next, nextBlocks, ?_, ?_, longer.trans longer', fun start blocks documents chain =>
      kept' _ _ _ (kept _ _ _ chain)⟩
    · rw [List.foldlM_cons, done]
      exact done'
    · rw [List.map_cons, ← List.singleton_append, ← List.append_assoc]
      exact grown'

/-! ### The insert -/

theorem countChainPagesAndTail_tail {kind : PageKind} {pages : List (StorePage R)}
    {start : Option BlockNumber} {blocks : List Nat} (chain : IsChain kind pages start blocks)
    {fuel : Nat} (enough : blocks.length ≤ fuel) :
    (countChainPagesAndTail kind pages fuel start).2 = blocks.getLast? := by
  induction blocks generalizing start fuel with
  | nil =>
    rw [show start = none from chain]
    cases fuel <;> rfl
  | cons first rest ih =>
    obtain ⟨rfl, page, there, kinded, later⟩ := chain
    obtain ⟨fuel, rfl⟩ : ∃ less, fuel = less + 1 := ⟨fuel - 1, by simp at enough; omega⟩
    rw [countChainPagesAndTail, there]
    dsimp only
    rw [if_neg (not_not.mpr kinded)]
    dsimp only
    rw [ih later (by simpa using enough), List.getLast?_cons]

theorem deltaTailOf_spec {state : DeltaState R} {blocks : List Nat} {documents : List DeltaTuple}
    (chain : DocumentChain state.pages state.deltaMeta.deltaStartBlkno blocks documents)
    (cursors : ∀ backend cursor, state.cursors backend = some cursor →
      CursorStands state blocks cursor) (backend : Nat) :
    AppendFrom ((deltaTailOf state backend).2.or state.deltaMeta.deltaStartBlkno) blocks := by
  unfold deltaTailOf
  cases found : (state.cursors backend).filter (cursorHit state) with
  | some cursor =>
    obtain ⟨there, hit⟩ := Option.filter_eq_some_iff.mp found
    refine ⟨(fun absent => nomatch absent), fun block named => ?_⟩
    obtain rfl := Option.some.inj named
    simp only [cursorHit, Bool.and_eq_true, beq_iff_eq] at hit
    exact (cursors backend cursor there).stands hit.2
  | none =>
    dsimp only
    rw [countChainPagesAndTail_tail chain.chain chain.chain.length_le]
    cases last : blocks.getLast? with
    | none =>
      obtain rfl := List.getLast?_eq_none_iff.mp last
      rw [show state.deltaMeta.deltaStartBlkno = none from chain.chain]
      exact ⟨fun _ => rfl, fun _ named => nomatch named⟩
    | some tail =>
      refine ⟨(fun absent => nomatch absent), fun block named => ?_⟩
      obtain rfl := Option.some.inj named
      exact List.mem_of_getLast? last

theorem readDeltaDirectory_spec {pages : List (StorePage R)} {blkno : Option BlockNumber}
    {documents : List DeltaTuple} (directory : DirectoryFor pages blkno documents) :
    ∃ found blocksOf, readDeltaDirectory pages blkno = .ok found ∧
      (found = none → documents = []) ∧
      BucketChains pages (found.getD initDeltaDirectory) blocksOf (segmentsOf documents) := by
  rcases directory with ⟨rfl, rfl⟩ | ⟨block, directory, blocksOf, rfl, there, chains⟩
  · exact ⟨none, fun _ => [], rfl, fun _ => rfl, bucketChains_init pages⟩
  · refine ⟨some directory, blocksOf, ?_, (fun absent => nomatch absent), chains⟩
    rw [readDeltaDirectory, there]
    dsimp only
    rw [if_neg (not_not.mpr rfl)]
    show (if directory.length ≠ deltaTermBuckets then _ else _) = _
    rw [if_neg (not_not.mpr chains.length)]

theorem initDirectory_fits {directory : DeltaDirectory}
    (length : directory.length = deltaTermBuckets) :
    fitsPage [] (.deltaDirectory directory : StoreItem R) = true := by
  refine fitsPage_empty.mpr ?_
  show maxAlign (8 + 12 * directory.length) ≤ pageCapacity
  rw [length]
  decide

theorem collectVectorTerms_spec {vector : List WordEntry} {term : DeltaTerm}
    (member : term ∈ collectVectorTerms vector) :
    term.termHash = hashTerm term.term ∧ term.term.length < 2048 := by
  obtain ⟨entry, -, rfl⟩ := List.mem_map.mp member
  exact ⟨rfl, entry.short⟩

/-- What the metadata names after an insert is what its cursor and the others are for. -/
theorem publishDelta_holds {state : DeltaState R} {blocks grown : List Nat}
    {documents : List DeltaTuple} {pages : List (StorePage R)}
    {deltaStart tail directoryBlkno : Nat}
    (cursors : ∀ backend cursor, state.cursors backend = some cursor →
      CursorStands state blocks cursor)
    (chain : DocumentChain pages (some deltaStart) grown documents)
    (directory : DirectoryFor pages (some directoryBlkno) documents)
    (longer : state.pages.length ≤ pages.length) (tailed : tail ∈ grown) (more : blocks ⊆ grown)
    (started : state.deltaMeta.deltaStartBlkno = some deltaStart ∨
      state.pages.length ≤ deltaStart)
    (backend : Nat) (delta : DeltaTuple) (deltaPages deltaTermPages : Nat) :
    Holds (publishDelta state backend delta pages deltaStart tail directoryBlkno deltaPages
      deltaTermPages) documents := by
  refine ⟨grown, chain, directory, fun other cursor there => ?_⟩
  dsimp only [publishDelta] at there
  by_cases here : other = backend
  · rw [here, Function.update_self] at there
    obtain rfl := Option.some.inj there
    exact ⟨chain.chain.lt chain.chain.start_mem, fun _ => tailed⟩
  · rw [Function.update_of_ne here] at there
    have stands := cursors other cursor there
    refine ⟨stands.known.trans_le longer, fun same => ?_⟩
    rcases started with old | new
    · exact more (stands.stands (same.trans old.symm))
    · have equal : cursor.start = deltaStart := Option.some.inj same
      exact absurd (equal ▸ stands.known) (not_lt.mpr new)

/-- **The writes of an insert** add its document, where a page has room for it. -/
theorem storeDelta_spec {state : DeltaState R} {documents : List DeltaTuple}
    (holds : Holds state documents) (backend : Nat) (insertion : Insertion)
    (room : fitsPage [] (.delta insertion.delta : StoreItem R) = true) :
    ∃ next, storeDelta state backend insertion.delta = .ok next ∧
      Holds next (documents ++ [insertion.delta]) := by
  obtain ⟨blocks, chain, directory, cursors⟩ := holds
  obtain ⟨found, blocksOf, read, -, chains⟩ := readDeltaDirectory_spec directory
  obtain ⟨document, added, appended, fresh, chained, items, inserted, kept⟩ :=
    appendTuple_spec state.logged chain.chain (deltaTailOf_spec chain cursors backend) room
  have documentChain : DocumentChain document.pages
      (some (state.deltaMeta.deltaStartBlkno.getD document.start)) (blocks ++ added)
      (documents ++ [insertion.delta]) := by
    refine ⟨chained, ?_⟩
    rw [items, chain.items, List.map_append]
    rfl
  have framed : BucketChains document.pages (found.getD initDeltaDirectory) blocksOf
      (segmentsOf documents) :=
    chains.frame kept fun bucketNo inside =>
      (chains.chain bucketNo inside).disjoint_of_kind chain.chain (by decide)
  have ready : BucketChains (SegmentState.mk document.pages (found.getD initDeltaDirectory)).pages
      (SegmentState.mk document.pages (found.getD initDeltaDirectory)).directory blocksOf
      (segmentsOf documents) := framed
  obtain ⟨segments, blocksOf', grown, grownChains, longer, documentsKept⟩ :=
    appendDeltaTermSegments_spec state.logged insertion.delta insertion.delta.terms ready
      fun term member => (collectVectorTerms_spec member).2
  have written : appendTuple fitsPage state.logged .deltaTerm segments.pages none
      (.deltaDirectory segments.directory) = _ :=
    appendTuple_start (initDirectory_fits grownChains.length)
  have keptLast := @append_keptOutside _ _ _ segments.pages []
    [(⟨some .deltaTerm, [.deltaDirectory segments.directory], none⟩ : StorePage R)]
  have finalChain := (documentsKept _ _ _ documentChain).frame keptLast (List.disjoint_nil_right _)
  have finalChains := grownChains.frame keptLast fun _ _ => List.disjoint_nil_right _
  have done : storeDelta state backend insertion.delta = .ok (publishDelta state backend
      insertion.delta (segments.pages ++ [⟨some .deltaTerm,
        [.deltaDirectory segments.directory], none⟩])
      (state.deltaMeta.deltaStartBlkno.getD document.start) document.insertBlock
      segments.pages.length
      (deltaPagesAfter document.pages state.deltaMeta.deltaStartBlkno
        (deltaTailOf state backend).2 (deltaTailOf state backend).1 document.insertBlock)
      (deltaDirectoryTermPages segments.directory)) := by
    rw [storeDelta, read]
    show (appendItem _ _ _ _ _ >>= _) = _
    rw [appendItem_ok appended]
    show (appendDeltaTermSegments _ _ _ >>= _) = _
    rw [appendDeltaTermSegments, grown]
    show (appendItem _ _ _ _ _ >>= _) = _
    rw [appendItem_ok written]
    rfl
  refine ⟨_, done, publishDelta_holds cursors finalChain (Or.inr ⟨segments.pages.length,
    segments.directory, blocksOf', rfl, ?_, ?_⟩) ?_ inserted (List.subset_append_left _ _) ?_ _ _ _ _⟩
  · rw [List.getElem?_append_right le_rfl, Nat.sub_self]
    rfl
  · rw [segmentsOf_snoc]
    exact finalChains
  · exact (kept.1.trans longer).trans keptLast.1
  · cases started : state.deltaMeta.deltaStartBlkno with
    | some first => exact Or.inl rfl
    | none =>
      have none : blocks = [] :=
        chain.chain.unique (started ▸ (rfl : IsChain .delta state.pages Option.none []))
      have first := chained.start_mem
      rw [none, List.nil_append] at first
      rw [started] at first
      exact Or.inr (fresh _ first)

/-- **An insert that no page has room for** adds no document. -/
theorem storeDelta_refused {state : DeltaState R} {documents : List DeltaTuple}
    (holds : Holds state documents) (backend : Nat) (insertion : Insertion)
    (large : pageCapacity < (StoreItem.delta insertion.delta : StoreItem R).size) :
    ∃ failure, storeDelta state backend insertion.delta = .error failure ∧
      Holds { state with pages := failure.pages } documents := by
  obtain ⟨blocks, chain, directory, cursors⟩ := holds
  obtain ⟨found, blocksOf, read, -, -⟩ := readDeltaDirectory_spec directory
  obtain ⟨refused, added, done, chained, items, kept⟩ :=
    appendTuple_spec_refused state.logged chain.chain (deltaTailOf_spec chain cursors backend)
      (fitsPage_none large)
  refine ⟨⟨.append refused.error, refused.pages⟩, ?_, blocks ++ added,
    ⟨chained, items.trans chain.items⟩, ?_, fun other cursor there => ?_⟩
  · rw [storeDelta, read]
    show (appendItem _ _ _ _ _ >>= _) = _
    rw [appendItem, done]
    rfl
  · rcases directory with ⟨absent, none⟩ | ⟨block, directory, blocksOf, named, there, chains⟩
    · exact Or.inl ⟨absent, none⟩
    · refine Or.inr ⟨block, directory, blocksOf, named, ?_, chains.frame kept fun bucketNo inside =>
        (chains.chain bucketNo inside).disjoint_of_kind chain.chain (by decide)⟩
      rw [← there]
      refine kept.2 block (List.getElem?_eq_some_iff.mp there).1 fun member => ?_
      obtain ⟨page, there', kinded⟩ := chain.chain.kind_eq member
      rw [there] at there'
      rw [← Option.some.inj there'] at kinded
      cases kinded
  · have stands := cursors other cursor there
    exact ⟨stands.known.trans_le kept.1, fun same =>
      List.mem_append_left _ (stands.stands same)⟩

/-- **An insert** adds its document if it is accepted, and otherwise none. -/
theorem appendDelta_spec {state : DeltaState R} {documents : List DeltaTuple}
    (holds : Holds state documents) (backend : Nat) (insertion : Insertion) :
    Holds (appendDelta state backend insertion).1
        (documents ++ (DeltaAction.insert backend insertion).document.toList) ∧
      ((appendDelta state backend insertion).2 = none ↔ insertion.accepted = true) := by
  rw [appendDelta, DeltaAction.document]
  by_cases budget : insertion.softBudget < 24 * insertion.delta.terms.length +
      termBytesLen insertion.delta.terms
  · have refused : insertion.accepted = false := by
      simp [Insertion.accepted, not_le.mpr budget]
    rw [if_pos budget, refused]
    exact ⟨by simpa using holds, by simp⟩
  rw [if_neg budget]
  by_cases many : uint16Max < insertion.delta.terms.length
  · have refused : insertion.accepted = false := by
      simp [Insertion.accepted, not_le.mpr many]
    rw [if_pos many, refused]
    exact ⟨by simpa using holds, by simp⟩
  rw [if_neg many]
  by_cases room : (StoreItem.delta insertion.delta : StoreItem R).size ≤ pageCapacity
  · have accepted : insertion.accepted = true := by
      have size : deltaTupleSize insertion.delta.terms.length
        (termBytesLen insertion.delta.terms) ≤ pageCapacity := room
      simp [Insertion.accepted, not_lt.mp budget, not_lt.mp many, size]
    have small : ¬ maxItemSize < (StoreItem.delta insertion.delta : StoreItem R).size :=
      not_lt.mpr (room.trans (by decide))
    obtain ⟨next, stored, held⟩ := storeDelta_spec holds backend insertion (fitsPage_empty.mpr room)
    rw [if_neg small, stored, accepted]
    exact ⟨held, by simp⟩
  · have refused : insertion.accepted = false := by
      have size : ¬ deltaTupleSize insertion.delta.terms.length
        (termBytesLen insertion.delta.terms) ≤ pageCapacity := room
      simp [Insertion.accepted, size]
    obtain ⟨failure, stored, held⟩ := storeDelta_refused holds backend insertion (not_le.mp room)
    rw [refused, stored]
    by_cases large : maxItemSize < (StoreItem.delta insertion.delta : StoreItem R).size
    · rw [if_pos large]
      exact ⟨by simpa using holds, by simp⟩
    · rw [if_neg large]
      exact ⟨by simpa using held, by simp⟩

theorem apply_holds {state : DeltaState R} {documents : List DeltaTuple}
    (holds : Holds state documents) (action : DeltaAction) :
    Holds (action.apply state) (documents ++ action.document.toList) := by
  cases action with
  | insert backend insertion => exact (appendDelta_spec holds backend insertion).1
  | elsewhere backend =>
    obtain ⟨blocks, chain, directory, cursors⟩ := holds
    rw [show (DeltaAction.elsewhere backend).document.toList = [] from rfl, List.append_nil]
    refine ⟨blocks, chain, directory, fun other cursor there => ?_⟩
    dsimp only [DeltaAction.apply] at there
    by_cases here : other = backend
    · rw [here, Function.update_self] at there
      cases there
    · rw [Function.update_of_ne here] at there
      exact ⟨(cursors other cursor there).known, (cursors other cursor there).stands⟩

/-- **A history of inserts** adds the accepted documents, in order. -/
theorem runDelta_spec {state : DeltaState R} {documents : List DeltaTuple}
    (holds : Holds state documents) (history : List DeltaAction) :
    Holds (runDelta state history) (documents ++ history.filterMap DeltaAction.document) := by
  induction history generalizing state documents with
  | nil => simpa [runDelta] using holds
  | cons action rest ih =>
    have stepped := ih (apply_holds holds action)
    rw [List.append_assoc] at stepped
    cases made : action.document with
    | none => simpa [made, runDelta] using stepped
    | some delta => simpa [made, runDelta] using stepped

end TurboHybrid.Store
