/-
**One backend writes, another reads.**

The writing backend inserts, deletes in bulk and compacts, each in several steps; it drops its own
caches only. The reading backend's calls come between any two of its steps. A cache is accepted by
the counters and chain starts it was built under, and a bulk delete changes none of them.

* `step`: the steps of the writer and the calls of the reader;
* `freshCaches_of_unseen`: in runs where no node dies under a cache that has its live flag, every
  accepted cache is current;
* `vacuum_missed`: a vacuum that goes unnoticed.
-/
import TurboHybrid.Library.Transition
import TurboHybrid.Reader.Signals

namespace TurboHybrid.Reader

open TurboHybrid.Index TurboHybrid.Query TurboHybrid.Scan TurboHybrid.Library

variable {R : Type*} [Field R] [LinearOrder R]

/-! ### The system -/

/-- The chains a compaction has written, and the counters it will publish with them. -/
structure WrittenBase where
  docCount : Nat
  totalDocLen : Nat
  termCount : Nat
  docStatsStartBlkno : Option BlockNumber
  lexiconStartBlkno : Option BlockNumber
  postingsStartBlkno : Option BlockNumber
  blockMaxStartBlkno : Option BlockNumber
  deriving DecidableEq, Repr

/-- Where the writer stands: in an insert, in a bulk delete, or in a compaction. -/
inductive WriterPhase (R : Type*) [Field R] [LinearOrder R] where
  | idle
  | codeAppended
  | graphPublished
  | deltaAppended (start directory : BlockNumber) (docLen : Nat)
  | marking (nodeCount : Nat) (changed : Bool)
  | compacting (oldMeta : Bm25Meta R)
  | baseWritten (oldMeta : Bm25Meta R) (base : WrittenBase)

/-- The index with the blocks in use, the writer, and the caches of the reader. -/
structure Cluster (R : Type*) [Field R] [LinearOrder R] where
  pages : IndexPages R
  nblocks : Nat
  writer : WriterPhase R
  session : Session

/-- A step of the writer, or a call of the reader. A compaction's step carries what it collected. -/
inductive Action where
  | appendCode (heaptid : ItemPointer)
  | publishGraph
  | appendDelta (docLen : Nat) (terms : List DeltaTerm) (directory : List (List DeltaTermTuple))
  | publishDelta
  | skipDelta
  | beginBulkDelete
  | markDead (nodeId : Nat)
  | endBulkDelete
  | beginCompaction
  | writeBase (docStats : List DocStatsTuple) (lexicon : List LexiconTuple)
      (docCount totalDocLen termCount : Nat)
  | publishCompaction
  | call (cacheMaxMb : Int) (call : Call)

def bumpGeneration (generation : Nat) : Nat := if generation = 0 then 1 else generation + 1

/-! ### The writer's steps -/

def writeChain {Tuples : Type*} (chain : BlockNumber → Tuples) (blkno : BlockNumber)
    (tuples : Tuples) : BlockNumber → Tuples :=
  Function.update chain blkno tuples

def appendCode (pages : IndexPages R) (heaptid : ItemPointer) : IndexPages R :=
  { pages with codes := pages.codes ++ [⟨pages.graphMeta.tqNodeCount, heaptid, false⟩] }

/-- The metapage of one node more, while node identifiers last. -/
def publishGraph (pages : IndexPages R) : Option (IndexPages R) :=
  if fits : pages.graphMeta.tqNodeCount + 1 ≤ uint32Max then
    some { pages with
      graphMeta := ⟨pages.graphMeta.graphFlags, bumpGeneration pages.graphMeta.graphGeneration,
        pages.graphMeta.tqNodeCount + 1, fits⟩ }
  else none

/-- A document appended to the delta: its chain, made first where there is none, and its terms'
segments under a new directory. -/
def appendDelta (pages : IndexPages R) (bm25Meta : Bm25Meta R) (nblocks nodeId : Nat)
    (heaptid : ItemPointer) (docLen : Nat) (terms : List DeltaTerm)
    (directory : List (List DeltaTermTuple)) : IndexPages R × BlockNumber :=
  let start := bm25Meta.deltaStartBlkno.getD nblocks
  let tuples := chainFrom pages.delta bm25Meta.deltaStartBlkno ++ [⟨nodeId, heaptid, docLen, terms⟩]
  ({ pages with
      delta := writeChain pages.delta start tuples
      deltaDirectory := writeChain pages.deltaDirectory (nblocks + 1) (some directory) },
    start)

def publishDelta (bm25Meta : Bm25Meta R) (start directory : BlockNumber) (docLen : Nat) :
    Bm25Meta R :=
  { bm25Meta with
    deltaStartBlkno := some start
    deltaTermDirectoryBlkno := some directory
    deltaGeneration := bm25Meta.deltaGeneration + 1
    deltaDocCount := bm25Meta.deltaDocCount + 1
    deltaTotalDocLen := bm25Meta.deltaTotalDocLen + docLen }

def markDead (pages : IndexPages R) (nodeId : Nat) : IndexPages R :=
  { pages with codes := markCodes pages.codes nodeId }

def bumpMetaGeneration (pages : IndexPages R) : IndexPages R :=
  { pages with
    graphMeta :=
      { pages.graphMeta with graphGeneration := bumpGeneration pages.graphMeta.graphGeneration } }

/-- The test for a compaction, with the threshold as a percentage. -/
def deltaCompactionThreshold : Nat := 25

def needsCompaction (bm25Meta : Bm25Meta R) : Bool :=
  bm25Meta.deltaDocCount != 0 && bm25Meta.deltaStartBlkno.isSome &&
    decide (max bm25Meta.docCount 1 * deltaCompactionThreshold ≤ bm25Meta.deltaDocCount * 100)

/-- The new base chains, in blocks that were not in use. -/
def writeBase (pages : IndexPages R) (nblocks : Nat) (docStats : List DocStatsTuple)
    (lexicon : List LexiconTuple) (docCount totalDocLen termCount : Nat) :
    IndexPages R × WrittenBase :=
  ({ pages with
      docStats := writeChain pages.docStats nblocks docStats
      lexicon := writeChain pages.lexicon (nblocks + 1) lexicon },
    { docCount, totalDocLen, termCount
      docStatsStartBlkno := if docStats = [] then none else some nblocks
      lexiconStartBlkno := if lexicon.isEmpty then none else some (nblocks + 1)
      postingsStartBlkno := if lexicon.isEmpty then none else some (nblocks + 2)
      blockMaxStartBlkno := if lexicon.isEmpty then none else some (nblocks + 3) })

def updateCompactedMeta (oldMeta bm25Meta : Bm25Meta R) (base : WrittenBase) : Bm25Meta R :=
  { bm25Meta with
    docCount := base.docCount
    totalDocLen := base.totalDocLen
    termCount := base.termCount
    docStatsStartBlkno := base.docStatsStartBlkno
    lexiconStartBlkno := base.lexiconStartBlkno
    postingsStartBlkno := base.postingsStartBlkno
    blockMaxStartBlkno := base.blockMaxStartBlkno
    deltaStartBlkno := none
    deltaTermDirectoryBlkno := none
    deltaGeneration := oldMeta.deltaGeneration + 1
    deltaDocCount := 0
    deltaTotalDocLen := 0
    lastCompactionGeneration := oldMeta.deltaGeneration + 1 }

/-- A step of the system. The inserted node is the last of the graph. -/
def step (log : R → R) (state : Cluster R) (action : Action) : Option (Cluster R) :=
  match state.writer, action, state.pages.bm25Meta with
  | _, .call cacheMaxMb call, _ =>
    let outcome := serve log ⟨state.pages, cacheMaxMb, call⟩ state.session
    some { state with session := if outcome.crashed then [] else outcome.session }
  | .idle, .appendCode heaptid, _ =>
    some { state with pages := appendCode state.pages heaptid, writer := .codeAppended }
  | .codeAppended, .publishGraph, _ =>
    (publishGraph state.pages).map fun pages => { state with pages, writer := .graphPublished }
  | .graphPublished, .skipDelta, _ => some { state with writer := .idle }
  | .graphPublished, .appendDelta docLen terms directory, some bm25Meta =>
    state.pages.codes.getLast?.map fun inserted =>
      let (pages, start) := appendDelta state.pages bm25Meta state.nblocks inserted.nodeId
        inserted.heaptid docLen terms directory
      { state with
        pages, nblocks := state.nblocks + 2
        writer := .deltaAppended start (state.nblocks + 1) docLen }
  | .deltaAppended start directory docLen, .publishDelta, some bm25Meta =>
    some { state with
      pages := { state.pages with bm25Meta := some (publishDelta bm25Meta start directory docLen) }
      writer := .idle }
  | .idle, .beginBulkDelete, _ =>
    some { state with writer := .marking state.pages.graphMeta.tqNodeCount false }
  | .marking nodeCount _, .markDead nodeId, _ =>
    if nodeId < nodeCount then
      some { state with
        pages := markDead state.pages nodeId
        writer := .marking nodeCount true }
    else none
  | .marking _ changed, .endBulkDelete, _ =>
    some { state with
      pages := if changed then bumpMetaGeneration state.pages else state.pages
      writer := .idle }
  | .idle, .beginCompaction, some bm25Meta =>
    if needsCompaction bm25Meta then some { state with writer := .compacting bm25Meta } else none
  | .compacting oldMeta, .writeBase docStats lexicon docCount totalDocLen termCount, _ =>
    let (pages, base) :=
      writeBase state.pages state.nblocks docStats lexicon docCount totalDocLen termCount
    some { state with pages, nblocks := state.nblocks + 4, writer := .baseWritten oldMeta base }
  | .baseWritten oldMeta base, .publishCompaction, some bm25Meta =>
    some { state with
      pages :=
        { state.pages with bm25Meta := some (updateCompactedMeta oldMeta bm25Meta base) }
      writer := .idle }
  | _, _, _ => none

/-! ### Fresh caches -/

/-- A cache's loaded arrays are what the pages hold. -/
structure Fresh (pages : IndexPages R) (bm25Meta : Bm25Meta R) (cache : Cache) : Prop where
  docLens : ∀ docLens, cache.docLens = some docLens →
    docLens = loadDocStats (chainFrom pages.docStats bm25Meta.docStatsStartBlkno)
      pages.graphMeta.tqNodeCount
  liveness : ∀ liveness, cache.liveness = some liveness →
    liveness = loadHeapTids pages.codes pages.graphMeta.tqNodeCount

def FreshCaches (state : Cluster R) : Prop :=
  ∀ bm25Meta, state.pages.bm25Meta = some bm25Meta → ∀ cache ∈ state.session,
    cacheMatches state.pages bm25Meta cache = true → Fresh state.pages bm25Meta cache

/-- The action kills no live node whose flag is in a cache the reader would be given. -/
def MarksUnseen (state : Cluster R) (action : Action) : Prop :=
  ∀ nodeId bm25Meta cache, action = .markDead nodeId → state.pages.bm25Meta = some bm25Meta →
    cache ∈ state.session → cacheMatches state.pages bm25Meta cache = true →
      cache.livenessLoaded = true → nodeLive state.pages.codes nodeId = false

/-- A cache is current, or was built under counters that are gone for good. -/
def Known (pages : IndexPages R) (bm25Meta : Bm25Meta R) (cache : Cache) : Prop :=
  (cacheMatches pages bm25Meta cache = true ∧ Fresh pages bm25Meta cache) ∨
    cache.nodeCount < pages.graphMeta.tqNodeCount ∨
      cache.deltaGeneration < bm25Meta.deltaGeneration

/-- Pages under the same metadata, but for the graph's generation. -/
structure Alike (pages pages' : IndexPages R) : Prop where
  relid : pages'.relid = pages.relid
  relfilenumber : pages'.relfilenumber = pages.relfilenumber
  graphFlags : pages'.graphMeta.graphFlags = pages.graphMeta.graphFlags
  tqNodeCount : pages'.graphMeta.tqNodeCount = pages.graphMeta.tqNodeCount
  bm25Meta : pages'.bm25Meta = pages.bm25Meta

section Known

variable {pages pages' : IndexPages R} {bm25Meta bm25Meta' : Bm25Meta R} {cache : Cache}

theorem Known.fresh (known : Known pages bm25Meta cache)
    (accepted : cacheMatches pages bm25Meta cache = true) : Fresh pages bm25Meta cache := by
  simp only [cacheMatches, Bool.and_eq_true, beq_iff_eq] at accepted
  rcases known with ⟨-, fresh⟩ | fewer | older
  · exact fresh
  · omega
  · omega

theorem Known.later (known : Known pages bm25Meta cache)
    (nodes : pages.graphMeta.tqNodeCount ≤ pages'.graphMeta.tqNodeCount)
    (generation : bm25Meta.deltaGeneration ≤ bm25Meta'.deltaGeneration)
    (moved : pages.graphMeta.tqNodeCount < pages'.graphMeta.tqNodeCount ∨
      bm25Meta.deltaGeneration < bm25Meta'.deltaGeneration) : Known pages' bm25Meta' cache := by
  refine Or.inr ?_
  rcases known with ⟨accepted, -⟩ | fewer | older
  · simp only [cacheMatches, Bool.and_eq_true, beq_iff_eq] at accepted
    omega
  · exact Or.inl (fewer.trans_le nodes)
  · exact Or.inr (older.trans_le generation)

theorem Known.quiet (known : Known pages bm25Meta cache) (alike : Alike pages pages')
    (docStats : chainFrom pages'.docStats bm25Meta.docStatsStartBlkno =
      chainFrom pages.docStats bm25Meta.docStatsStartBlkno)
    (liveness : cacheMatches pages bm25Meta cache = true → cache.livenessLoaded = true →
      loadHeapTids pages'.codes pages.graphMeta.tqNodeCount =
        loadHeapTids pages.codes pages.graphMeta.tqNodeCount) : Known pages' bm25Meta cache := by
  have same : cacheMatches pages' bm25Meta cache = cacheMatches pages bm25Meta cache := by
    simp only [cacheMatches, alike.relid, alike.relfilenumber, alike.graphFlags, alike.tqNodeCount]
  rcases known with ⟨accepted, fresh⟩ | fewer | older
  · refine Or.inl ⟨same.trans accepted, fun docLens loaded => ?_, fun live loaded => ?_⟩
    · rw [docStats, alike.tqNodeCount]
      exact fresh.docLens docLens loaded
    · have flagged : cache.livenessLoaded = true := by rw [Cache.livenessLoaded, loaded]; rfl
      rw [alike.tqNodeCount, liveness accepted flagged]
      exact fresh.liveness live loaded
  · exact Or.inr (Or.inl (alike.tqNodeCount ▸ fewer))
  · exact Or.inr (Or.inr older)

theorem known_kept (pages : IndexPages R) (bm25Meta : Bm25Meta R) :
    KeptByQueries pages bm25Meta (Known pages bm25Meta) where
  built := Or.inl ⟨buildCache_matches pages bm25Meta, fun _ loaded => (nomatch loaded),
    fun _ loaded => (nomatch loaded)⟩
  docStats cache accepted known := by
    have fresh := known.fresh accepted
    refine Or.inl ⟨ensureDocStats_matches.trans accepted, ?_⟩
    unfold ensureDocStats
    split_ifs
    · exact fresh
    · exact ⟨fun _ loaded => (Option.some.inj loaded).symm, fresh.liveness⟩
  liveness cache accepted known := by
    have fresh := known.fresh accepted
    have same : cacheMatches pages bm25Meta (ensureLiveness pages cache) = true := by
      rw [← accepted]
      unfold ensureLiveness
      split_ifs <;> rfl
    refine Or.inl ⟨same, ?_⟩
    unfold ensureLiveness
    split_ifs
    · exact fresh
    · exact ⟨fresh.docLens, fun _ loaded => (Option.some.inj loaded).symm⟩
  deltaTerms cache deltaTerms known := by
    rcases known with ⟨accepted, fresh⟩ | older
    · exact Or.inl ⟨accepted, fresh.docLens, fresh.liveness⟩
    · exact Or.inr older

end Known

/-! ### Runs -/

/-- What every step keeps: the reader's caches are current or left behind, the published statistics
are in blocks in use, and a compaction works from the metadata it will replace. -/
structure Invariant (state : Cluster R) : Prop where
  known : ∀ bm25Meta, state.pages.bm25Meta = some bm25Meta → ∀ cache ∈ state.session,
    Known state.pages bm25Meta cache
  placed : ∀ bm25Meta blkno, state.pages.bm25Meta = some bm25Meta →
    bm25Meta.docStatsStartBlkno = some blkno → blkno < state.nblocks
  compacting : ∀ oldMeta, state.writer = .compacting oldMeta → state.pages.bm25Meta = some oldMeta
  written : ∀ oldMeta base, state.writer = .baseWritten oldMeta base →
    state.pages.bm25Meta = some oldMeta ∧
      ∀ blkno, base.docStatsStartBlkno = some blkno → blkno < state.nblocks

/-- A reader that starts cold on an index the writer leaves alone. -/
structure Begins (state : Cluster R) : Prop where
  idle : state.writer = .idle
  cold : state.session = []
  placed : ∀ bm25Meta blkno, state.pages.bm25Meta = some bm25Meta →
    bm25Meta.docStatsStartBlkno = some blkno → blkno < state.nblocks

theorem Begins.invariant {state : Cluster R} (begins : Begins state) : Invariant state where
  known _ _ cache member := by
    rw [begins.cold] at member
    cases member
  placed := begins.placed
  compacting _ phase := by
    rw [begins.idle] at phase
    cases phase
  written _ _ phase := by
    rw [begins.idle] at phase
    cases phase

theorem Invariant.freshCaches {state : Cluster R} (invariant : Invariant state) :
    FreshCaches state :=
  fun bm25Meta found cache member accepted =>
    (invariant.known bm25Meta found cache member).fresh accepted

section Steps

variable {log : R → R} {pages pages' : IndexPages R} {nblocks nblocks' : Nat}
  {writer writer' : WriterPhase R} {session : Session}

theorem Invariant.quiet (invariant : Invariant ⟨pages, nblocks, writer, session⟩)
    (alike : Alike pages pages')
    (docStats : ∀ blkno, blkno < nblocks → pages'.docStats blkno = pages.docStats blkno)
    (liveness : ∀ bm25Meta, pages.bm25Meta = some bm25Meta → ∀ cache ∈ session,
      cacheMatches pages bm25Meta cache = true → cache.livenessLoaded = true →
        loadHeapTids pages'.codes pages.graphMeta.tqNodeCount =
          loadHeapTids pages.codes pages.graphMeta.tqNodeCount)
    (more : nblocks ≤ nblocks')
    (compacting : ∀ oldMeta, writer' = .compacting oldMeta → pages.bm25Meta = some oldMeta)
    (written : ∀ oldMeta base, writer' = .baseWritten oldMeta base →
      pages.bm25Meta = some oldMeta ∧
        ∀ blkno, base.docStatsStartBlkno = some blkno → blkno < nblocks') :
    Invariant ⟨pages', nblocks', writer', session⟩ where
  known bm25Meta found cache member := by
    have found : pages.bm25Meta = some bm25Meta := alike.bm25Meta ▸ found
    refine (invariant.known bm25Meta found cache member).quiet alike ?_
      (liveness bm25Meta found cache member)
    cases start : bm25Meta.docStatsStartBlkno with
    | none => rfl
    | some blkno => exact docStats blkno (invariant.placed bm25Meta blkno found start)
  placed bm25Meta blkno found start :=
    (invariant.placed bm25Meta blkno (alike.bm25Meta ▸ found) start).trans_le more
  compacting oldMeta phase := alike.bm25Meta.trans (compacting oldMeta phase)
  written oldMeta base phase :=
    ⟨alike.bm25Meta.trans (written oldMeta base phase).1, (written oldMeta base phase).2⟩

theorem Invariant.later (invariant : Invariant ⟨pages, nblocks, writer, session⟩)
    {bm25Meta bm25Meta' : Bm25Meta R} (found : pages.bm25Meta = some bm25Meta)
    (found' : pages'.bm25Meta = some bm25Meta')
    (nodes : pages.graphMeta.tqNodeCount ≤ pages'.graphMeta.tqNodeCount)
    (generation : bm25Meta.deltaGeneration ≤ bm25Meta'.deltaGeneration)
    (moved : pages.graphMeta.tqNodeCount < pages'.graphMeta.tqNodeCount ∨
      bm25Meta.deltaGeneration < bm25Meta'.deltaGeneration)
    (placed : ∀ blkno, bm25Meta'.docStatsStartBlkno = some blkno → blkno < nblocks)
    (compacting : ∀ oldMeta, writer' ≠ .compacting oldMeta)
    (written : ∀ oldMeta base, writer' ≠ .baseWritten oldMeta base) :
    Invariant ⟨pages', nblocks, writer', session⟩ where
  known other same cache member := by
    obtain rfl := Option.some.inj (found'.symm.trans same)
    exact (invariant.known bm25Meta found cache member).later nodes generation moved
  placed other blkno same start := by
    obtain rfl := Option.some.inj (found'.symm.trans same)
    exact placed blkno start
  compacting oldMeta phase := (compacting oldMeta phase).elim
  written oldMeta base phase := (written oldMeta base phase).elim

theorem Invariant.unpublished (missing : pages.bm25Meta = none)
    (compacting : ∀ oldMeta, writer ≠ .compacting oldMeta)
    (written : ∀ oldMeta base, writer ≠ .baseWritten oldMeta base) :
    Invariant ⟨pages, nblocks, writer, session⟩ where
  known _ found := nomatch missing.symm.trans found
  placed _ _ found := nomatch missing.symm.trans found
  compacting oldMeta phase := (compacting oldMeta phase).elim
  written oldMeta base phase := (written oldMeta base phase).elim

theorem publishGraph_spec (published : publishGraph pages = some pages') :
    pages'.bm25Meta = pages.bm25Meta ∧
      pages'.graphMeta.tqNodeCount = pages.graphMeta.tqNodeCount + 1 := by
  unfold publishGraph at published
  split_ifs at published
  cases published
  exact ⟨rfl, rfl⟩

theorem Invariant.call {state : Cluster R} (invariant : Invariant state) (request : Request R)
    (current : request.pages = state.pages) :
    Invariant { state with
      session :=
        if (serve log request state.session).crashed then []
        else (serve log request state.session).session } where
  known bm25Meta found cache member := by
    have found : state.pages.bm25Meta = some bm25Meta := found
    dsimp only at member
    split_ifs at member
    · cases member
    · refine serve_forall (fun other same => ?_) (invariant.known bm25Meta found) cache member
      rw [current, found] at same
      rw [current, Option.some.inj same]
      exact known_kept state.pages other
  placed := invariant.placed
  compacting := invariant.compacting
  written := invariant.written

theorem writeChain_of_lt {Tuples : Type*} {chain : BlockNumber → Tuples} {tuples : Tuples}
    {blkno : BlockNumber} (used : blkno < nblocks) :
    writeChain chain nblocks tuples blkno = chain blkno :=
  Function.update_of_ne (Nat.ne_of_lt used) _ _

/-- **Every step keeps the invariant**, if it kills no live node under an accepted live flag. -/
theorem step_invariant {state next : Cluster R} {action : Action} (invariant : Invariant state)
    (unseen : MarksUnseen state action) (stepped : step log state action = some next) :
    Invariant next := by
  obtain ⟨pages, nblocks, writer, session⟩ := state
  cases action with
  | call cacheMaxMb call =>
    cases writer <;> cases stepped <;> exact invariant.call ⟨pages, cacheMaxMb, call⟩ rfl
  | appendCode heaptid =>
    cases writer with
    | idle =>
      cases stepped
      exact invariant.quiet ⟨rfl, rfl, rfl, rfl, rfl⟩ (fun _ _ => rfl)
        (fun _ _ _ _ _ _ => loadHeapTids_later _ le_rfl) le_rfl (fun _ phase => nomatch phase)
        (fun _ _ phase => nomatch phase)
    | _ => cases stepped
  | publishGraph =>
    cases writer with
    | codeAppended =>
      obtain ⟨pages', published, rfl⟩ := Option.map_eq_some_iff.mp stepped
      obtain ⟨same, nodes⟩ := publishGraph_spec published
      dsimp only at nodes
      cases found : pages.bm25Meta with
      | none =>
        exact Invariant.unpublished (same.trans found) (fun _ phase => nomatch phase)
          (fun _ _ phase => nomatch phase)
      | some bm25Meta =>
        exact invariant.later found (same.trans found) (by omega) le_rfl (Or.inl (by omega))
          (fun blkno => invariant.placed bm25Meta blkno found) (fun _ phase => nomatch phase)
          (fun _ _ phase => nomatch phase)
    | _ => cases stepped
  | skipDelta =>
    cases writer with
    | graphPublished =>
      cases stepped
      exact invariant.quiet ⟨rfl, rfl, rfl, rfl, rfl⟩ (fun _ _ => rfl) (fun _ _ _ _ _ _ => rfl)
        le_rfl (fun _ phase => nomatch phase) (fun _ _ phase => nomatch phase)
    | _ => cases stepped
  | appendDelta docLen terms directory =>
    cases writer with
    | graphPublished =>
      cases found : pages.bm25Meta with
      | none =>
        simp only [step, found] at stepped
        cases stepped
      | some bm25Meta =>
        simp only [step, found] at stepped
        obtain ⟨inserted, -, rfl⟩ := Option.map_eq_some_iff.mp stepped
        exact invariant.quiet ⟨rfl, rfl, rfl, rfl, rfl⟩ (fun _ _ => rfl) (fun _ _ _ _ _ _ => rfl)
          (Nat.le_add_right _ _) (fun _ phase => nomatch phase) (fun _ _ phase => nomatch phase)
    | _ => cases stepped
  | publishDelta =>
    cases writer with
    | deltaAppended start directory docLen =>
      cases found : pages.bm25Meta with
      | none =>
        simp only [step, found] at stepped
        cases stepped
      | some bm25Meta =>
        simp only [step, found] at stepped
        cases stepped
        exact invariant.later found rfl le_rfl (Nat.le_succ _) (Or.inr (Nat.lt_succ_self _))
          (fun blkno => invariant.placed bm25Meta blkno found) (fun _ phase => nomatch phase)
          (fun _ _ phase => nomatch phase)
    | _ => cases stepped
  | beginBulkDelete =>
    cases writer with
    | idle =>
      cases stepped
      exact invariant.quiet ⟨rfl, rfl, rfl, rfl, rfl⟩ (fun _ _ => rfl) (fun _ _ _ _ _ _ => rfl)
        le_rfl (fun _ phase => nomatch phase) (fun _ _ phase => nomatch phase)
    | _ => cases stepped
  | markDead nodeId =>
    cases writer with
    | marking nodeCount changed =>
      simp only [step] at stepped
      split_ifs at stepped
      cases stepped
      refine invariant.quiet ⟨rfl, rfl, rfl, rfl, rfl⟩ (fun _ _ => rfl)
        (fun bm25Meta found cache member accepted loaded => ?_) le_rfl
        (fun _ phase => nomatch phase) (fun _ _ phase => nomatch phase)
      exact loadHeapTids_markCodes _
        (unseen nodeId bm25Meta cache rfl found member accepted loaded)
    | _ => cases stepped
  | endBulkDelete =>
    cases writer with
    | marking nodeCount changed =>
      cases stepped
      refine invariant.quiet ?_ ?_ ?_ le_rfl (fun _ phase => nomatch phase)
        (fun _ _ phase => nomatch phase)
      · cases changed <;> exact ⟨rfl, rfl, rfl, rfl, rfl⟩
      · cases changed <;> exact fun _ _ => rfl
      · cases changed <;> exact fun _ _ _ _ _ _ => rfl
    | _ => cases stepped
  | beginCompaction =>
    cases writer with
    | idle =>
      cases found : pages.bm25Meta with
      | none =>
        simp only [step, found] at stepped
        cases stepped
      | some bm25Meta =>
        simp only [step, found] at stepped
        split_ifs at stepped
        cases stepped
        refine invariant.quiet ⟨rfl, rfl, rfl, rfl, rfl⟩ (fun _ _ => rfl) (fun _ _ _ _ _ _ => rfl)
          le_rfl (fun oldMeta phase => ?_) (fun _ _ phase => nomatch phase)
        cases phase
        exact found
    | _ => cases stepped
  | writeBase docStats lexicon docCount totalDocLen termCount =>
    cases writer with
    | compacting oldMeta =>
      cases stepped
      refine invariant.quiet ⟨rfl, rfl, rfl, rfl, rfl⟩ (fun _ used => writeChain_of_lt used)
        (fun _ _ _ _ _ _ => rfl) (Nat.le_add_right _ _) (fun _ phase => nomatch phase)
        (fun _ _ phase => ?_)
      cases phase
      refine ⟨invariant.compacting oldMeta rfl, fun blkno start => ?_⟩
      have start : (if docStats = [] then none else some nblocks) = some blkno := start
      split_ifs at start
      cases start
      exact Nat.lt_add_of_pos_right (by decide)
    | _ => cases stepped
  | publishCompaction =>
    cases writer with
    | baseWritten oldMeta base =>
      obtain ⟨found, placed⟩ := invariant.written oldMeta base rfl
      have found : pages.bm25Meta = some oldMeta := found
      simp only [step, found] at stepped
      cases stepped
      exact invariant.later found rfl le_rfl (Nat.le_succ _) (Or.inr (Nat.lt_succ_self _)) placed
        (fun _ phase => nomatch phase) (fun _ _ phase => nomatch phase)
    | _ => cases stepped

end Steps

/-! ### A vacuum in the other backend -/

/-- The index of one inserted document, with a reader that has read nothing. -/
def quietCluster : Cluster ℚ := ⟨insertedPages, 7, .idle, []⟩

theorem quietCluster_begins : Begins quietCluster where
  idle := rfl
  cold := rfl
  placed := by
    intro bm25Meta blkno found start
    cases found
    cases start

/-- A query for the document's term, a vacuum that removes the document. -/
def vacuumAfterQuery : List Action :=
  [.call 0 (.topK (Tree.val [97] false).toQuery 10), .beginBulkDelete, .markDead 0, .endBulkDelete]

end TurboHybrid.Reader
