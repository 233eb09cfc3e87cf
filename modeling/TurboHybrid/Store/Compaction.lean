/-
**Compactions.**

A compaction reads the live postings of the base and of the delta, writes a base of its own beside
the old one, and publishes it with one write of the metadata. An index is built, then documents are
inserted, nodes added and deleted, and compactions run or stop.

* `collectCompaction`: what a compaction collects;
* `maybeCompact`: the writes of a compaction, and its outcome;
* `IndexBuild.run`, `runStore`: an index, and what happens to it.
-/
import TurboHybrid.Store.DeltaLookup
import TurboHybrid.Store.Growth

namespace TurboHybrid.Store

open TurboHybrid.Index TurboHybrid.Library TurboHybrid.Query TurboHybrid.Reader TurboHybrid.Scan

variable {R : Type}

/-! ### State -/

structure NodeState where
  live : Bool
  tid : ItemPointer
  deriving DecidableEq, Repr

structure BaseMeta (R : Type) where
  docCount : Nat
  totalDocLen : Nat
  avgDocLen : R
  termCount : Nat
  termTupleCount : Nat
  maxDocLen : Nat
  tfNormQ16 : Bool
  impactHead : Bool
  docStatsStartBlkno : Option BlockNumber
  lexiconStartBlkno : Option BlockNumber
  postingsStartBlkno : Option BlockNumber
  blockMaxStartBlkno : Option BlockNumber
  impactStartBlkno : Option BlockNumber
  postingsPages : Nat
  blockMaxPages : Nat
  impactPages : Nat
  lastCompactionGeneration : Nat
  compactionCount : Nat

/-- The pages and the metadata of an index, and the nodes of its graph. -/
structure StoreState (R : Type) extends DeltaState R where
  baseMeta : BaseMeta R
  nodes : List NodeState

/-- A write to an index: pages change, or the metadata does. -/
inductive IndexWrite (R : Type) where
  | page (write : PageWrite R)
  | publish (baseMeta : BaseMeta R) (deltaMeta : DeltaMeta)

def IndexWrite.apply (state : StoreState R) : IndexWrite R → StoreState R
  | .page write => { state with pages := write.apply state.pages }
  | .publish baseMeta deltaMeta => { state with baseMeta := baseMeta, deltaMeta := deltaMeta }

def applyWrites (state : StoreState R) (writes : List (IndexWrite R)) : StoreState R :=
  writes.foldl IndexWrite.apply state

/-! ### The compaction's collector -/

inductive CompactError where
  | missingGraph
  | deltaKind
  | absentBlock
  | read (error : BaseError)
  | collect (error : BuildError)
  | write (error : WriteError)
  deriving DecidableEq, Repr

def CompactError.message : CompactError → String
  | .missingGraph => "pgturbohybrid native graph metadata is missing during BM25 compaction"
  | .deltaKind => "pgturbohybrid BM25 delta page has unexpected page kind"
  | .absentBlock => "could not read block"
  | .read error => error.message
  | .collect error => error.message
  | .write error => error.message

def collecting {Value : Type} : Except BuildError Value → Except CompactError Value
  | .ok value => .ok value
  | .error error => .error (.collect error)

def readingBase {Value : Type} : Except BaseError Value → Except CompactError Value
  | .ok value => .ok value
  | .error error => .error (.read error)

def readingDelta {Value : Type} : Except ChainError Value → Except CompactError Value
  | .ok value => .ok value
  | .error .unexpectedKind => .error .deltaKind
  | .error _ => .error .absentBlock

def nodeLive (nodes : List NodeState) (nodeId : Nat) : Bool :=
  (nodes[nodeId]?.map NodeState.live).getD false

def collectTerm (exceeded : Nat → Bool) (nodeId : Nat) (term : Lexeme) (tf : Nat)
    (collector : Collector) : Except BuildError Collector :=
  if term = [] then .ok collector
  else appendBuildTerm exceeded collector
    ⟨hashTerm term, term, nodeId, if 0 < tf then tf else 1⟩

/-- The nodes that count as documents of the base: those that are live and have a length. -/
def baseDocument (nodes : List NodeState) (docLens : List Nat) (nodeId : Nat) : Bool :=
  nodeLive nodes nodeId && decide (0 < docLens.getD nodeId 0)

def collectBaseDoc (exceeded : Nat → Bool) (nodes : List NodeState) (docLens : List Nat)
    (collector : Collector) (node : NodeState × Nat) : Except BuildError Collector :=
  if baseDocument nodes docLens node.2 then
    appendBuildDoc exceeded collector ⟨node.2, node.1.tid, docLens.getD node.2 0⟩
  else .ok collector

def collectBasePosting (exceeded : Nat → Bool) (nodes : List NodeState) (docLens : List Nat)
    (term : Lexeme) (collector : Collector) (posting : Posting) : Except BuildError Collector :=
  if baseDocument nodes docLens posting.nodeId then
    collectTerm exceeded posting.nodeId term posting.tf collector
  else .ok collector

/-- The postings of a lexicon entry, of one chunk at least. -/
def collectBaseEntry (exceeded : Nat → Bool) (pages : List (StorePage R)) (nodes : List NodeState)
    (docLens : List Nat) (collector : Collector) (entry : LexiconItem) :
    Except CompactError Collector :=
  if entry.postings = none then .ok collector
  else do
    let postings ← readingBase
      (readPostings pages entry.termId (max entry.postingsChunkCount 1) entry.postings)
    collecting (postings.foldlM (collectBasePosting exceeded nodes docLens entry.term) collector)

def collectBasePostings (exceeded : Nat → Bool) (pages : List (StorePage R))
    (start : Option BlockNumber) (nodes : List NodeState) (docLens : List Nat)
    (collector : Collector) : Except CompactError Collector := do
  let entries ← readingBase (readLexicon pages start)
  entries.foldlM (collectBaseEntry exceeded pages nodes docLens) collector

/-- What is collected, and which nodes are among its documents. -/
structure DeltaCollector where
  collector : Collector
  docSeen : Nat → Bool

def seenDoc (docSeen : Nat → Bool) (nodeId : Nat) : Nat → Bool :=
  fun other => other == nodeId || docSeen other

def collectDeltaDoc (exceeded : Nat → Bool) (state : DeltaCollector) (delta : DeltaTuple) :
    Except BuildError Collector :=
  if state.docSeen delta.nodeId then .ok state.collector
  else appendBuildDoc exceeded state.collector ⟨delta.nodeId, delta.heaptid, delta.docLen⟩

def collectDeltaTuple (exceeded : Nat → Bool) (nodes : List NodeState) (state : DeltaCollector)
    (delta : DeltaTuple) : Except BuildError DeltaCollector :=
  if nodeLive nodes delta.nodeId then do
    let documented ← collectDeltaDoc exceeded state delta
    let collector ← delta.terms.foldlM (fun collector term =>
      collectTerm exceeded delta.nodeId term.term term.tf collector) documented
    return ⟨collector, seenDoc state.docSeen delta.nodeId⟩
  else .ok state

/-- **What a compaction collects**: the live postings of the base, then those of the delta. -/
def collectCompaction (exceeded : Nat → Bool) (state : StoreState R) :
    Except CompactError Collector := do
  let docLens ← readingBase
    (readDocLens state.pages state.baseMeta.docStatsStartBlkno state.nodes.length)
  let documented ← collecting
    (state.nodes.zipIdx.foldlM (collectBaseDoc exceeded state.nodes docLens) .empty)
  let based ← collectBasePostings exceeded state.pages state.baseMeta.lexiconStartBlkno
    state.nodes docLens documented
  let documents ← readingDelta (readDeltaDocuments state.pages state.deltaMeta.deltaStartBlkno)
  let merged ← collecting (documents.foldlM (collectDeltaTuple exceeded state.nodes)
    ⟨based, baseDocument state.nodes docLens⟩)
  return finishCollect merged.collector

/-! ### The compaction -/

section Compact

variable [Field R] [LinearOrder R]

def Collector.totalTermCount (collector : Collector) : Nat :=
  collector.runs.flatten.length + collector.terms.length

/-- The metadata of a base, after a number of compactions. -/
def baseMetaOf (options : WriterOptions R) (collector : Collector) (written : BasePages R)
    (lastCompactionGeneration compactionCount : Nat) : BaseMeta R where
  docCount := collector.docs.length
  totalDocLen := collector.totalDocLen
  avgDocLen := if collector.docs.length = 0 then 0
    else (collector.totalDocLen : R) / collector.docs.length
  termCount := written.uniqueTerms
  termTupleCount := collector.totalTermCount
  maxDocLen := collector.maxDocLen
  tfNormQ16 := options.precomputeTfNorm
  impactHead := decide (0 < written.sink.impact.pages)
  docStatsStartBlkno := written.docStatsStartBlkno
  lexiconStartBlkno := written.sink.lexicon.start
  postingsStartBlkno := written.sink.postings.start
  blockMaxStartBlkno := written.sink.blockMax.start
  impactStartBlkno := written.sink.impact.start
  postingsPages := written.sink.postings.pages
  blockMaxPages := written.sink.blockMax.pages
  impactPages := written.sink.impact.pages
  lastCompactionGeneration := lastCompactionGeneration
  compactionCount := compactionCount

def emptyDelta (generation : Nat) : DeltaMeta := ⟨none, none, generation, 0, 0, 0, 0, 0⟩

def updateCompactedMeta (options : WriterOptions R) (state : StoreState R) (collector : Collector)
    (written : BasePages R) : IndexWrite R :=
  let generation := state.deltaMeta.deltaGeneration + 1
  .publish (baseMetaOf options collector written generation (state.baseMeta.compactionCount + 1))
    (emptyDelta generation)

/-- Whether there is a delta, and it is large enough. -/
def compactionDue (threshold : Nat) (state : StoreState R) : Bool :=
  decide (state.deltaMeta.deltaDocCount ≠ 0) && state.deltaMeta.deltaStartBlkno.isSome &&
    decide (max state.baseMeta.docCount 1 * threshold ≤ state.deltaMeta.deltaDocCount * 100)

/-- The writes of the new base, and the publication. -/
def writeCompaction (options : WriterOptions R) (state : StoreState R) (collector : Collector) :
    List (IndexWrite R) × Except CompactError Bool :=
  match writeBasePages { options with useWal := state.logged } ⟨state.pages, []⟩ collector
      state.nodes.length with
  | .error failure => (failure.disk.log.map .page, .error (.write failure.error))
  | .ok written =>
    (written.sink.disk.log.map .page ++ [updateCompactedMeta options state collector written],
      .ok true)

/-- **A compaction**: its writes in order, and whether it compacted. -/
def maybeCompact (options : WriterOptions R) (threshold : Nat) (exceeded : Nat → Bool)
    (state : StoreState R) : List (IndexWrite R) × Except CompactError Bool :=
  if compactionDue threshold state = false then ([], .ok false)
  else if state.nodes = [] then ([], .error .missingGraph)
  else
    match collectCompaction exceeded state with
    | .error error => ([], .error error)
    | .ok collector => writeCompaction options state collector

/-! ### Histories -/

/-- How an index comes to be: the graph is there, then the rows are collected and written without
a log. -/
structure IndexBuild where
  relid : Nat
  relfilenumber : Nat
  logged : Bool
  graphPages : Nat
  nodes : List NodeState
  rows : List BuildRow
  exceeded : Nat → Bool

def IndexBuild.pages (build : IndexBuild) : List (StorePage R) :=
  List.replicate (build.graphPages + 1) (emptyPage .other)

/-- The index that is built, if its build gets to the end. The metadata is on a page of its own. -/
def IndexBuild.run (options : WriterOptions R) (build : IndexBuild) : Option (StoreState R) :=
  match buildCollect build.exceeded build.rows with
  | .error _ => none
  | .ok collector =>
    match writeBasePages { options with useWal := false } ⟨build.pages, []⟩ collector
        build.nodes.length with
    | .error _ => none
    | .ok written => some
      { relid := build.relid
        relfilenumber := build.relfilenumber
        logged := build.logged
        pages := written.sink.disk.pages ++ [emptyPage .other]
        deltaMeta := emptyDelta 0
        cursors := fun _ => none
        baseMeta := baseMetaOf options collector written 0 0
        nodes := build.nodes }

/-- What happens to an index: a document is inserted, a backend turns to another index, the graph
changes nodes and adds pages, or a compaction runs for a number of writes. -/
inductive StoreAction where
  | insert (backend : Nat) (insertion : Insertion)
  | elsewhere (backend : Nat)
  | graph (pages : Nat) (nodes : List NodeState)
  | compact (exceeded : Nat → Bool) (writes : Nat)

def StoreAction.apply (options : WriterOptions R) (threshold : Nat) (state : StoreState R) :
    StoreAction → StoreState R
  | .insert backend insertion =>
    { state with toDeltaState := (appendDelta state.toDeltaState backend insertion).1 }
  | .elsewhere backend =>
    { state with cursors := Function.update state.cursors backend none }
  | .graph pages nodes =>
    { state with pages := state.pages ++ List.replicate pages (emptyPage .other), nodes := nodes }
  | .compact exceeded writes =>
    applyWrites state ((maybeCompact options threshold exceeded state).1.take writes)

def runStore (options : WriterOptions R) (threshold : Nat) (start : StoreState R)
    (history : List StoreAction) : StoreState R :=
  history.foldl (StoreAction.apply options threshold) start

end Compact

end TurboHybrid.Store
