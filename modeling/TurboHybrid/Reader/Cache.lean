/-
**A backend's reader caches.**

A backend keeps a cache for each relation it has read. A cache carries the metadata it was built
under; its lexicon is loaded when it is built, its document lengths, its live flags and its delta
entries when they are first needed.

* `getCache`: the cache a query works with, found or built;
* `buildDeltaCacheEntries`: the delta's postings at live nodes, by term;
* `keepLive_loaded`: live flags are read where they are loaded.
-/
import Mathlib.Data.List.SplitBy
import TurboHybrid.Index.Pages

namespace TurboHybrid.Reader

open TurboHybrid.Index TurboHybrid.Query TurboHybrid.Scan

variable {R : Type*} [Field R] [LinearOrder R]

/-! ### Caches -/

/-- A term of the delta with its postings at live nodes. -/
structure DeltaCacheEntry where
  termHash : UInt64
  term : Lexeme
  df : Nat
  postings : List DeltaTermPosting
  deriving DecidableEq, Repr

structure Cache where
  relid : Nat
  relfilenumber : Nat
  graphFlags : Nat
  nodeCount : Nat
  docCount : Nat
  termCount : Nat
  deltaGeneration : Nat
  lastCompactionGeneration : Nat
  docStatsStartBlkno : Option BlockNumber
  lexiconStartBlkno : Option BlockNumber
  postingsStartBlkno : Option BlockNumber
  blockMaxStartBlkno : Option BlockNumber
  deltaStartBlkno : Option BlockNumber
  deltaTermDirectoryBlkno : Option BlockNumber
  lexicon : List LexiconTuple
  docLens : Option (List Nat)
  liveness : Option Liveness
  deltaTerms : Option (List DeltaCacheEntry)

def Cache.docStatsLoaded (cache : Cache) : Bool := cache.docLens.isSome

def Cache.livenessLoaded (cache : Cache) : Bool := cache.liveness.isSome

def Cache.deltaCacheBuilt (cache : Cache) : Bool := cache.deltaTerms.isSome

abbrev Session := List Cache

def cacheMatches (pages : IndexPages R) (bm25Meta : Bm25Meta R) (cache : Cache) : Bool :=
  cache.relid == pages.relid &&
    cache.relfilenumber == pages.relfilenumber &&
    cache.graphFlags == pages.graphMeta.graphFlags &&
    cache.nodeCount == pages.graphMeta.tqNodeCount &&
    cache.docCount == bm25Meta.docCount &&
    cache.termCount == bm25Meta.termCount &&
    cache.deltaGeneration == bm25Meta.deltaGeneration &&
    cache.lastCompactionGeneration == bm25Meta.lastCompactionGeneration &&
    cache.docStatsStartBlkno == bm25Meta.docStatsStartBlkno &&
    cache.lexiconStartBlkno == bm25Meta.lexiconStartBlkno &&
    cache.postingsStartBlkno == bm25Meta.postingsStartBlkno &&
    cache.blockMaxStartBlkno == bm25Meta.blockMaxStartBlkno &&
    cache.deltaStartBlkno == bm25Meta.deltaStartBlkno &&
    cache.deltaTermDirectoryBlkno == bm25Meta.deltaTermDirectoryBlkno

def dropStaleCaches (pages : IndexPages R) (bm25Meta : Bm25Meta R) (session : Session) : Session :=
  session.filter fun cache => cache.relid != pages.relid || cacheMatches pages bm25Meta cache

/-- What a backend does to its own caches after it changed a relation. -/
def invalidateCache (relid : Nat) (session : Session) : Session :=
  session.filter fun cache => cache.relid != relid

def buildCache (pages : IndexPages R) (bm25Meta : Bm25Meta R) : Cache where
  relid := pages.relid
  relfilenumber := pages.relfilenumber
  graphFlags := pages.graphMeta.graphFlags
  nodeCount := pages.graphMeta.tqNodeCount
  docCount := bm25Meta.docCount
  termCount := bm25Meta.termCount
  deltaGeneration := bm25Meta.deltaGeneration
  lastCompactionGeneration := bm25Meta.lastCompactionGeneration
  docStatsStartBlkno := bm25Meta.docStatsStartBlkno
  lexiconStartBlkno := bm25Meta.lexiconStartBlkno
  postingsStartBlkno := bm25Meta.postingsStartBlkno
  blockMaxStartBlkno := bm25Meta.blockMaxStartBlkno
  deltaStartBlkno := bm25Meta.deltaStartBlkno
  deltaTermDirectoryBlkno := bm25Meta.deltaTermDirectoryBlkno
  lexicon := chainFrom pages.lexicon bm25Meta.lexiconStartBlkno
  docLens := none
  liveness := none
  deltaTerms := none

/-- A session with the cache a query works with singled out. -/
structure Opened where
  earlier : List Cache
  cache : Cache
  later : List Cache

def Opened.session (opened : Opened) : Session := opened.earlier ++ opened.cache :: opened.later

/-- The first cache of a list that is accepted, or a fresh one in front of the list. -/
def openCache (accepts : Cache → Bool) (fresh : Cache) (caches : List Cache) : Opened :=
  match caches.dropWhile fun cache => !accepts cache with
  | cache :: later => ⟨caches.takeWhile fun cache => !accepts cache, cache, later⟩
  | [] => ⟨[], fresh, caches⟩

/-- The cache of a query: the first that matches, once the stale ones are dropped. -/
def getCache (pages : IndexPages R) (bm25Meta : Bm25Meta R) (session : Session) : Opened :=
  openCache (cacheMatches pages bm25Meta) (buildCache pages bm25Meta)
    (dropStaleCaches pages bm25Meta session)

def ensureDocStats (pages : IndexPages R) (bm25Meta : Bm25Meta R) (cache : Cache) : Cache :=
  if cache.docStatsLoaded then cache
  else
    { cache with
      docLens := some (loadDocStats (chainFrom pages.docStats bm25Meta.docStatsStartBlkno)
        pages.graphMeta.tqNodeCount) }

def ensureLiveness (pages : IndexPages R) (cache : Cache) : Cache :=
  if cache.livenessLoaded then cache
  else { cache with liveness := some (loadHeapTids pages.codes pages.graphMeta.tqNodeCount) }

def cacheFindLexiconEntry (cache : Cache) (term : QueryTerm) : Option LexiconEntry :=
  (cache.lexicon.find? fun candidate =>
    candidate.termHash == term.termHash && candidate.term == term.term).map LexiconTuple.entry

/-! ### Delta entries -/

/-- A read through a pointer that is not set, or past the end of an array. -/
inductive Fault where
  | absentLiveNodes
  | shortLiveNodes
  | absentDocLens
  deriving DecidableEq, Repr

/-- The test of a node of the delta. The live flag is read for nodes of the cache only. -/
def deltaNodeLive (cache : Cache) (nodeId : Nat) : Except Fault Bool :=
  if cache.nodeCount ≤ nodeId then .ok false
  else
    match cache.liveness with
    | none => .error .absentLiveNodes
    | some liveness =>
      match liveness.liveNodes[nodeId]? with
      | none => .error .shortLiveNodes
      | some live => .ok live

def keepLive {Item : Type} (cache : Cache) (nodeOf : Item → Nat) :
    List Item → Except Fault (List Item)
  | [] => .ok []
  | item :: rest => do
    let live ← deltaNodeLive cache (nodeOf item)
    let kept ← keepLive cache nodeOf rest
    return if live then item :: kept else kept

structure DeltaBuildEntry where
  termHash : UInt64
  term : Lexeme
  posting : DeltaTermPosting
  deriving DecidableEq, Repr

def deltaTermBuckets : Nat := 64

def deltaTermBucketNo (termHash : UInt64) : Nat := termHash.toNat % deltaTermBuckets

/-- The walk over the segments of the buckets the terms fall in. -/
def scanTermSegments (cache : Cache) (filterTerms : List QueryTerm)
    (directory : List (List DeltaTermTuple)) : Except Fault (List DeltaBuildEntry) := do
  let needed := directory.zipIdx.filter fun (_, bucketNo) =>
    filterTerms.any fun term => deltaTermBucketNo term.termHash == bucketNo
  let tuples := (needed.flatMap Prod.fst).filter fun tuple =>
    (findQueryTerm filterTerms tuple.term).isSome
  let postings := tuples.flatMap fun tuple => tuple.postings.map fun posting =>
    DeltaBuildEntry.mk tuple.termHash tuple.term posting
  keepLive cache (fun entry => entry.posting.nodeId) postings

/-- The walk over the delta's documents; without filter terms it takes all their terms. -/
def scanDeltaDocs (cache : Cache) (filterTerms : Option (List QueryTerm))
    (tuples : List DeltaTuple) : Except Fault (List DeltaBuildEntry) := do
  let live ← keepLive cache DeltaTuple.nodeId tuples
  return live.flatMap fun tuple =>
    (tuple.terms.filter fun term =>
      filterTerms.all fun filterTerms => (findQueryTerm filterTerms term.term).isSome).map fun term =>
        ⟨term.termHash, term.term, ⟨tuple.nodeId, tuple.heaptid, tuple.docLen, term.tf⟩⟩

def deltaBuildSameTerm (one other : DeltaBuildEntry) : Bool :=
  one.termHash == other.termHash && one.term == other.term

def deltaBuildBefore (one other : DeltaBuildEntry) : Bool :=
  if one.termHash ≠ other.termHash then decide (one.termHash < other.termHash)
  else if one.term.length ≠ other.term.length then decide (one.term.length < other.term.length)
  else if one.term ≠ other.term then decide (one.term < other.term)
  else decide (one.posting.nodeId ≤ other.posting.nodeId)

def finalizeDeltaBuildEntries (entries : List DeltaBuildEntry) : List DeltaCacheEntry :=
  let groups := (entries.insertionSort fun one other => deltaBuildBefore one other).splitBy
    deltaBuildSameTerm
  groups.filterMap fun group => group.head?.map fun first =>
    ⟨first.termHash, first.term, group.length, group.map DeltaBuildEntry.posting⟩

/-- The delta's postings. Filter terms go through the directory, where there is one. -/
def collectDeltaEntries (pages : IndexPages R) (bm25Meta : Bm25Meta R) (cache : Cache)
    (filterTerms : Option (List QueryTerm)) : Except Fault (List DeltaBuildEntry) :=
  match filterTerms, bm25Meta.deltaTermDirectoryBlkno.bind pages.deltaDirectory with
  | some (term :: rest), some directory => scanTermSegments cache (term :: rest) directory
  | _, _ => scanDeltaDocs cache filterTerms (chainFrom pages.delta bm25Meta.deltaStartBlkno)

def buildDeltaCacheEntries (pages : IndexPages R) (bm25Meta : Bm25Meta R) (cache : Cache)
    (filterTerms : Option (List QueryTerm)) : Except Fault (List DeltaCacheEntry) := do
  let entries ← collectDeltaEntries pages bm25Meta cache filterTerms
  return finalizeDeltaBuildEntries entries

def findDeltaEntry (deltaTerms : List DeltaCacheEntry) (term : QueryTerm) :
    Option DeltaCacheEntry :=
  deltaTerms.find? fun candidate =>
    candidate.termHash == term.termHash && candidate.term == term.term

def countDeltaDf (deltaTerms : List DeltaCacheEntry) (term : QueryTerm) : Nat :=
  ((findDeltaEntry deltaTerms term).map DeltaCacheEntry.df).getD 0

/-! ### The cache a query works with -/

section GetCache

variable {pages : IndexPages R} {bm25Meta : Bm25Meta R} {session : Session} {cache : Cache}

theorem buildCache_matches (pages : IndexPages R) (bm25Meta : Bm25Meta R) :
    cacheMatches pages bm25Meta (buildCache pages bm25Meta) = true := by
  simp [cacheMatches, buildCache]

theorem mem_dropStaleCaches (member : cache ∈ dropStaleCaches pages bm25Meta session) :
    cache ∈ session :=
  (List.mem_filter.mp member).1

theorem dropStaleCaches_find :
    (dropStaleCaches pages bm25Meta session).find? (cacheMatches pages bm25Meta) =
      session.find? (cacheMatches pages bm25Meta) := by
  induction session with
  | nil => rfl
  | cons cache rest ih =>
    rw [dropStaleCaches, List.filter_cons, List.find?_cons]
    by_cases accepted : cacheMatches pages bm25Meta cache = true
    · rw [accepted, Bool.or_true, if_pos rfl, List.find?_cons, accepted]
    · have refused : cacheMatches pages bm25Meta cache = false := by simpa using accepted
      rw [refused, ← ih]
      split_ifs
      · rw [List.find?_cons, refused]
        rfl
      · rfl

theorem openCache_cases (accepts : Cache → Bool) (fresh : Cache) (caches : List Cache) :
    (caches.find? accepts = some (openCache accepts fresh caches).cache ∧
        (openCache accepts fresh caches).session = caches) ∨
      (caches.find? accepts = none ∧ (openCache accepts fresh caches).cache = fresh ∧
        (openCache accepts fresh caches).session = fresh :: caches) := by
  have split := List.takeWhile_append_dropWhile (p := fun cache => !accepts cache) (l := caches)
  have refused : ∀ cache ∈ caches.takeWhile fun cache => !accepts cache, ¬ accepts cache = true :=
    fun cache member accepted => by
      have := List.mem_takeWhile_imp member
      rw [accepted] at this
      cases this
  have first := List.head?_dropWhile_not (fun cache => !accepts cache) caches
  unfold openCache
  cases dropped : caches.dropWhile fun cache => !accepts cache with
  | nil =>
    rw [dropped, List.append_nil] at split
    rw [split] at refused
    exact Or.inr ⟨List.find?_eq_none.mpr refused, rfl, rfl⟩
  | cons cache later =>
    rw [dropped] at split first
    have accepted : accepts cache = true := by simpa using first
    refine Or.inl ⟨?_, split⟩
    rw [← split, List.find?_append, List.find?_eq_none.mpr refused, List.find?_cons, accepted]
    rfl

theorem getCache_cases (pages : IndexPages R) (bm25Meta : Bm25Meta R) (session : Session) :
    (session.find? (cacheMatches pages bm25Meta) = some (getCache pages bm25Meta session).cache ∧
        (getCache pages bm25Meta session).session = dropStaleCaches pages bm25Meta session) ∨
      (session.find? (cacheMatches pages bm25Meta) = none ∧
        (getCache pages bm25Meta session).cache = buildCache pages bm25Meta ∧
          (getCache pages bm25Meta session).session =
            buildCache pages bm25Meta :: dropStaleCaches pages bm25Meta session) := by
  rw [← dropStaleCaches_find]
  exact openCache_cases _ _ _

theorem getCache_matches (pages : IndexPages R) (bm25Meta : Bm25Meta R) (session : Session) :
    cacheMatches pages bm25Meta (getCache pages bm25Meta session).cache = true := by
  rcases getCache_cases pages bm25Meta session with ⟨found, -⟩ | ⟨-, built, -⟩
  · exact List.find?_some found
  · rw [built]
    exact buildCache_matches pages bm25Meta

theorem mem_getCache (member : cache ∈ (getCache pages bm25Meta session).session) :
    cache ∈ session ∨ cache = buildCache pages bm25Meta := by
  rcases getCache_cases pages bm25Meta session with ⟨-, kept⟩ | ⟨-, -, kept⟩
  · rw [kept] at member
    exact Or.inl (mem_dropStaleCaches member)
  · rw [kept] at member
    rcases List.mem_cons.mp member with rfl | old
    · exact Or.inr rfl
    · exact Or.inl (mem_dropStaleCaches old)

theorem Opened.cache_mem (opened : Opened) : opened.cache ∈ opened.session :=
  List.mem_append_right _ List.mem_cons_self

theorem mem_replaced {opened : Opened} {changed : Cache}
    (member : cache ∈ { opened with cache := changed }.session) :
    cache ∈ opened.session ∨ cache = changed := by
  rcases List.mem_append.mp member with before | inside
  · exact Or.inl (List.mem_append_left _ before)
  · rcases List.mem_cons.mp inside with rfl | after
    · exact Or.inr rfl
    · exact Or.inl (List.mem_append_right _ (List.mem_cons_of_mem _ after))

end GetCache

/-! ### Reading live flags -/

section Live

variable {Item : Type} {cache : Cache} {nodeOf : Item → Nat}

/-- The live flags are loaded and cover the nodes of the cache. -/
def LiveNodesLoaded (cache : Cache) : Prop :=
  ∃ liveness, cache.liveness = some liveness ∧ cache.nodeCount ≤ liveness.liveNodes.length

def Cache.live (cache : Cache) (nodeId : Nat) : Bool :=
  decide (nodeId < cache.nodeCount) &&
    (cache.liveness.map fun liveness => liveness.liveNodes.getD nodeId false).getD false

theorem deltaNodeLive_loaded (loaded : LiveNodesLoaded cache) (nodeId : Nat) :
    deltaNodeLive cache nodeId = .ok (cache.live nodeId) := by
  obtain ⟨liveness, there, long⟩ := loaded
  rw [deltaNodeLive, Cache.live, there]
  split_ifs with outside
  · simp [not_lt.mpr outside]
  · have inside : nodeId < liveness.liveNodes.length := by omega
    simp [inside, not_le.mp outside]

/-- **Where the live flags are loaded** the items at live nodes are kept. -/
theorem keepLive_loaded (loaded : LiveNodesLoaded cache) (items : List Item) :
    keepLive cache nodeOf items = .ok (items.filter fun item => cache.live (nodeOf item)) := by
  induction items with
  | nil => rfl
  | cons item rest ih =>
    rw [keepLive, deltaNodeLive_loaded loaded, ih, List.filter_cons]
    rfl

end Live

/-! ### The entries of the delta -/

section Entries

variable {pages : IndexPages R} {bm25Meta : Bm25Meta R} {cache : Cache}
  {filterTerms : Option (List QueryTerm)}

theorem mem_finalizeDeltaBuildEntries {entries : List DeltaBuildEntry} {entry : DeltaCacheEntry}
    (member : entry ∈ finalizeDeltaBuildEntries entries) {posting : DeltaTermPosting}
    (inside : posting ∈ entry.postings) : ∃ source ∈ entries, source.posting = posting := by
  obtain ⟨group, grouped, made⟩ := List.mem_filterMap.mp member
  obtain ⟨first, -, rfl⟩ := Option.map_eq_some_iff.mp made
  obtain ⟨source, held, rfl⟩ := List.mem_map.mp inside
  refine ⟨source, ?_, rfl⟩
  have flat := List.mem_flatten_of_mem grouped held
  rw [List.flatten_splitBy] at flat
  exact (List.mem_insertionSort _).mp flat

theorem scanTermSegments_live (loaded : LiveNodesLoaded cache) (terms : List QueryTerm)
    (directory : List (List DeltaTermTuple)) :
    ∃ entries, scanTermSegments cache terms directory = .ok entries ∧
      ∀ entry ∈ entries, cache.live entry.posting.nodeId = true :=
  ⟨_, keepLive_loaded loaded _, fun _ member => (List.mem_filter.mp member).2⟩

theorem scanDeltaDocs_live (loaded : LiveNodesLoaded cache) (tuples : List DeltaTuple) :
    ∃ entries, scanDeltaDocs cache filterTerms tuples = .ok entries ∧
      ∀ entry ∈ entries, cache.live entry.posting.nodeId = true := by
  rw [scanDeltaDocs, keepLive_loaded loaded]
  refine ⟨_, rfl, fun entry member => ?_⟩
  obtain ⟨tuple, kept, held⟩ := List.mem_flatMap.mp member
  obtain ⟨term, -, rfl⟩ := List.mem_map.mp held
  exact (List.mem_filter.mp kept).2

/-- **With the live flags loaded the delta is read**, and its postings are at live nodes. -/
theorem buildDeltaCacheEntries_live (loaded : LiveNodesLoaded cache) :
    ∃ deltaTerms, buildDeltaCacheEntries pages bm25Meta cache filterTerms = .ok deltaTerms ∧
      ∀ entry ∈ deltaTerms, ∀ posting ∈ entry.postings, cache.live posting.nodeId = true := by
  have collected : ∃ entries, collectDeltaEntries pages bm25Meta cache filterTerms = .ok entries ∧
      ∀ entry ∈ entries, cache.live entry.posting.nodeId = true := by
    unfold collectDeltaEntries
    split
    · exact scanTermSegments_live loaded _ _
    · exact scanDeltaDocs_live loaded _
  obtain ⟨entries, scanned, live⟩ := collected
  rw [buildDeltaCacheEntries, scanned]
  refine ⟨_, rfl, fun entry member posting inside => ?_⟩
  obtain ⟨source, there, rfl⟩ := mem_finalizeDeltaBuildEntries member inside
  exact live source there

end Entries

end TurboHybrid.Reader
