/-
**Two ways into the delta: term segments and documents.**

A query with terms reads the segments of the buckets its terms fall in, where the metadata names a
directory; without one it walks the documents and keeps the terms it looks for.

* `lookupDelta`, `scanDocuments`: the two walks over the pages;
* `perm_fibres`: the items picked by their keys, one key after the other;
* `scanTermSegments_perm`: on the segments of some documents both walks find the same postings;
* `deltaLookups_agree`: so they do after any history of inserts since the last compaction;
* `deltaDocuments_read`: the documents read are those that were inserted.
-/
import TurboHybrid.Library.Results
import TurboHybrid.Store.Delta

namespace TurboHybrid.Store

open TurboHybrid.Index TurboHybrid.Library TurboHybrid.Query TurboHybrid.Reader TurboHybrid.Scan

variable {R : Type}

/-! ### The walks over the pages -/

inductive LookupError where
  | directory (error : DeltaError)
  | chain (error : ChainError)
  | fault (fault : Fault)

def duringWalk {Value : Type} : Except ChainError Value → Except LookupError Value
  | .ok value => .ok value
  | .error error => .error (.chain error)

def duringDirectory {Value : Type} : Except DeltaError Value → Except LookupError Value
  | .ok value => .ok value
  | .error error => .error (.directory error)

def duringRead {Value : Type} : Except Fault Value → Except LookupError Value
  | .ok value => .ok value
  | .error fault => .error (.fault fault)

def readDeltaDocuments (pages : List (StorePage R)) (start : Option BlockNumber) :
    Except ChainError (List DeltaTuple) := do
  let items ← readChain .delta pages pages.length start
  return items.filterMap StoreItem.delta?

def bucketNeeded (filterTerms : List QueryTerm) (bucketNo : Nat) : Bool :=
  filterTerms.any fun term => deltaTermBucketNo term.termHash == bucketNo

/-- The segments of a bucket, if one of the terms falls in it. -/
def readBucket (pages : List (StorePage R)) (filterTerms : List QueryTerm)
    (numbered : DeltaTermBucket × Nat) : Except ChainError (List DeltaTermTuple) :=
  if bucketNeeded filterTerms numbered.2 then do
    let items ← readChain .deltaTerm pages pages.length numbered.1.startBlkno
    return items.filterMap StoreItem.deltaTerm?
  else .ok []

def readBuckets (pages : List (StorePage R)) (filterTerms : List QueryTerm)
    (directory : DeltaDirectory) : Except ChainError (List (List DeltaTermTuple)) :=
  directory.zipIdx.mapM (readBucket pages filterTerms)

def scanDocuments (state : DeltaState R) (cache : Cache) (filterTerms : List QueryTerm) :
    Except LookupError (List DeltaBuildEntry) := do
  let documents ← duringWalk (readDeltaDocuments state.pages state.deltaMeta.deltaStartBlkno)
  duringRead (scanDeltaDocs cache (some filterTerms) documents)

/-- The walk over the segments of the terms' buckets, or over the documents if there are no terms
or no directory. -/
def lookupDelta (state : DeltaState R) (cache : Cache) (filterTerms : List QueryTerm) :
    Except LookupError (List DeltaBuildEntry) :=
  if filterTerms.isEmpty then scanDocuments state cache filterTerms
  else
    match state.deltaMeta.deltaTermDirectoryBlkno with
    | none => scanDocuments state cache filterTerms
    | some blkno => do
      let directory ← duringDirectory (readDeltaDirectory state.pages (some blkno))
      match directory with
      | none => scanDocuments state cache filterTerms
      | some directory => do
        let buckets ← duringWalk (readBuckets state.pages filterTerms directory)
        duringRead (scanTermSegments cache filterTerms buckets)

/-! ### Items by key -/

theorem perm_fibres {Item : Type} (keys : List Nat) (items : List Item) (keyOf : Item → Nat)
    (distinct : keys.Nodup) (covered : ∀ item ∈ items, keyOf item ∈ keys) :
    (keys.flatMap fun key => items.filter fun item => keyOf item == key).Perm items := by
  have single (key : Nat) : ∀ keys : List Nat, keys.Nodup → ∀ item : Item, key ∈ keys →
      keys.flatMap (fun other => if key = other then [item] else []) = [item] := by
    intro keys nodup item member
    induction keys with
    | nil => cases member
    | cons other rest ih =>
      obtain ⟨absent, nodup⟩ := List.nodup_cons.mp nodup
      rw [List.flatMap_cons]
      by_cases here : key = other
      · have none : rest.flatMap (fun other => if key = other then [item] else []) = [] := by
          refine List.flatMap_eq_nil_iff.mpr fun later inside => if_neg ?_
          rintro rfl
          exact absent (here ▸ inside)
        rw [if_pos here, none]
        rfl
      · rcases List.mem_cons.mp member with rfl | later
        · exact absurd rfl here
        · rw [if_neg here, List.nil_append, ih nodup later]
  induction items with
  | nil => simp
  | cons item rest ih =>
    have split : (keys.flatMap fun key => (item :: rest).filter fun item => keyOf item == key) =
        keys.flatMap fun key => (if keyOf item = key then [item] else []) ++
          rest.filter fun item => keyOf item == key := by
      refine List.flatMap_congr fun key _ => ?_
      rw [List.filter_cons]
      by_cases here : keyOf item = key
      · rw [if_pos here, if_pos (beq_iff_eq.mpr here)]
        rfl
      · rw [if_neg here, if_neg fun same => here (beq_iff_eq.mp same)]
        rfl
    rw [split]
    refine (List.flatMap_append_perm keys _ _).symm.trans ?_
    rw [single (keyOf item) keys distinct item (covered item List.mem_cons_self)]
    exact (ih fun item member => covered item (.tail _ member)).cons item

/-! ### Reads of live flags -/

section Live

variable {Item : Type} {cache : Cache} {nodeOf : Item → Nat}

def Readable (cache : Cache) (nodeId : Nat) : Prop := ∃ live, deltaNodeLive cache nodeId = .ok live

def readLive (cache : Cache) (nodeId : Nat) : Bool := (deltaNodeLive cache nodeId).toOption.getD false

theorem keepLive_readable {items : List Item}
    (readable : ∀ item ∈ items, Readable cache (nodeOf item)) :
    keepLive cache nodeOf items = .ok (items.filter fun item => readLive cache (nodeOf item)) := by
  induction items with
  | nil => rfl
  | cons item rest ih =>
    obtain ⟨live, read⟩ := readable item List.mem_cons_self
    rw [keepLive, read, ih fun item member => readable item (.tail _ member), List.filter_cons,
      readLive, read]
    rfl

theorem readable_of_keepLive {items kept : List Item} (done : keepLive cache nodeOf items = .ok kept) :
    ∀ item ∈ items, Readable cache (nodeOf item) := by
  induction items generalizing kept with
  | nil => exact fun item absent => nomatch absent
  | cons first rest ih =>
    rw [keepLive] at done
    cases read : deltaNodeLive cache (nodeOf first) with
    | error fault =>
      rw [read] at done
      cases done
    | ok live =>
      cases later : keepLive cache nodeOf rest with
      | error fault =>
        rw [read, later] at done
        cases done
      | ok kept' =>
        intro item member
        rcases List.mem_cons.mp member with rfl | inside
        · exact ⟨live, read⟩
        · exact ih later item inside

end Live

/-! ### Segments and documents -/

def buildEntryOf (delta : DeltaTuple) (term : DeltaTerm) : DeltaBuildEntry :=
  ⟨term.termHash, term.term, ⟨delta.nodeId, delta.heaptid, delta.docLen, term.tf⟩⟩

def wanted (filterTerms : List QueryTerm) (term : Lexeme) : Bool :=
  (findQueryTerm filterTerms term).isSome

theorem bucketNeeded_of_wanted {filterTerms : List QueryTerm} {term : Lexeme}
    (found : wanted filterTerms term = true) :
    bucketNeeded filterTerms (deltaTermBucketNo (hashTerm term)) = true := by
  rw [wanted, findQueryTerm, List.findIdx?_isSome, List.any_eq_true] at found
  obtain ⟨candidate, member, same⟩ := found
  simp only [Bool.and_eq_true, beq_iff_eq] at same
  exact List.any_eq_true.mpr ⟨candidate, member, by rw [same.1.2, beq_self_eq_true]⟩

def bucketLists (filterTerms : List QueryTerm) (segments : List DeltaTermTuple) :
    List (List DeltaTermTuple) :=
  (List.range deltaTermBuckets).map fun bucketNo =>
    if bucketNeeded filterTerms bucketNo then inBucket bucketNo segments else []

theorem neededBuckets (filterTerms : List QueryTerm) (segments : List DeltaTermTuple) :
    ((bucketLists filterTerms segments).zipIdx.filter fun (_, bucketNo) =>
        filterTerms.any fun term => deltaTermBucketNo term.termHash == bucketNo).flatMap Prod.fst =
      ((List.range deltaTermBuckets).filter (bucketNeeded filterTerms)).flatMap fun bucketNo =>
        inBucket bucketNo segments := by
  have numbered : (bucketLists filterTerms segments).zipIdx =
      (List.range deltaTermBuckets).map fun bucketNo =>
        (if bucketNeeded filterTerms bucketNo then inBucket bucketNo segments else [], bucketNo) := by
    refine List.ext_getElem (by simp [bucketLists]) fun index inside _ => ?_
    simp [bucketLists]
  rw [numbered, List.filter_map, List.flatMap_map]
  refine List.flatMap_congr fun bucketNo member => ?_
  exact if_pos (List.mem_filter.mp member).2

theorem neededTuples_perm {filterTerms : List QueryTerm} {segments : List DeltaTermTuple}
    (hashed : ∀ segment ∈ segments, segment.termHash = hashTerm segment.term) :
    ((((bucketLists filterTerms segments).zipIdx.filter fun (_, bucketNo) =>
        filterTerms.any fun term => deltaTermBucketNo term.termHash == bucketNo).flatMap
          Prod.fst).filter fun tuple => (findQueryTerm filterTerms tuple.term).isSome).Perm
      (segments.filter fun tuple => wanted filterTerms tuple.term) := by
  rw [neededBuckets, List.filter_flatMap]
  have swapped : (((List.range deltaTermBuckets).filter (bucketNeeded filterTerms)).flatMap
      fun bucketNo => (inBucket bucketNo segments).filter fun tuple =>
        (findQueryTerm filterTerms tuple.term).isSome) =
      ((List.range deltaTermBuckets).filter (bucketNeeded filterTerms)).flatMap fun bucketNo =>
        (segments.filter fun tuple => wanted filterTerms tuple.term).filter fun tuple =>
          deltaTermBucketNo tuple.termHash == bucketNo := by
    refine List.flatMap_congr fun bucketNo _ => ?_
    rw [inBucket, List.filter_filter, List.filter_filter]
    refine List.filter_congr fun tuple _ => Bool.and_comm _ _
  rw [swapped]
  refine perm_fibres _ _ (fun tuple : DeltaTermTuple => deltaTermBucketNo tuple.termHash)
    (List.nodup_range.filter _) fun tuple member => ?_
  obtain ⟨inside, found⟩ := List.mem_filter.mp member
  refine List.mem_filter.mpr ⟨List.mem_range.mpr (deltaTermBucketNo_lt _), ?_⟩
  rw [hashed tuple inside]
  exact bucketNeeded_of_wanted found

/-- The segments of the documents are hashed as their terms are. -/
def Hashed (documents : List DeltaTuple) : Prop :=
  ∀ delta ∈ documents, ∀ term ∈ delta.terms, term.termHash = hashTerm term.term

theorem segmentsOf_hashed {documents : List DeltaTuple} (hashed : Hashed documents) :
    ∀ segment ∈ segmentsOf documents, segment.termHash = hashTerm segment.term := by
  intro segment member
  obtain ⟨delta, inside, held⟩ := List.mem_flatMap.mp member
  obtain ⟨term, termed, rfl⟩ := List.mem_map.mp held
  exact hashed delta inside term termed

def segmentEntries (tuple : DeltaTermTuple) : List DeltaBuildEntry :=
  tuple.postings.map fun posting => ⟨tuple.termHash, tuple.term, posting⟩

/-- The postings of the wanted terms, document by document. -/
def wantedEntries (filterTerms : List QueryTerm) (documents : List DeltaTuple) :
    List DeltaBuildEntry :=
  documents.flatMap fun delta =>
    (delta.terms.filter fun term => wanted filterTerms term.term).map (buildEntryOf delta)

theorem wantedSegments_entries (filterTerms : List QueryTerm) (documents : List DeltaTuple) :
    ((segmentsOf documents).filter fun tuple => wanted filterTerms tuple.term).flatMap
      segmentEntries = wantedEntries filterTerms documents := by
  rw [segmentsOf, List.filter_flatMap, List.flatMap_assoc, wantedEntries]
  refine List.flatMap_congr fun delta _ => ?_
  rw [List.filter_map, List.flatMap_map, List.map_eq_flatMap]
  rfl

theorem scanDeltaDocs_entries {cache : Cache} {filterTerms : List QueryTerm}
    {documents : List DeltaTuple}
    (readable : ∀ delta ∈ documents, Readable cache delta.nodeId) :
    scanDeltaDocs cache (some filterTerms) documents =
      .ok ((wantedEntries filterTerms documents).filter fun entry =>
        readLive cache entry.posting.nodeId) := by
  rw [scanDeltaDocs, keepLive_readable readable]
  refine congrArg Except.ok ?_
  rw [wantedEntries, List.filter_flatMap]
  have each (delta : DeltaTuple) :
      (((delta.terms.filter fun term => wanted filterTerms term.term).map
        (buildEntryOf delta)).filter fun entry => readLive cache entry.posting.nodeId) =
      if readLive cache delta.nodeId then
        (delta.terms.filter fun term => wanted filterTerms term.term).map (buildEntryOf delta)
      else [] := by
    cases live : readLive cache delta.nodeId with
    | true =>
      refine List.filter_eq_self.mpr fun entry member => ?_
      obtain ⟨term, -, rfl⟩ := List.mem_map.mp member
      exact live
    | false =>
      refine List.filter_eq_nil_iff.mpr fun entry member => ?_
      obtain ⟨term, -, rfl⟩ := List.mem_map.mp member
      exact Bool.eq_false_iff.mp live
  rw [List.flatMap_congr fun delta _ => each delta]
  clear readable
  induction documents with
  | nil => rfl
  | cons delta rest ih =>
    rw [List.filter_cons, List.flatMap_cons]
    cases live : readLive cache delta.nodeId with
    | true => exact congrArg _ ih
    | false => exact ih

/-- **On the segments of some documents** the walk over the buckets finds what the walk over the
documents finds. -/
theorem scanTermSegments_perm {cache : Cache} (filterTerms : List QueryTerm)
    {documents : List DeltaTuple} (hashed : Hashed documents)
    (readable : ∀ delta ∈ documents, Readable cache delta.nodeId) :
    ∃ found scanned,
      scanTermSegments cache filterTerms (bucketLists filterTerms (segmentsOf documents)) =
        .ok found ∧
      scanDeltaDocs cache (some filterTerms) documents = .ok scanned ∧ found.Perm scanned := by
  have tuples := @neededTuples_perm filterTerms _ (segmentsOf_hashed hashed)
  have entries := tuples.flatMap_right segmentEntries
  rw [wantedSegments_entries] at entries
  have inside : ∀ entry ∈ wantedEntries filterTerms documents,
      Readable cache entry.posting.nodeId := by
    intro entry member
    obtain ⟨delta, there, held⟩ := List.mem_flatMap.mp member
    obtain ⟨term, -, rfl⟩ := List.mem_map.mp held
    exact readable delta there
  refine ⟨_, _, keepLive_readable fun entry member => inside entry (entries.subset member),
    scanDeltaDocs_entries readable, entries.filter _⟩

/-! ### After a history of inserts -/

theorem readDeltaDocuments_spec {pages : List (StorePage R)} {start : Option BlockNumber}
    {blocks : List Nat} {documents : List DeltaTuple}
    (chain : DocumentChain pages start blocks documents) :
    readDeltaDocuments pages start = .ok documents := by
  rw [readDeltaDocuments, readChain_items chain.chain chain.chain.length_le, chain.items]
  refine congrArg Except.ok ?_
  rw [List.filterMap_map]
  exact List.filterMap_some

theorem readBuckets_spec {pages : List (StorePage R)} {directory : DeltaDirectory}
    {blocksOf : Nat → List Nat} {segments : List DeltaTermTuple}
    (chains : BucketChains pages directory blocksOf segments) (filterTerms : List QueryTerm) :
    readBuckets pages filterTerms directory = .ok (bucketLists filterTerms segments) := by
  have each : ∀ numbered ∈ directory.zipIdx, readBucket pages filterTerms numbered =
      .ok (if bucketNeeded filterTerms numbered.2 then inBucket numbered.2 segments else []) := by
    rintro ⟨bucket, bucketNo⟩ member
    have there := List.mem_zipIdx_iff_getElem?.mp member
    have inside : bucketNo < deltaTermBuckets :=
      chains.length ▸ (List.getElem?_eq_some_iff.mp there).1
    have named : bucketAt directory bucketNo = bucket := by
      rw [bucketAt, List.getD_eq_getElem?_getD, there]
      rfl
    have chain := chains.chain bucketNo inside
    rw [named] at chain
    unfold readBucket
    split_ifs
    · rw [readChain_items chain chain.length_le, chains.items bucketNo inside]
      refine congrArg Except.ok ?_
      rw [List.filterMap_map]
      exact List.filterMap_some
    · rfl
  rw [readBuckets, mapM_ok each]
  refine congrArg Except.ok ?_
  have numbers : directory.zipIdx.map Prod.snd = List.range deltaTermBuckets := by
    rw [List.zipIdx_map_snd, chains.length, List.range_eq_range']
  rw [bucketLists, ← numbers, List.map_map]
  rfl

/-- An index as a compaction or a build leaves it: no delta, and cursors for blocks it has. -/
structure CompactedDelta (R : Type) where
  state : DeltaState R
  noDelta : state.deltaMeta.deltaStartBlkno = none
  noDirectory : state.deltaMeta.deltaTermDirectoryBlkno = none
  known : ∀ backend cursor, state.cursors backend = some cursor → cursor.start < state.pages.length

theorem CompactedDelta.holds (compacted : CompactedDelta R) : Holds compacted.state [] :=
  ⟨[], ⟨compacted.noDelta, rfl⟩, Or.inl ⟨compacted.noDirectory, rfl⟩, fun backend cursor there =>
    ⟨compacted.known backend cursor there, fun same => nomatch same.trans compacted.noDelta⟩⟩

theorem history_hashed (history : List DeltaAction) :
    Hashed (history.filterMap DeltaAction.document) := by
  intro delta member term inside
  obtain ⟨action, -, made⟩ := List.mem_filterMap.mp member
  cases action with
  | elsewhere backend => cases made
  | insert backend insertion =>
    rw [DeltaAction.document] at made
    split_ifs at made with accepted
    rw [← Option.some.inj made] at inside
    exact (collectVectorTerms_spec inside).1

theorem scanDocuments_spec {state : DeltaState R} {documents : List DeltaTuple}
    (holds : Holds state documents) (cache : Cache) (filterTerms : List QueryTerm) :
    scanDocuments state cache filterTerms =
      duringRead (scanDeltaDocs cache (some filterTerms) documents) := by
  obtain ⟨blocks, chain, -, -⟩ := holds
  rw [scanDocuments, readDeltaDocuments_spec chain]
  rfl

/-- The walk over the buckets reads the segments of the documents, where there is a directory. -/
theorem lookupDelta_spec {state : DeltaState R} {documents : List DeltaTuple}
    (holds : Holds state documents) (cache : Cache) (filterTerms : List QueryTerm) :
    lookupDelta state cache filterTerms = scanDocuments state cache filterTerms ∨
      lookupDelta state cache filterTerms = duringRead
        (scanTermSegments cache filterTerms (bucketLists filterTerms (segmentsOf documents))) := by
  obtain ⟨blocks, chain, directory, cursors⟩ := holds
  rw [lookupDelta]
  by_cases empty : filterTerms.isEmpty = true
  · rw [if_pos empty]
    exact Or.inl rfl
  rw [if_neg empty]
  rcases directory with ⟨absent, -⟩ | ⟨block, directory, blocksOf, named, there, chains⟩
  · rw [absent]
    exact Or.inl rfl
  · have found : readDeltaDirectory state.pages (some block) = .ok (some directory) := by
      rw [readDeltaDirectory, there]
      dsimp only
      rw [if_neg (not_not.mpr rfl)]
      show (if directory.length ≠ deltaTermBuckets then _ else _) = _
      rw [if_neg (not_not.mpr chains.length)]
    refine Or.inr ?_
    rw [named]
    show (duringDirectory (readDeltaDirectory _ _) >>= _) = _
    rw [found]
    show (duringWalk (readBuckets _ _ _) >>= _) = _
    rw [readBuckets_spec chains]
    rfl

/-- **The two ways into the delta agree.** After any inserts since the last compaction, whatever the
walk over the documents reads, the walk over the segments reads too, and finds the same postings;
and with its live flags loaded a reader reads. -/
theorem deltaLookups_agree (compacted : CompactedDelta R) (history : List DeltaAction)
    (cache : Cache) (filterTerms : List QueryTerm) :
    (∀ scanned,
      scanDocuments (runDelta compacted.state history) cache filterTerms = .ok scanned →
        ∃ found, lookupDelta (runDelta compacted.state history) cache filterTerms = .ok found ∧
          found.Perm scanned) ∧
      (LiveNodesLoaded cache → ∃ scanned,
        scanDocuments (runDelta compacted.state history) cache filterTerms = .ok scanned) := by
  have holds := runDelta_spec compacted.holds history
  rw [List.nil_append] at holds
  rw [scanDocuments_spec holds]
  constructor
  · intro scanned done
    have walked : scanDeltaDocs cache (some filterTerms)
        (history.filterMap DeltaAction.document) = .ok scanned := by
      cases walk : scanDeltaDocs cache (some filterTerms)
          (history.filterMap DeltaAction.document) with
      | error fault =>
        rw [walk] at done
        cases done
      | ok entries =>
        rw [walk] at done
        cases done
        rfl
    have readable : ∀ delta ∈ history.filterMap DeltaAction.document,
        Readable cache delta.nodeId := by
      rw [scanDeltaDocs] at walked
      cases kept : keepLive cache DeltaTuple.nodeId (history.filterMap DeltaAction.document) with
      | error fault =>
        rw [kept] at walked
        cases walked
      | ok _ => exact readable_of_keepLive kept
    obtain ⟨found, entries, read, walked', perm⟩ :=
      scanTermSegments_perm filterTerms (history_hashed history) readable
    obtain rfl := Except.ok.inj (walked.symm.trans walked')
    rcases lookupDelta_spec holds cache filterTerms with same | segments
    · exact ⟨scanned, by rw [same, scanDocuments_spec holds, walked]; rfl, List.Perm.refl _⟩
    · exact ⟨found, by rw [segments, read]; rfl, perm⟩
  · intro loaded
    rw [scanDeltaDocs, keepLive_loaded loaded]
    exact ⟨_, rfl⟩

/-- **What was inserted is read back.** After any inserts of any backends since the last compaction
the delta holds the accepted documents, in the order of the inserts, and no others. -/
theorem deltaDocuments_read (compacted : CompactedDelta R) (history : List DeltaAction) :
    let state := runDelta compacted.state history
    readDeltaDocuments state.pages state.deltaMeta.deltaStartBlkno =
      .ok (history.filterMap DeltaAction.document) := by
  obtain ⟨blocks, chain, -, -⟩ := runDelta_spec compacted.holds history
  exact readDeltaDocuments_spec chain

/-! ### Two inserts of one lexeme -/

def freshDelta : CompactedDelta Unit where
  state := ⟨1, 1, true, [⟨some .other, [], none⟩], ⟨none, none, 0, 0, 0, 0, 0, 0⟩, fun _ => none⟩
  noDelta := rfl
  noDirectory := rfl
  known _ _ there := nomatch there

def oneLexeme : List WordEntry := [.single 97 2]

/-- Two backends insert one document each, the second with an empty lexeme as well. -/
def twoInserts : List DeltaAction :=
  [.insert 0 ⟨0, (1, 1), oneLexeme, 65536⟩,
    .insert 1 ⟨1, (1, 2), ⟨[], 0, by decide⟩ :: oneLexeme, 65536⟩]

def twoNodeCache : Cache :=
  ⟨1, 1, 0, 2, 0, 0, 2, 0, none, none, none, none, some 1, some 4, [], none,
    some ⟨[(1, 1), (1, 2)], [true, true]⟩, none⟩

theorem deltaLookups_agree_twoInserts :
    ∃ found scanned,
      lookupDelta (runDelta freshDelta.state twoInserts) twoNodeCache
        [⟨[97], hashTerm [97], 1, 0⟩] = .ok found ∧
      scanDocuments (runDelta freshDelta.state twoInserts) twoNodeCache
        [⟨[97], hashTerm [97], 1, 0⟩] = .ok scanned ∧ found.Perm scanned := by
  obtain ⟨agree, reads⟩ := deltaLookups_agree freshDelta twoInserts twoNodeCache
    [⟨[97], hashTerm [97], 1, 0⟩]
  obtain ⟨scanned, walked⟩ := reads ⟨_, rfl, le_rfl⟩
  obtain ⟨found, read, perm⟩ := agree scanned walked
  exact ⟨found, scanned, read, walked, perm⟩

end TurboHybrid.Store
