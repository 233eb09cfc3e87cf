/-
**Where a compaction stops, the index is as it was.**

The pointers of an index stay inside, whatever happens to it. A compaction that stops has written
beyond the pages there were, so a reader that starts from the metadata does not see what it wrote.

* `Sound`: the pointers of the pages and of the metadata stay inside;
* `pointers_inside`: they do in every state an index gets to;
* `SameLookups`: two states that no lookup tells apart;
* `compaction_atomic`: a compaction that has not published leaves every lookup as it was.
-/
import TurboHybrid.Store.Compaction

set_option linter.unusedSectionVars false

namespace TurboHybrid.Store

open TurboHybrid.Index TurboHybrid.Library TurboHybrid.Query TurboHybrid.Reader TurboHybrid.Scan

variable {R : Type}

/-! ### Appends -/

/-- What an append leaves: pointers inside, no fewer pages, and the graph's pages as they were. -/
structure Appends (pages changed : List (StorePage R)) : Prop where
  inside : PointersInside changed
  length : pages.length ≤ changed.length
  graph : ∀ (block : BlockNumber) (page : StorePage R), pages[block]? = some page →
    page.kind = some .other → changed[block]? = some page

theorem Appends.trans {pages middle changed : List (StorePage R)} (first : Appends pages middle)
    (second : Appends middle changed) : Appends pages changed :=
  ⟨second.inside, first.length.trans second.length, fun block page there other =>
    second.graph block page (first.graph block page there other) other⟩

theorem Appends.refl {pages : List (StorePage R)} (inside : PointersInside pages) :
    Appends pages pages :=
  ⟨inside, Nat.le_refl _, fun _ _ there _ => there⟩

theorem set_graph {pages : List (StorePage R)} {tail : BlockNumber} {old new : StorePage R}
    (there : pages[tail]? = some old) (notGraph : old.kind ≠ some .other)
    (more : List (StorePage R)) {block : BlockNumber} {page : StorePage R}
    (held : pages[block]? = some page) (other : page.kind = some .other) :
    (pages.set tail new ++ more)[block]? = some page := by
  have inside := (List.getElem?_eq_some_iff.mp held).1
  have apart : tail ≠ block := by
    rintro rfl
    exact notGraph ((Option.some.inj (there.symm.trans held)) ▸ other)
  rw [List.getElem?_append_left (by rwa [List.length_set]), List.getElem?_set_ne apart, held]

theorem appendAt_graph {logged : Bool} {kind : PageKind} (notGraph : kind ≠ .other)
    {before pages : List (StorePage R)} {tail : BlockNumber} {item : StoreItem R}
    {block : BlockNumber} {page : StorePage R} (held : before[block]? = some page)
    (held' : pages[block]? = some page) (other : page.kind = some .other) :
    Yields (fun refused : Refused PageKind (StoreItem R) => refused.pages[block]? = some page)
      (fun result => result.1[block]? = some page)
      (appendAt fitsPage logged kind before pages tail item) := by
  unfold appendAt
  cases there : pages[tail]? with
  | none => exact held'
  | some old =>
    dsimp only
    split_ifs with wrong room fresh
    · exact held'
    all_goals
      have ours : old.kind ≠ some .other := by
        rw [not_not.mp wrong]
        exact fun same => notGraph (Option.some.inj same)
    · have set := @set_graph _ _ _ _ { old with items := old.items ++ [item] } there ours [] _ _
        held' other
      rwa [List.append_nil] at set
    · exact set_graph there ours _ held' other
    · exact (List.getElem?_append_left (List.getElem?_eq_some_iff.mp held).1).trans held
    · exact set_graph there ours _ held' other

theorem appendTuple_graph {logged : Bool} {kind : PageKind} (notGraph : kind ≠ .other)
    {pages : List (StorePage R)} (start : Option BlockNumber) {item : StoreItem R}
    {block : BlockNumber} {page : StorePage R} (held : pages[block]? = some page)
    (other : page.kind = some .other) :
    Yields (fun refused : Refused PageKind (StoreItem R) => refused.pages[block]? = some page)
      (fun result => result.pages[block]? = some page)
      (appendTuple fitsPage logged kind pages start item) := by
  unfold appendTuple
  cases start with
  | none =>
    have longer : (pages ++ [emptyPage kind])[block]? = some page :=
      (List.getElem?_append_left (List.getElem?_eq_some_iff.mp held).1).trans held
    exact Yields.bind (appendAt_graph notGraph held longer other) fun result kept => kept
  | some start =>
    dsimp only
    cases chainTail pages pages.length start with
    | none => exact held
    | some tail =>
      exact Yields.bind (appendAt_graph notGraph held held other) fun result kept => kept

structure AppendedOk (pages : List (StorePage R))
    (appended : Appended PageKind (StoreItem R)) : Prop where
  appends : Appends pages appended.pages
  start : appended.start < appended.pages.length
  insertBlock : appended.insertBlock < appended.pages.length

theorem appendItem_appends {logged : Bool} {kind : PageKind} (notGraph : kind ≠ .other)
    {pages : List (StorePage R)} (inside : PointersInside pages) (start : Option BlockNumber)
    {item : StoreItem R} (bounded : item.Bounded pages.length) :
    Yields (fun failure : DeltaFailure R => Appends pages failure.pages) (AppendedOk pages)
      (appendItem logged kind pages start item) := by
  have within := @appendTuple_within _ _ _ _ kind _ _ fitsPage logged
    storeItem_rising inside start bounded
  unfold appendItem
  cases done : appendTuple fitsPage logged kind pages start item with
  | ok appended =>
    rw [done] at within
    refine ⟨⟨within.1, within.2.1, fun block page there other => ?_⟩, within.2.2.1, within.2.2.2⟩
    exact (appendTuple_graph notGraph start there other).of_ok done
  | error refused =>
    rw [done] at within
    refine ⟨within.1, within.2, fun block page there other => ?_⟩
    have kept := @appendTuple_graph _ logged _ notGraph _ start item _ _ there other
    rwa [done] at kept

/-! ### Inserts -/

def DirectoryBounded (limit : Nat) (directory : DeltaDirectory) : Prop :=
  ∀ bucket ∈ directory, StartBelow limit bucket.startBlkno ∧ StartBelow limit bucket.tailBlkno

theorem DirectoryBounded.mono {limit more : Nat} {directory : DeltaDirectory}
    (bounded : DirectoryBounded limit directory) (above : limit ≤ more) :
    DirectoryBounded more directory :=
  fun bucket member => ⟨(bounded bucket member).1.mono above, (bounded bucket member).2.mono above⟩

theorem DirectoryBounded.start {limit : Nat} {directory : DeltaDirectory}
    (bounded : DirectoryBounded limit directory) (bucketNo : Nat) :
    StartBelow limit (directory.getD bucketNo ⟨none, none, 0⟩).startBlkno := by
  rw [List.getD_eq_getElem?_getD]
  cases there : directory[bucketNo]? with
  | none => exact startBelow_none _
  | some bucket => exact (bounded bucket (List.mem_of_getElem? there)).1

theorem readDeltaDirectory_bounded {pages : List (StorePage R)} (inside : PointersInside pages)
    {blkno : Option BlockNumber} {directory : DeltaDirectory}
    (read : readDeltaDirectory pages blkno = .ok (some directory)) :
    DirectoryBounded pages.length directory := by
  unfold readDeltaDirectory at read
  cases blkno with
  | none => cases read
  | some block =>
    dsimp only at read
    cases there : pages[block]? with
    | none =>
      rw [there] at read
      cases read
    | some page =>
      rw [there] at read
      dsimp only at read
      split_ifs at read
      cases found : page.items.findSome? StoreItem.deltaDirectory? with
      | none =>
        rw [found] at read
        cases read
      | some held =>
        rw [found] at read
        dsimp only at read
        split_ifs at read
        obtain rfl := Option.some.inj (Except.ok.inj read)
        obtain ⟨item, member, same⟩ := List.exists_of_findSome?_eq_some found
        have bounded := (inside.at there).items item member
        cases item with
        | deltaDirectory directory =>
          obtain rfl := Option.some.inj same
          exact bounded
        | _ => cases same

theorem initDeltaDirectory_bounded (limit : Nat) : DirectoryBounded limit initDeltaDirectory := by
  intro bucket member
  rw [List.eq_of_mem_replicate member]
  exact ⟨startBelow_none _, startBelow_none _⟩

structure SegmentsOk (pages : List (StorePage R)) (state : SegmentState R) : Prop where
  appends : Appends pages state.pages
  directory : DirectoryBounded state.pages.length state.directory

theorem appendDeltaTermSegment_ok {logged : Bool} {delta : DeltaTuple}
    {pages : List (StorePage R)} {state : SegmentState R} (ok : SegmentsOk pages state)
    (term : DeltaTerm) :
    Yields (fun failure => Appends pages failure.pages) (SegmentsOk pages)
      (appendDeltaTermSegment logged delta state term) := by
  unfold appendDeltaTermSegment
  split_ifs
  · exact ok.appends
  · have appends := @appendItem_appends _ logged .deltaTerm (by decide) _
      ok.appends.inside
      ((state.directory.getD (deltaTermBucketNo term.termHash) ⟨none, none, 0⟩).tailBlkno.or
        (state.directory.getD (deltaTermBucketNo term.termHash) ⟨none, none, 0⟩).startBlkno)
      (.deltaTerm (deltaTermTuple delta term)) trivial
    refine Yields.bind (appends.imp (fun _ failed => ok.appends.trans failed) fun _ done => done)
      fun appended done => ?_
    have later := ok.directory.mono done.appends.length
    refine ⟨ok.appends.trans done.appends, fun bucket member => ?_⟩
    rcases List.mem_or_eq_of_mem_set member with old | rfl
    · exact later bucket old
    · refine ⟨fun block named => ?_, fun block named => Option.some.inj named ▸ done.insertBlock⟩
      rw [← Option.some.inj named]
      have old := later.start (deltaTermBucketNo term.termHash)
      cases started : (state.directory.getD (deltaTermBucketNo term.termHash)
          ⟨none, none, 0⟩).startBlkno with
      | none => exact done.start
      | some start => exact old start started

/-- The pointers of a delta's metadata stay inside. -/
structure DeltaOk (pages : List (StorePage R)) (deltaMeta : DeltaMeta) : Prop where
  start : StartBelow pages.length deltaMeta.deltaStartBlkno
  directory : StartBelow pages.length deltaMeta.deltaTermDirectoryBlkno

structure InsertOk (state next : DeltaState R) : Prop where
  appends : Appends state.pages next.pages
  delta : DeltaOk next.pages next.deltaMeta

theorem storeDelta_ok {state : DeltaState R} (inside : PointersInside state.pages)
    (deltaOk : DeltaOk state.pages state.deltaMeta) (backend : Nat) (delta : DeltaTuple) :
    Yields (fun failure => Appends state.pages failure.pages) (InsertOk state)
      (storeDelta state backend delta) := by
  have directories : Yields (fun failure : DeltaFailure R => Appends state.pages failure.pages)
      (fun directory : Option DeltaDirectory =>
        DirectoryBounded state.pages.length (directory.getD initDeltaDirectory))
      (whileReading state.pages
        (readDeltaDirectory state.pages state.deltaMeta.deltaTermDirectoryBlkno)) := by
    cases read : readDeltaDirectory state.pages state.deltaMeta.deltaTermDirectoryBlkno with
    | error error => exact Appends.refl inside
    | ok directory =>
      cases directory with
      | none => exact initDeltaDirectory_bounded _
      | some directory => exact readDeltaDirectory_bounded inside read
  refine Yields.bind directories fun directory bounded => ?_
  refine Yields.bind (@appendItem_appends _ _ _ (by decide) _ inside _ (.delta delta) trivial)
    fun document done => ?_
  have segments : Yields (fun failure : DeltaFailure R => Appends document.pages failure.pages)
      (SegmentsOk document.pages) (appendDeltaTermSegments state.logged delta
        ⟨document.pages, directory.getD initDeltaDirectory⟩) :=
    Yields.foldlM (SegmentsOk document.pages)
      ⟨Appends.refl done.appends.inside, bounded.mono done.appends.length⟩
      fun _ term _ held => appendDeltaTermSegment_ok held term
  refine Yields.bind (segments.imp (fun _ failed => done.appends.trans failed)
    fun _ appended => appended) fun segments held => ?_
  have directoryItem := @appendItem_appends _ state.logged .deltaTerm (by decide) _
    held.appends.inside none (.deltaDirectory segments.directory) held.directory
  refine Yields.bind (directoryItem.imp
    (fun _ failed => (done.appends.trans held.appends).trans failed)
    fun _ written => written) fun written wrote => ?_
  have later := held.appends.trans wrote.appends
  refine ⟨done.appends.trans later, fun block named => ?_, fun block named => ?_⟩
  · rw [← Option.some.inj named]
    cases started : state.deltaMeta.deltaStartBlkno with
    | none => exact done.start.trans_le later.length
    | some start => exact (deltaOk.start start started).trans_le (done.appends.trans later).length
  · exact Option.some.inj named ▸ wrote.start

theorem appendDelta_ok {state : DeltaState R} (inside : PointersInside state.pages)
    (deltaOk : DeltaOk state.pages state.deltaMeta) (backend : Nat) (insertion : Insertion) :
    InsertOk state (appendDelta state backend insertion).1 := by
  have unchanged : InsertOk state state := ⟨Appends.refl inside, deltaOk⟩
  have stores := storeDelta_ok inside deltaOk backend insertion.delta
  unfold appendDelta
  dsimp only
  split_ifs
  · exact unchanged
  · exact unchanged
  · exact unchanged
  · cases stored : storeDelta state backend insertion.delta with
    | ok next => exact stores.of_ok stored
    | error failure =>
      rw [stored] at stores
      have longer := Appends.length stores
      exact ⟨stores, deltaOk.start.mono longer, deltaOk.directory.mono longer⟩

/-! ### Sound states -/

/-- The pointers of a base's metadata stay inside. -/
structure BaseStartsOk (pages : List (StorePage R)) (baseMeta : BaseMeta R) : Prop where
  docStats : StartBelow pages.length baseMeta.docStatsStartBlkno
  lexicon : StartBelow pages.length baseMeta.lexiconStartBlkno
  postings : StartBelow pages.length baseMeta.postingsStartBlkno
  blockMax : StartBelow pages.length baseMeta.blockMaxStartBlkno

theorem BaseStartsOk.mono {pages changed : List (StorePage R)} {baseMeta : BaseMeta R}
    (ok : BaseStartsOk pages baseMeta) (longer : pages.length ≤ changed.length) :
    BaseStartsOk changed baseMeta :=
  ⟨ok.docStats.mono longer, ok.lexicon.mono longer, ok.postings.mono longer,
    ok.blockMax.mono longer⟩

theorem DeltaOk.mono {pages changed : List (StorePage R)} {deltaMeta : DeltaMeta}
    (ok : DeltaOk pages deltaMeta) (longer : pages.length ≤ changed.length) :
    DeltaOk changed deltaMeta :=
  ⟨ok.start.mono longer, ok.directory.mono longer⟩

/-- **The pointers of an index stay inside**, and its first page is the graph's. -/
structure Sound (state : StoreState R) : Prop where
  inside : PointersInside state.pages
  metapage : ∃ page, state.pages[0]? = some page ∧ page.kind = some .other
  base : BaseStartsOk state.pages state.baseMeta
  delta : DeltaOk state.pages state.deltaMeta

theorem Sound.appended {state : StoreState R} (sound : Sound state) {next : DeltaState R}
    (inserted : InsertOk state.toDeltaState next) : Sound { state with toDeltaState := next } := by
  obtain ⟨page, there, other⟩ := sound.metapage
  exact ⟨inserted.appends.inside, ⟨page, inserted.appends.graph 0 page there other, other⟩,
    sound.base.mono inserted.appends.length, inserted.delta⟩

theorem graph_appends {pages : List (StorePage R)} (inside : PointersInside pages) (count : Nat) :
    Appends pages (pages ++ List.replicate count (emptyPage .other)) := by
  refine ⟨inside.append storeItem_rising fun page member => ?_, ?_, fun block page there _ => ?_⟩
  · rw [List.eq_of_mem_replicate member]
    exact pageWithin_empty _ _
  · rw [List.length_append]
    exact Nat.le_add_right _ _
  · rw [List.getElem?_append_left (List.getElem?_eq_some_iff.mp there).1, there]

/-! ### The writes of a compaction -/

section Compact

variable [Field R] [LinearOrder R]

theorem applyWrites_pages (state : StoreState R) (log : List (PageWrite R)) :
    applyWrites state (log.map .page) = { state with pages := replay state.pages log } := by
  induction log generalizing state with
  | nil => rfl
  | cons write rest ih => exact ih _

/-- What a compaction writes: pages beyond those there were, and in the end the metadata if it
gets there. -/
inductive CompactionWrites (options : WriterOptions R) (state : StoreState R) :
    List (IndexWrite R) × Except CompactError Bool → Prop
  | unpublished {disk : Disk R} {outcome : Except CompactError Bool}
      (grown : Grown state.pages.length ⟨state.pages, []⟩ disk) (failed : outcome ≠ .ok true) :
      CompactionWrites options state (disk.log.map .page, outcome)
  | published {collector : Collector} {written : BasePages R}
      (base : BaseOk state.pages.length ⟨state.pages, []⟩ written) :
      CompactionWrites options state
        (written.sink.disk.log.map .page ++ [updateCompactedMeta options state collector written],
          .ok true)

theorem maybeCompact_writes {state : StoreState R} (sound : Sound state)
    (options : WriterOptions R) (threshold : Nat) (exceeded : Nat → Bool) :
    CompactionWrites options state (maybeCompact options threshold exceeded state) := by
  have nothing (outcome : Except CompactError Bool) (failed : outcome ≠ .ok true) :
      CompactionWrites options state ([], outcome) :=
    @CompactionWrites.unpublished _ _ _ _ ⟨state.pages, []⟩ _ Grown.same failed
  unfold maybeCompact
  split_ifs
  · exact nothing _ (by simp)
  · exact nothing _ (by simp)
  · cases collectCompaction exceeded state with
    | error error => exact nothing _ (by simp)
    | ok collector =>
      obtain ⟨metapage, first, graph⟩ := sound.metapage
      have writes := @writeBasePages_grown _ state.pages.length _ _
        { options with useWal := state.logged } ⟨state.pages, []⟩ (Nat.le_refl _) sound.inside _ first
        (by rw [graph]; decide) (Nat.zero_lt_of_lt (List.getElem?_eq_some_iff.mp first).1)
        collector state.nodes.length
      dsimp only
      unfold writeCompaction
      cases done : writeBasePages { options with useWal := state.logged } ⟨state.pages, []⟩
          collector state.nodes.length with
      | error failure =>
        rw [done] at writes
        exact .unpublished writes (by simp)
      | ok written => exact .published (writes.of_ok done)

/-- The pages after some of the writes of a new base. -/
structure StoppedPages (state : StoreState R) (changed : List (StorePage R)) : Prop where
  kept : KeptOutside [] state.pages changed
  inside : PointersInside changed

theorem Sound.stopped {state : StoreState R} (sound : Sound state) {changed : List (StorePage R)}
    (stopped : StoppedPages state changed) : Sound { state with pages := changed } := by
  obtain ⟨page, there, other⟩ := sound.metapage
  have first := stopped.kept.2 0 (List.getElem?_eq_some_iff.mp there).1 List.not_mem_nil
  exact ⟨stopped.inside, ⟨page, first.trans there, other⟩, sound.base.mono stopped.kept.1,
    sound.delta.mono stopped.kept.1⟩

/-- **A compaction after some of its writes**: more pages, or all of them and the new metadata. -/
theorem compaction_cases {options : WriterOptions R} {state : StoreState R} (sound : Sound state)
    {run : List (IndexWrite R) × Except CompactError Bool}
    (writes : CompactionWrites options state run) (taken : Nat) :
    (∃ changed, StoppedPages state changed ∧
      applyWrites state (run.1.take taken) = { state with pages := changed }) ∨
    ∃ collector written, BaseOk state.pages.length ⟨state.pages, []⟩ written ∧
      applyWrites state (run.1.take taken) =
        (updateCompactedMeta options state collector written).apply
          { state with pages := written.sink.disk.pages } := by
  have pages {disk : Disk R} (grown : Grown state.pages.length ⟨state.pages, []⟩ disk)
      (taken : Nat) : ∃ changed, StoppedPages state changed ∧
      applyWrites state ((disk.log.take taken).map .page) = { state with pages := changed } := by
    obtain ⟨kept, inside⟩ := grown.stopped rfl sound.inside rfl taken
    exact ⟨_, ⟨kept, inside⟩, applyWrites_pages state _⟩
  cases writes with
  | unpublished grown failed =>
    left
    obtain ⟨changed, stopped, same⟩ := pages grown taken
    exact ⟨changed, stopped, by rw [← same, List.map_take]⟩
  | @published collector written base =>
    by_cases before : taken ≤ written.sink.disk.log.length
    · left
      obtain ⟨changed, stopped, same⟩ := pages base.sink.grown taken
      refine ⟨changed, stopped, ?_⟩
      rw [← same, List.map_take, List.take_append_of_le_length (by rwa [List.length_map])]
    · right
      refine ⟨collector, written, base, ?_⟩
      have replayed := base.sink.grown.replayed rfl
      rw [List.take_of_length_le (by simp; omega), applyWrites, List.foldl_append]
      show (updateCompactedMeta options state collector written).apply
        (applyWrites state (written.sink.disk.log.map .page)) = _
      rw [applyWrites_pages, replayed]

theorem Sound.compacted {options : WriterOptions R} {state : StoreState R} (sound : Sound state)
    {collector : Collector} {written : BasePages R}
    (base : BaseOk state.pages.length ⟨state.pages, []⟩ written) :
    Sound ((updateCompactedMeta options state collector written).apply
      { state with pages := written.sink.disk.pages }) := by
  obtain ⟨page, there, other⟩ := sound.metapage
  have first : written.sink.disk.pages[0]? = state.pages[0]? :=
    base.sink.grown.kept (Nat.le_refl _) (List.getElem?_eq_some_iff.mp there).1
  exact ⟨base.sink.ok.inside, ⟨page, first.trans there, other⟩,
    ⟨base.docStats, base.sink.ok.lexicon.start, base.sink.ok.postings.start,
      base.sink.ok.blockMax.start⟩, startBelow_none _, startBelow_none _⟩

/-! ### Every state -/

theorem apply_sound {state : StoreState R} (sound : Sound state) (options : WriterOptions R)
    (threshold : Nat) (action : StoreAction) : Sound (action.apply options threshold state) := by
  cases action with
  | insert backend insertion =>
    exact sound.appended (appendDelta_ok sound.inside sound.delta backend insertion)
  | elsewhere backend => exact ⟨sound.inside, sound.metapage, sound.base, sound.delta⟩
  | graph pages nodes =>
    have added := graph_appends sound.inside pages
    obtain ⟨page, there, other⟩ := sound.metapage
    exact ⟨added.inside, ⟨page, added.graph 0 page there other, other⟩,
      sound.base.mono added.length, sound.delta.mono added.length⟩
  | compact exceeded writes =>
    show Sound (applyWrites state _)
    rcases compaction_cases sound (maybeCompact_writes sound options threshold exceeded) writes with
      ⟨changed, stopped, same⟩ | ⟨collector, written, base, same⟩
    · rw [same]
      exact sound.stopped stopped
    · rw [same]
      exact sound.compacted base

/-- **Every state of an index is sound** that a sound one gets to. -/
theorem runStore_sound {start : StoreState R} (sound : Sound start) (options : WriterOptions R)
    (threshold : Nat) (history : List StoreAction) :
    Sound (runStore options threshold start history) := by
  induction history generalizing start with
  | nil => exact sound
  | cons action rest ih => exact ih (apply_sound sound options threshold action)

theorem build_sound {options : WriterOptions R} {build : IndexBuild} {start : StoreState R}
    (built : build.run options = some start) : Sound start := by
  have pages : PointersInside (build.pages : List (StorePage R)) := by
    intro page member
    rw [List.eq_of_mem_replicate member]
    exact pageWithin_empty _ _
  have first : (build.pages : List (StorePage R))[0]? = some (emptyPage .other) := rfl
  unfold IndexBuild.run at built
  cases collected : buildCollect build.exceeded build.rows with
  | error error =>
    rw [collected] at built
    cases built
  | ok collector =>
    rw [collected] at built
    dsimp only at built
    have writes := @writeBasePages_grown _ (build.pages : List (StorePage R)).length _ _
      { options with useWal := false } ⟨build.pages, []⟩ (Nat.le_refl _) pages _ first (by simp [emptyPage])
      (Nat.zero_lt_of_lt (List.getElem?_eq_some_iff.mp first).1) collector build.nodes.length
    cases done : writeBasePages { options with useWal := false } ⟨build.pages, []⟩ collector
        build.nodes.length with
    | error failure =>
      rw [done] at built
      cases built
    | ok written =>
      rw [done] at built
      have base := writes.of_ok done
      obtain rfl := Option.some.inj built
      have kept : written.sink.disk.pages[0]? = some (emptyPage .other) :=
        (base.sink.grown.kept (Nat.le_refl _) (List.getElem?_eq_some_iff.mp first).1).trans first
      have added := graph_appends base.sink.ok.inside 1
      exact ⟨added.inside, ⟨_, added.graph 0 _ kept rfl, rfl⟩,
        BaseStartsOk.mono ⟨base.docStats, base.sink.ok.lexicon.start, base.sink.ok.postings.start,
          base.sink.ok.blockMax.start⟩ added.length, startBelow_none _, startBelow_none _⟩

/-! ### Lookups -/

/-- **What a reader can tell of two states**: the counters and the nodes, the document lengths, the
lookup of any term in the base, and the documents and the postings of the delta. -/
structure SameLookups (state other : StoreState R) : Prop where
  baseMeta : other.baseMeta = state.baseMeta
  deltaMeta : other.deltaMeta = state.deltaMeta
  nodes : other.nodes = state.nodes
  docLens : ∀ nodeCount, loadDocLens other.pages other.baseMeta.docStatsStartBlkno nodeCount =
    loadDocLens state.pages state.baseMeta.docStatsStartBlkno nodeCount
  readDocLens : ∀ nodeCount, readDocLens other.pages other.baseMeta.docStatsStartBlkno nodeCount =
    readDocLens state.pages state.baseMeta.docStatsStartBlkno nodeCount
  term : ∀ headK termHash term,
    lookupTerm other.pages other.baseMeta.lexiconStartBlkno other.baseMeta.termCount headK termHash
        term =
      lookupTerm state.pages state.baseMeta.lexiconStartBlkno state.baseMeta.termCount headK
        termHash term
  documents : readDeltaDocuments other.pages other.deltaMeta.deltaStartBlkno =
    readDeltaDocuments state.pages state.deltaMeta.deltaStartBlkno
  delta : ∀ cache filterTerms, lookupDelta other.toDeltaState cache filterTerms =
    lookupDelta state.toDeltaState cache filterTerms

theorem readDeltaDocuments_extended {pages changed : List (StorePage R)}
    (inside : PointersInside pages) (kept : KeptOutside [] pages changed)
    {start : Option BlockNumber} (below : StartBelow pages.length start) :
    readDeltaDocuments changed start = readDeltaDocuments pages start := by
  rw [readDeltaDocuments, readDeltaDocuments, readChain_extended inside kept below]

theorem readDeltaDirectory_extended {pages changed : List (StorePage R)}
    (inside : PointersInside pages) (kept : KeptOutside [] pages changed)
    {blkno : Option BlockNumber} (below : StartBelow pages.length blkno) :
    readDeltaDirectory changed blkno = readDeltaDirectory pages blkno := by
  cases blkno with
  | none => rfl
  | some block =>
    rw [readDeltaDirectory, readDeltaDirectory, block_kept inside kept (below block rfl)]

theorem readBuckets_extended {pages changed : List (StorePage R)} (inside : PointersInside pages)
    (kept : KeptOutside [] pages changed) (filterTerms : List QueryTerm)
    {directory : DeltaDirectory} (bounded : DirectoryBounded pages.length directory) :
    readBuckets changed filterTerms directory = readBuckets pages filterTerms directory := by
  unfold readBuckets
  refine mapM_congr fun numbered member => ?_
  have held := (bounded numbered.1 (List.fst_mem_of_mem_zipIdx member)).1
  rw [readBucket, readBucket, readChain_extended inside kept held]

theorem lookupDelta_extended {state : StoreState R} (sound : Sound state)
    {changed : List (StorePage R)} (kept : KeptOutside [] state.pages changed) (cache : Cache)
    (filterTerms : List QueryTerm) :
    lookupDelta { state.toDeltaState with pages := changed } cache filterTerms =
      lookupDelta state.toDeltaState cache filterTerms := by
  have documents : scanDocuments { state.toDeltaState with pages := changed } cache filterTerms =
      scanDocuments state.toDeltaState cache filterTerms := by
    rw [scanDocuments, scanDocuments,
      readDeltaDocuments_extended sound.inside kept sound.delta.start]
  unfold lookupDelta
  rw [documents]
  cases named : state.deltaMeta.deltaTermDirectoryBlkno with
  | none => rfl
  | some block =>
    have below : StartBelow state.pages.length (some block) := named ▸ sound.delta.directory
    dsimp only
    rw [readDeltaDirectory_extended sound.inside kept below]
    cases read : readDeltaDirectory state.pages (some block) with
    | error error => rfl
    | ok directory =>
      cases directory with
      | none => rfl
      | some directory =>
        have buckets := readBuckets_extended sound.inside kept filterTerms
          (readDeltaDirectory_bounded sound.inside read)
        split_ifs
        · rfl
        · show (duringWalk (readBuckets changed filterTerms directory) >>= _) =
            (duringWalk (readBuckets state.pages filterTerms directory) >>= _)
          rw [buckets]

/-- **More pages are not seen** from the metadata. -/
theorem Sound.sameLookups {state : StoreState R} (sound : Sound state)
    {changed : List (StorePage R)} (stopped : StoppedPages state changed) :
    SameLookups state { state with pages := changed } where
  baseMeta := rfl
  deltaMeta := rfl
  nodes := rfl
  docLens := loadDocLens_extended sound.inside stopped.kept sound.base.docStats
  readDocLens := readDocLens_extended sound.inside stopped.kept sound.base.docStats
  term := lookupTerm_extended sound.inside stopped.kept sound.base.lexicon _
  documents := readDeltaDocuments_extended sound.inside stopped.kept sound.delta.start
  delta := lookupDelta_extended sound stopped.kept

/-! ### Atomicity -/

/-- **A compaction is atomic.** In every state an index gets to, a compaction writes pages and then,
if it compacts, the new metadata with its last write. Stopped after any number of the writes before
that one it leaves every lookup as it was. -/
theorem compaction_atomic {options : WriterOptions R} {build : IndexBuild} {start : StoreState R}
    (built : build.run options = some start) (threshold : Nat) (history : List StoreAction)
    (exceeded : Nat → Bool) :
    ∃ pageWrites : List (PageWrite R),
      ((maybeCompact options threshold exceeded (runStore options threshold start history) =
            (pageWrites.map .page, (maybeCompact options threshold exceeded
              (runStore options threshold start history)).2) ∧
          (maybeCompact options threshold exceeded
            (runStore options threshold start history)).2 ≠ .ok true) ∨
        ∃ baseMeta deltaMeta,
          maybeCompact options threshold exceeded (runStore options threshold start history) =
            (pageWrites.map .page ++ [.publish baseMeta deltaMeta], .ok true)) ∧
      ∀ taken, SameLookups (runStore options threshold start history)
        (applyWrites (runStore options threshold start history)
          ((pageWrites.map .page).take taken)) := by
  have sound := runStore_sound (build_sound built) options threshold history
  generalize runStore options threshold start history = state at sound
  have stops {disk : Disk R} (grown : Grown state.pages.length ⟨state.pages, []⟩ disk)
      (taken : Nat) : SameLookups state (applyWrites state ((disk.log.map .page).take taken)) := by
    obtain ⟨kept, inside⟩ := grown.stopped rfl sound.inside rfl taken
    rw [← List.map_take, applyWrites_pages]
    exact sound.sameLookups ⟨kept, inside⟩
  have writes := maybeCompact_writes sound options threshold exceeded
  generalize maybeCompact options threshold exceeded state = run at writes
  cases writes with
  | unpublished grown failed => exact ⟨_, Or.inl ⟨rfl, failed⟩, stops grown⟩
  | published base => exact ⟨_, Or.inr ⟨_, _, rfl⟩, stops base.sink.grown⟩

def oneRow : IndexBuild where
  relid := 1
  relfilenumber := 1
  logged := true
  graphPages := 1
  nodes := [⟨true, ⟨0, 1⟩⟩]
  rows := [⟨0, ⟨0, 1⟩, [.single 97 1]⟩]
  exceeded := fun _ => false

def oneInsert : List StoreAction :=
  [.graph 1 [⟨true, ⟨0, 1⟩⟩, ⟨true, ⟨0, 2⟩⟩],
    .insert 0 ⟨1, ⟨0, 2⟩, [.single 98 1], 1000⟩]

/-- The compaction of two documents makes fifteen writes before it publishes. -/
theorem compaction_atomic_oneInsert : ∃ start, oneRow.run rationalOptions = some start ∧
    (maybeCompact rationalOptions 25 (fun _ => false)
      (runStore rationalOptions 25 start oneInsert)).1.length = 16 ∧
    ∃ pageWrites : List (PageWrite ℚ),
      ((maybeCompact rationalOptions 25 (fun _ => false)
            (runStore rationalOptions 25 start oneInsert) =
            (pageWrites.map .page, (maybeCompact rationalOptions 25 (fun _ => false)
              (runStore rationalOptions 25 start oneInsert)).2) ∧
          (maybeCompact rationalOptions 25 (fun _ => false)
            (runStore rationalOptions 25 start oneInsert)).2 ≠ .ok true) ∨
        ∃ baseMeta deltaMeta,
          maybeCompact rationalOptions 25 (fun _ => false)
              (runStore rationalOptions 25 start oneInsert) =
            (pageWrites.map .page ++ [.publish baseMeta deltaMeta], .ok true)) ∧
      ∀ taken, SameLookups (runStore rationalOptions 25 start oneInsert)
        (applyWrites (runStore rationalOptions 25 start oneInsert)
          ((pageWrites.map .page).take taken)) := by
  have writes : (oneRow.run rationalOptions).map (fun start => (maybeCompact rationalOptions 25
      (fun _ => false) (runStore rationalOptions 25 start oneInsert)).1.length) = some 16 := by
    decide +kernel
  obtain ⟨start, built, count⟩ := Option.map_eq_some_iff.mp writes
  exact ⟨start, built, count, compaction_atomic built 25 oneInsert fun _ => false⟩

end Compact

end TurboHybrid.Store
