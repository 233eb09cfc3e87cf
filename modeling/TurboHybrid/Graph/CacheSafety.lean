/-
**What an accepted native cache shows.**

* `sound_step`: what each step keeps of every cache, build and pass;
* `cacheSafe_reached`: where no vacuum leaves marks without a new generation behind, an accepted
  cache shows every dead mark and every insert that was complete when the metapage was read;
* `failedVacuum_accepted`: after a vacuum that fails the old cache is accepted.
-/
import TurboHybrid.Graph.NativeCache

namespace TurboHybrid.NativeCache

open TurboHybrid.Library

/-! ### The invariant -/

section Invariant

variable {codeTuplesPerPage : Nat} {state next : IndexState}

/-- What is loaded under a copy of the metapage, up to a node id. -/
structure Loaded (state : IndexState) (stamp : GraphMeta) (upTo : Nat) (nodes : List CodeTuple) :
    Prop where
  old : stamp.generation ≤ state.metapage.generation
  counted : stamp.nodeCount ≤ state.tuples.length
  known : ∀ node ∈ nodes, ∃ tuple, state.tuples[node.nodeId]? = some tuple ∧
    tuple.heaptid = node.heaptid
  full : ∀ nodeId < stamp.nodeCount, nodeId < upTo → ∃ node ∈ nodes, node.nodeId = nodeId
  fresh : ¬MarksPending state → stamp.generation = state.metapage.generation →
    ∀ node ∈ nodes, ∀ tuple, state.tuples[node.nodeId]? = some tuple → tuple.dead = true →
      node.dead = true
  crossed : ∀ backend pass, (state.backends backend).pass = some pass →
    pass.copy.generation = stamp.generation →
      ∀ node ∈ nodes, node.nodeId ∈ pass.deadBefore → node.dead = true

def LoadedCache (state : IndexState) (cache : Cache) : Prop :=
  Loaded state cache.stamp cache.stamp.nodeCount cache.nodes

structure PassSound (state : IndexState) (pass : Pass) : Prop where
  old : pass.copy.generation ≤ state.metapage.generation
  counted : pass.copy.nodeCount ≤ state.metapage.nodeCount
  marked : ∀ nodeId ∈ pass.deadBefore, ∃ tuple, state.tuples[nodeId]? = some tuple ∧
    tuple.dead = true
  before : ∀ insert ∈ state.inserting, pass.copy.generation ≤ insert.copy.generation →
    ∀ nodeId ∈ pass.deadBefore, nodeId < insert.copy.nodeCount
  accepted : ∀ cache ∈ pass.cache, LoadedCache state cache ∧
    cache.stamp.generation = pass.copy.generation ∧ cache.stamp.nodeCount = pass.copy.nodeCount

structure BackendSound (codeTuplesPerPage : Nat) (state : IndexState) (owner : Backend) :
    Prop where
  caches : ∀ cache ∈ owner.caches, LoadedCache state cache
  maps : ∀ cache ∈ owner.maps, LoadedCache state cache
  build : ∀ build ∈ owner.build,
    Loaded state build.stamp (build.pageNo * codeTuplesPerPage) build.nodes
  pass : ∀ pass ∈ owner.pass, PassSound state pass

structure InsertSound (state : IndexState) (insert : Insert) : Prop where
  old : insert.copy.generation ≤ state.metapage.generation
  unpublished : insert.published = false → insert.copy.nodeCount = state.metapage.nodeCount
  published : insert.published = true →
    insert.copy.generation < state.metapage.generation ∧
      insert.copy.nodeCount < state.metapage.nodeCount
  ordered : insert.published = true → insert.appended = true
  tuple : insert.appended = true → ∃ tuple,
    state.tuples[insert.copy.nodeCount]? = some tuple ∧ tuple.heaptid = insert.heaptid

structure VacuumSound (state : IndexState) (vacuum : Vacuum) : Prop where
  old : vacuum.copy.generation ≤ state.metapage.generation
  counted : vacuum.copy.nodeCount ≤ state.metapage.nodeCount
  locked : vacuum.changedAny = true → vacuum.scanLock = true
  exclusive : vacuum.scanLock = true → state.scanLockHolders = []

def uncounted (state : IndexState) : Nat :=
  if state.inserting.any fun insert => insert.appended && !insert.published then 1 else 0

structure DiskSound (state : IndexState) : Prop where
  ids : ∀ (position : Nat) tuple, state.tuples[position]? = some tuple → tuple.nodeId = position
  length : state.tuples.length = state.metapage.nodeCount + uncounted state
  deadCounted : ∀ tuple ∈ state.tuples, tuple.dead = true →
    tuple.nodeId < state.metapage.nodeCount
  insert : ∀ insert ∈ state.inserting, InsertSound state insert
  vacuum : ∀ vacuum ∈ state.vacuuming, VacuumSound state vacuum

structure Sound (codeTuplesPerPage : Nat) (state : IndexState) : Prop where
  disk : DiskSound state
  files : ∀ cache ∈ state.files, LoadedCache state cache
  backends : ∀ backend, BackendSound codeTuplesPerPage state (state.backends backend)

/-! ### What a step leaves -/

/-- Tuples stay with their marks, a change of marks is pending or has a new generation, and passes
and inserts keep their copies. -/
structure Frame (before after : IndexState) : Prop where
  generation : before.metapage.generation ≤ after.metapage.generation
  nodeCount : before.metapage.nodeCount ≤ after.metapage.nodeCount
  kept : ∀ (position : Nat) tuple, before.tuples[position]? = some tuple →
    ∃ tuple', after.tuples[position]? = some tuple' ∧ tuple'.heaptid = tuple.heaptid ∧
      (tuple.dead = true → tuple'.dead = true)
  marks : ¬MarksPending after → after.metapage.generation = before.metapage.generation →
    ¬MarksPending before ∧ ∀ (position : Nat) tuple tuple',
      before.tuples[position]? = some tuple → after.tuples[position]? = some tuple' →
        tuple'.dead = true → tuple.dead = true
  passes : ∀ backend pass, (after.backends backend).pass = some pass →
    ∃ pass', (before.backends backend).pass = some pass' ∧ pass'.copy = pass.copy ∧
      pass'.deadBefore = pass.deadBefore
  inserts : ∀ insert ∈ after.inserting,
    (∃ insert' ∈ before.inserting, insert'.copy = insert.copy) ∨ insert.copy = before.metapage

theorem Frame.length {before after : IndexState} (frame : Frame before after) :
    before.tuples.length ≤ after.tuples.length := by
  by_contra shorter
  obtain ⟨tuple', found, -⟩ := frame.kept _ _
    (List.getElem?_eq_getElem (l := before.tuples) (i := after.tuples.length) (by omega))
  rw [List.getElem?_eq_none (le_refl _)] at found
  cases found

theorem Loaded.frame {stamp : GraphMeta} {upTo : Nat} {nodes : List CodeTuple}
    (loaded : Loaded state stamp upTo nodes) (frame : Frame state next) :
    Loaded next stamp upTo nodes := by
  refine ⟨loaded.old.trans frame.generation, loaded.counted.trans frame.length, ?_, loaded.full,
    ?_, ?_⟩
  · intro node member
    obtain ⟨tuple, found, heaptid⟩ := loaded.known node member
    obtain ⟨tuple', found', same, -⟩ := frame.kept _ _ found
    exact ⟨tuple', found', same.trans heaptid⟩
  · intro settled current node member tuple' found' dead'
    obtain ⟨tuple, found, -⟩ := loaded.known node member
    have generation : next.metapage.generation = state.metapage.generation :=
      le_antisymm (current ▸ loaded.old) frame.generation
    obtain ⟨settled', same⟩ := frame.marks settled generation
    exact loaded.fresh settled' (current.trans generation) node member tuple found
      (same _ _ _ found found' dead')
  · intro backend pass holds same node member inside
    obtain ⟨pass', holds', copy, deadBefore⟩ := frame.passes backend pass holds
    exact loaded.crossed backend pass' holds' (copy ▸ same) node member (deadBefore ▸ inside)

theorem PassSound.frame {pass : Pass} (sound : PassSound state pass) (disk : DiskSound state)
    (frame : Frame state next) : PassSound next pass := by
  refine ⟨sound.old.trans frame.generation, sound.counted.trans frame.nodeCount, ?_, ?_, ?_⟩
  · intro nodeId inside
    obtain ⟨tuple, found, dead⟩ := sound.marked nodeId inside
    obtain ⟨tuple', found', -, kept⟩ := frame.kept _ _ found
    exact ⟨tuple', found', kept dead⟩
  · intro insert holds older nodeId inside
    rcases frame.inserts insert holds with ⟨insert', holds', copy⟩ | copy
    · rw [← copy] at older ⊢
      exact sound.before insert' holds' older nodeId inside
    · obtain ⟨tuple, found, dead⟩ := sound.marked nodeId inside
      have counted := disk.deadCounted tuple (List.mem_of_getElem? found) dead
      rw [disk.ids _ _ found] at counted
      rwa [copy]
  · intro cache accepted
    obtain ⟨loaded, same⟩ := sound.accepted cache accepted
    exact ⟨loaded.frame frame, same⟩

theorem BackendSound.frame {self : Backend} (sound : BackendSound codeTuplesPerPage state self)
    (disk : DiskSound state) (frame : Frame state next) :
    BackendSound codeTuplesPerPage next self where
  caches cache member := (sound.caches cache member).frame frame
  maps cache member := (sound.maps cache member).frame frame
  build build member := (sound.build build member).frame frame
  pass pass member := (sound.pass pass member).frame disk frame

theorem Sound.frame (sound : Sound codeTuplesPerPage state) (frame : Frame state next)
    (disk : DiskSound next) (files : ∀ cache ∈ next.files, LoadedCache state cache)
    (backends : next.backends = state.backends) : Sound codeTuplesPerPage next where
  disk := disk
  files cache member := (files cache member).frame frame
  backends backend := by
    rw [backends]
    exact (sound.backends backend).frame sound.disk frame

theorem DiskSound.congr (disk : DiskSound state) (metapage : next.metapage = state.metapage)
    (tuples : next.tuples = state.tuples) (inserting : next.inserting = state.inserting)
    (vacuuming : next.vacuuming = state.vacuuming)
    (holders : next.scanLockHolders = state.scanLockHolders) : DiskSound next := by
  refine ⟨?_, ?_, ?_, ?_, ?_⟩
  · rw [tuples]
    exact disk.ids
  · rw [tuples, metapage, uncounted, inserting]
    exact disk.length
  · rw [tuples, metapage]
    exact disk.deadCounted
  · intro insert holds
    rw [inserting] at holds
    have own := disk.insert insert holds
    refine ⟨?_, ?_, ?_, own.ordered, ?_⟩
    · exact metapage ▸ own.old
    · exact metapage ▸ own.unpublished
    · exact metapage ▸ own.published
    · exact tuples ▸ own.tuple
  · intro vacuum runs
    rw [vacuuming] at runs
    have own := disk.vacuum vacuum runs
    refine ⟨?_, ?_, own.locked, fun locked => holders.trans (own.exclusive locked)⟩
    · exact metapage ▸ own.old
    · exact metapage ▸ own.counted

/-! ### One backend changes -/

theorem setBackend_self (state : IndexState) (backend : Nat) (self : Backend) :
    (setBackend state backend self).backends backend = self := if_pos rfl

theorem setBackend_other (state : IndexState) {backend other : Nat} (self : Backend)
    (apart : other ≠ backend) : (setBackend state backend self).backends other =
      state.backends other := if_neg apart

def PassKept (before after : Backend) : Prop :=
  ∀ pass, after.pass = some pass → ∃ pass', before.pass = some pass' ∧ pass'.copy = pass.copy ∧
    pass'.deadBefore = pass.deadBefore

theorem passKept_of_eq {before after : Backend} (same : after.pass = before.pass) :
    PassKept before after := fun pass holds => ⟨pass, same ▸ holds, rfl, rfl⟩

theorem frame_setBackend {backend : Nat} {self : Backend}
    (kept : PassKept (state.backends backend) self) :
    Frame state (setBackend state backend self) where
  generation := le_refl _
  nodeCount := le_refl _
  kept _ tuple found := ⟨tuple, found, rfl, id⟩
  marks settled _ := ⟨settled, fun position tuple tuple' found found' dead => by
    rw [show state.tuples[position]? = some tuple' from found'] at found
    rwa [← Option.some.inj found]⟩
  passes other pass holds := by
    by_cases same : other = backend
    · subst same
      rw [setBackend_self] at holds
      exact kept pass holds
    · rw [setBackend_other state self same] at holds
      exact ⟨pass, holds, rfl, rfl⟩
  inserts insert holds := Or.inl ⟨insert, holds, rfl⟩

theorem Sound.setBackend (sound : Sound codeTuplesPerPage state) {backend : Nat} {self : Backend}
    (kept : PassKept (state.backends backend) self)
    (own : BackendSound codeTuplesPerPage state self) :
    Sound codeTuplesPerPage (setBackend state backend self) := by
  have frame := frame_setBackend kept
  refine ⟨sound.disk.congr rfl rfl rfl rfl rfl, ?_, ?_⟩
  · intro cache member
    exact Loaded.frame (sound.files cache member) frame
  · intro other
    by_cases same : other = backend
    · subst same
      rw [setBackend_self]
      exact own.frame sound.disk frame
    · rw [setBackend_other state self same]
      exact (sound.backends other).frame sound.disk frame

/-! ### Loading pages -/

theorem mem_loadCodePage {tuples : List CodeTuple} {build : Build} {node : CodeTuple} :
    node ∈ (loadCodePage codeTuplesPerPage tuples build).nodes ↔ node ∈ build.nodes ∨
      node ∈ pageTuples codeTuplesPerPage tuples build.pageNo ∧
        node.nodeId < build.stamp.nodeCount := by
  show node ∈ List.foldl _ _ _ ↔ _
  generalize pageTuples codeTuplesPerPage tuples build.pageNo = page
  generalize build.nodes = nodes
  induction page generalizing nodes with
  | nil => simp
  | cons tuple rest ih =>
    rw [List.foldl_cons, ih, List.mem_cons]
    split_ifs with counted
    · rw [List.mem_cons]
      constructor
      · rintro ((rfl | old) | ⟨later, small⟩)
        · exact Or.inr ⟨Or.inl rfl, counted⟩
        · exact Or.inl old
        · exact Or.inr ⟨Or.inr later, small⟩
      · rintro (old | ⟨rfl | later, small⟩)
        · exact Or.inl (Or.inr old)
        · exact Or.inl (Or.inl rfl)
        · exact Or.inr ⟨later, small⟩
    · constructor
      · rintro (old | ⟨later, small⟩)
        · exact Or.inl old
        · exact Or.inr ⟨Or.inr later, small⟩
      · rintro (old | ⟨rfl | later, small⟩)
        · exact Or.inl old
        · exact absurd small counted
        · exact Or.inr ⟨later, small⟩

theorem getElem?_of_mem_page {tuples : List CodeTuple} {pageNo : Nat} {tuple : CodeTuple}
    (member : tuple ∈ pageTuples codeTuplesPerPage tuples pageNo) :
    ∃ position : Nat, tuples[position]? = some tuple := by
  have inside := List.mem_of_mem_drop (List.mem_of_mem_take member)
  exact List.getElem?_of_mem inside

theorem mem_pageTuples {tuples : List CodeTuple} {pageNo position : Nat} {tuple : CodeTuple}
    (found : tuples[position]? = some tuple) (first : pageNo * codeTuplesPerPage ≤ position)
    (last : position < pageNo * codeTuplesPerPage + codeTuplesPerPage) :
    tuple ∈ pageTuples codeTuplesPerPage tuples pageNo := by
  refine List.mem_of_getElem? (i := position - pageNo * codeTuplesPerPage) ?_
  rw [pageTuples, List.getElem?_take_of_lt (by omega), List.getElem?_drop]
  rwa [Nat.add_sub_cancel' first]

/-- **One page more** is loaded as the pages are. -/
theorem Loaded.loadPage (disk : DiskSound state)
    (passes : ∀ backend pass, (state.backends backend).pass = some pass → PassSound state pass)
    {build : Build}
    (loaded : Loaded state build.stamp (build.pageNo * codeTuplesPerPage) build.nodes) :
    Loaded state build.stamp ((build.pageNo + 1) * codeTuplesPerPage)
      (loadCodePage codeTuplesPerPage state.tuples build).nodes := by
  have paged {node : CodeTuple}
      (member : node ∈ pageTuples codeTuplesPerPage state.tuples build.pageNo) :
      state.tuples[node.nodeId]? = some node := by
    obtain ⟨position, found⟩ := getElem?_of_mem_page member
    rwa [disk.ids _ _ found]
  refine ⟨loaded.old, loaded.counted, ?_, ?_, ?_, ?_⟩
  · intro node member
    rcases mem_loadCodePage.mp member with old | ⟨page, -⟩
    · exact loaded.known node old
    · exact ⟨node, paged page, rfl⟩
  · intro nodeId small below
    by_cases old : nodeId < build.pageNo * codeTuplesPerPage
    · obtain ⟨node, member, same⟩ := loaded.full nodeId small old
      exact ⟨node, mem_loadCodePage.mpr (Or.inl member), same⟩
    · have counted := loaded.counted
      have found := List.getElem?_eq_getElem (l := state.tuples) (i := nodeId) (by omega)
      have same := disk.ids _ _ found
      rw [Nat.add_mul, Nat.one_mul] at below
      refine ⟨_, mem_loadCodePage.mpr (Or.inr ⟨mem_pageTuples found (by omega) below, ?_⟩), same⟩
      rwa [same]
  · intro settled current node member tuple found dead
    rcases mem_loadCodePage.mp member with old | ⟨page, -⟩
    · exact loaded.fresh settled current node old tuple found dead
    · rw [paged page] at found
      rwa [Option.some.inj found]
  · intro backend pass holds same node member inside
    rcases mem_loadCodePage.mp member with old | ⟨page, -⟩
    · exact loaded.crossed backend pass holds same node old inside
    · obtain ⟨tuple, found, dead⟩ := (passes backend pass holds).marked _ inside
      rw [paged page] at found
      rwa [Option.some.inj found]

theorem Loaded.cache {build : Build}
    (loaded : Loaded state build.stamp (build.pageNo * codeTuplesPerPage) build.nodes)
    (complete : build.complete codeTuplesPerPage = true) :
    LoadedCache state ⟨build.stamp, build.nodes⟩ := by
  have all : build.stamp.nodeCount ≤ build.pageNo * codeTuplesPerPage := of_decide_eq_true complete
  exact ⟨loaded.old, loaded.counted, loaded.known,
    fun nodeId small _ => loaded.full nodeId small (small.trans_le all), loaded.fresh,
    loaded.crossed⟩

theorem DiskSound.counted_le (disk : DiskSound state) :
    state.metapage.nodeCount ≤ state.tuples.length := by
  rw [disk.length]
  exact Nat.le_add_right _ _

theorem Sound.readerCopy (sound : Sound codeTuplesPerPage state) {backend : Nat} {reader : Reader}
    {copy : GraphMeta} (holds : readerCopy state backend reader = some copy) :
    copy.generation ≤ state.metapage.generation ∧ copy.nodeCount ≤ state.metapage.nodeCount := by
  cases reader with
  | scan =>
    obtain ⟨pass, found, rfl⟩ := Option.map_eq_some_iff.mp holds
    have own := (sound.backends backend).pass pass found
    exact ⟨own.old, own.counted⟩
  | insert =>
    obtain ⟨insert, found, rfl⟩ := Option.map_eq_some_iff.mp holds
    have own := sound.disk.insert insert (Option.filter_eq_some_iff.mp found).1
    refine ⟨own.old, ?_⟩
    rcases published : insert.published with _ | _
    · exact (own.unpublished published).le
    · exact (own.published published).2.le
  | vacuum =>
    obtain ⟨vacuum, found, rfl⟩ := Option.map_eq_some_iff.mp holds
    have own := sound.disk.vacuum vacuum (Option.filter_eq_some_iff.mp found).1
    exact ⟨own.old, own.counted⟩

/-- **A pass reads the metapage** while no mark is pending: what is loaded under this generation
shows the marks on the pages. -/
theorem Loaded.read (backend : Nat) (self : Backend) (disk : DiskSound state)
    (settled : ¬MarksPending state)
    (reads : self.pass = some ⟨state.metapage, deadIds state.tuples, none⟩)
    {stamp : GraphMeta} {upTo : Nat} {nodes : List CodeTuple}
    (loaded : Loaded state stamp upTo nodes) :
    Loaded (setBackend state backend self) stamp upTo nodes := by
  refine ⟨loaded.old, loaded.counted, loaded.known, loaded.full, loaded.fresh, ?_⟩
  intro other pass holds same node member inside
  by_cases own : other = backend
  · subst own
    rw [setBackend_self, reads] at holds
    obtain rfl := Option.some.inj holds
    obtain ⟨tuple, marked, here⟩ := List.mem_map.mp inside
    rw [List.mem_filter] at marked
    obtain ⟨position, found⟩ := List.getElem?_of_mem marked.1
    have place := disk.ids _ _ found
    rw [here] at place
    rw [← place] at found
    exact loaded.fresh settled same.symm node member tuple found marked.2
  · rw [setBackend_other state self own] at holds
    exact loaded.crossed other pass holds same node member inside

theorem PassSound.read {backend : Nat} {self : Backend} (disk : DiskSound state)
    (settled : ¬MarksPending state)
    (reads : self.pass = some ⟨state.metapage, deadIds state.tuples, none⟩) {pass : Pass}
    (sound : PassSound state pass) : PassSound (NativeCache.setBackend state backend self) pass :=
  ⟨sound.old, sound.counted, sound.marked, sound.before, fun cache accepted =>
    ⟨Loaded.read _ _ disk settled reads (sound.accepted cache accepted).1,
      (sound.accepted cache accepted).2⟩⟩

theorem passSound_new (disk : DiskSound state) :
    PassSound state ⟨state.metapage, deadIds state.tuples, none⟩ := by
  have marked (nodeId : Nat) (inside : nodeId ∈ deadIds state.tuples) :
      ∃ tuple, state.tuples[nodeId]? = some tuple ∧ tuple.dead = true := by
    obtain ⟨tuple, member, rfl⟩ := List.mem_map.mp inside
    rw [List.mem_filter] at member
    obtain ⟨position, found⟩ := List.getElem?_of_mem member.1
    have place := disk.ids _ _ found
    rw [← place] at found
    exact ⟨tuple, found, member.2⟩
  refine ⟨le_refl _, le_refl _, marked, ?_, ?_⟩
  · intro insert holds older nodeId inside
    have own := disk.insert insert holds
    obtain ⟨tuple, found, dead⟩ := marked nodeId inside
    have counted := disk.deadCounted tuple (List.mem_of_getElem? found) dead
    rw [disk.ids _ _ found] at counted
    rcases published : insert.published with _ | _
    · rwa [own.unpublished published]
    · exact absurd older (not_le.mpr (own.published published).1)
  · intro cache accepted
    cases accepted

/-! ### Backend steps -/

theorem acceptIn_cases {accepted : Cache → GraphMeta → Bool} {before after : Backend}
    {cache : Cache} (stepped : acceptIn accepted before cache = some after) :
    ∃ pass, before.pass = some pass ∧ accepted cache pass.copy = true ∧
      after = { before with pass := some { pass with cache := some cache } } := by
  obtain ⟨pass, holds, rest⟩ := Option.bind_eq_some_iff.mp stepped
  split_ifs at rest with accepts
  exact ⟨pass, holds, accepts, (Option.some.inj rest).symm⟩

theorem Sound.accept (sound : Sound codeTuplesPerPage state) {backend : Nat} {pass : Pass}
    (holds : (state.backends backend).pass = some pass) {cache : Cache}
    (loaded : LoadedCache state cache) (generation : cache.stamp.generation = pass.copy.generation)
    (nodeCount : cache.stamp.nodeCount = pass.copy.nodeCount) :
    Sound codeTuplesPerPage (NativeCache.setBackend state backend
      { state.backends backend with pass := some { pass with cache := some cache } }) := by
  have own := sound.backends backend
  have old := own.pass pass holds
  refine sound.setBackend ?_ ⟨own.caches, own.maps, own.build, ?_⟩
  · intro pass' holds'
    obtain rfl := Option.some.inj holds'
    exact ⟨pass, holds, rfl, rfl⟩
  · intro pass' holds'
    obtain rfl := Option.some.inj holds'
    refine ⟨old.old, old.counted, old.marked, old.before, ?_⟩
    intro cache' accepted
    obtain rfl := Option.some.inj accepted
    exact ⟨loaded, generation, nodeCount⟩

theorem DiskSound.settled (disk : DiskSound state) {backend : Nat}
    (met : backend ∈ state.scanLockHolders ∨ ¬MarksPending state) : ¬MarksPending state := by
  rcases met with holder | settled
  · rintro ⟨vacuum, holds, changed, -⟩
    have own := disk.vacuum vacuum holds
    rw [own.exclusive (own.locked changed)] at holder
    cases holder
  · exact settled

theorem Sound.read (sound : Sound codeTuplesPerPage state) {backend : Nat}
    (settled : ¬MarksPending state) :
    Sound codeTuplesPerPage (NativeCache.setBackend state backend
      { state.backends backend with
        pass := some ⟨state.metapage, deadIds state.tuples, none⟩ }) := by
  have disk := sound.disk
  have reads (loaded : GraphMeta) (upTo : Nat) (nodes : List CodeTuple)
      (before : Loaded state loaded upTo nodes) := before.read backend
    { state.backends backend with
      pass := some ⟨state.metapage, deadIds state.tuples, none⟩ } disk settled rfl
  refine ⟨disk.congr rfl rfl rfl rfl rfl, ?_, ?_⟩
  · exact fun cache member => reads _ _ _ (sound.files cache member)
  · intro other
    have own := sound.backends other
    by_cases same : other = backend
    · subst same
      rw [setBackend_self]
      refine ⟨fun cache member => reads _ _ _ (own.caches cache member),
        fun cache member => reads _ _ _ (own.maps cache member),
        fun build member => reads _ _ _ (own.build build member), ?_⟩
      intro pass holds
      obtain rfl := Option.some.inj holds
      exact (passSound_new disk).read disk settled rfl
    · rw [setBackend_other state _ same]
      exact ⟨fun cache member => reads _ _ _ (own.caches cache member),
        fun cache member => reads _ _ _ (own.maps cache member),
        fun build member => reads _ _ _ (own.build build member),
        fun pass holds => (own.pass pass holds).read disk settled rfl⟩

/-- **A step of one backend** keeps the invariant. -/
theorem Sound.backendStep (sound : Sound codeTuplesPerPage state) {backend : Nat}
    {action : BackendAction} {self : Backend} (met : Meets state (.backend backend action))
    (stepped : backendStep codeTuplesPerPage state backend action = some self) :
    Sound codeTuplesPerPage (NativeCache.setBackend state backend self) := by
  have own := sound.backends backend
  cases action with
  | readMeta =>
    obtain rfl := Option.some.inj stepped
    exact sound.read (sound.disk.settled met)
  | startBuild reader =>
    obtain ⟨copy, holds, rfl⟩ := Option.map_eq_some_iff.mp stepped
    obtain ⟨old, counted⟩ := sound.readerCopy holds
    refine sound.setBackend (passKept_of_eq rfl) ⟨own.caches, own.maps, ?_, own.pass⟩
    intro build holds'
    obtain rfl := Option.some.inj holds'
    refine ⟨old, counted.trans sound.disk.counted_le, by simp, ?_, by simp, by simp⟩
    intro nodeId _ below
    rw [Nat.zero_mul] at below
    exact absurd below (Nat.not_lt_zero _)
  | loadPage =>
    obtain ⟨build, holds, rfl⟩ := Option.map_eq_some_iff.mp stepped
    refine sound.setBackend (passKept_of_eq rfl) ⟨own.caches, own.maps, ?_, own.pass⟩
    intro build' holds'
    obtain rfl := Option.some.inj holds'
    exact Loaded.loadPage sound.disk (fun other pass reads => (sound.backends other).pass pass reads)
      (own.build build holds)
  | finishBuild =>
    obtain ⟨build, holds, rest⟩ := Option.bind_eq_some_iff.mp stepped
    split_ifs at rest with complete
    obtain rfl := Option.some.inj rest
    refine sound.setBackend (passKept_of_eq rfl) ⟨?_, own.maps, by simp, own.pass⟩
    intro cache member
    rcases List.mem_cons.mp member with rfl | old
    · exact (own.build build holds).cache complete
    · exact own.caches cache old
  | abortBuild =>
    obtain rfl := Option.some.inj stepped
    exact sound.setBackend (passKept_of_eq rfl) ⟨own.caches, own.maps, by simp, own.pass⟩
  | acceptCache position =>
    obtain ⟨cache, found, rest⟩ := Option.bind_eq_some_iff.mp stepped
    obtain ⟨pass, holds, accepts, rfl⟩ := acceptIn_cases rest
    simp only [cacheMatches, Bool.and_eq_true, beq_iff_eq] at accepts
    exact sound.accept holds (own.caches cache (List.mem_of_getElem? found)) accepts.1.1.1.2
      accepts.1.1.2
  | acceptMap position =>
    obtain ⟨cache, found, rest⟩ := Option.bind_eq_some_iff.mp stepped
    obtain ⟨pass, holds, accepts, rfl⟩ := acceptIn_cases rest
    simp only [sharedHeaderMatches, Bool.and_eq_true, beq_iff_eq] at accepts
    exact sound.accept holds (own.maps cache (List.mem_of_getElem? found)) accepts.1.1.1
      accepts.1.2
  | attachFile position =>
    obtain ⟨cache, found, rfl⟩ := Option.map_eq_some_iff.mp stepped
    refine sound.setBackend (passKept_of_eq rfl) ⟨own.caches, ?_, own.build, own.pass⟩
    intro cache' member
    rcases List.mem_cons.mp member with rfl | old
    · exact sound.files cache' (List.mem_of_getElem? found)
    · exact own.maps cache' old
  | endPass =>
    obtain rfl := Option.some.inj stepped
    refine sound.setBackend ?_ ⟨own.caches, own.maps, own.build, by simp⟩
    intro pass holds
    cases holds
  | invalidateCaches =>
    obtain rfl := Option.some.inj stepped
    exact sound.setBackend (passKept_of_eq rfl) ⟨by simp, by simp, own.build, own.pass⟩

/-! ### Steps of the index -/

/-- A step that changes neither metapage nor tuples nor backends, and leaves no mark behind. -/
theorem frame_of_same (metapage : next.metapage = state.metapage)
    (tuples : next.tuples = state.tuples) (backends : next.backends = state.backends)
    (pending : MarksPending state → MarksPending next)
    (inserts : ∀ insert ∈ next.inserting,
      (∃ insert' ∈ state.inserting, insert'.copy = insert.copy) ∨ insert.copy = state.metapage) :
    Frame state next where
  generation := by rw [metapage]
  nodeCount := by rw [metapage]
  kept position tuple found := ⟨tuple, by rwa [tuples], rfl, id⟩
  marks settled _ := ⟨fun marks => settled (pending marks), fun position tuple tuple' found found'
    dead => by
      rw [tuples, found] at found'
      rwa [Option.some.inj found']⟩
  passes backend pass holds := ⟨pass, by rwa [backends] at holds, rfl, rfl⟩
  inserts := inserts

theorem uncounted_of_some (insert : Insert) (holds : state.inserting = some insert) :
    uncounted state = if insert.appended && !insert.published then 1 else 0 := by
  rw [uncounted, holds, Option.any_some]

theorem getElem?_append_kept {tuples : List CodeTuple} {tuple added : CodeTuple} {position : Nat}
    (found : tuples[position]? = some tuple) : (tuples ++ [added])[position]? = some tuple := by
  rw [List.getElem?_append_left (List.getElem?_eq_some_iff.mp found).1]
  exact found

theorem VacuumSound.mono {vacuum : Vacuum} (sound : VacuumSound state vacuum)
    (generation : state.metapage.generation ≤ next.metapage.generation)
    (nodeCount : state.metapage.nodeCount ≤ next.metapage.nodeCount)
    (holders : next.scanLockHolders = state.scanLockHolders) : VacuumSound next vacuum :=
  ⟨sound.old.trans generation, sound.counted.trans nodeCount, sound.locked,
    fun locked => holders.trans (sound.exclusive locked)⟩

theorem Sound.appendCode (sound : Sound codeTuplesPerPage state) {insert : Insert}
    (holds : state.inserting = some insert) (fresh : ¬insert.appended = true) :
    Sound codeTuplesPerPage { state with
      tuples := state.tuples ++ [⟨insert.copy.nodeCount, insert.heaptid, false⟩]
      inserting := some { insert with appended := true } } := by
  have disk := sound.disk
  have own := disk.insert insert holds
  have unpublished : insert.published = false := by
    by_contra published
    exact fresh (own.ordered (by simpa using published))
  have count := own.unpublished unpublished
  have length : state.tuples.length = insert.copy.nodeCount := by
    rw [disk.length, uncounted_of_some _ holds, count]
    simp [fresh]
  refine sound.frame ?_ ?_ sound.files rfl
  · refine ⟨le_refl _, le_refl _, ?_, ?_, ?_, ?_⟩
    · exact fun position tuple found => ⟨tuple, getElem?_append_kept found, rfl, id⟩
    · intro settled _
      refine ⟨settled, fun position tuple tuple' found found' dead => ?_⟩
      rw [getElem?_append_kept found] at found'
      rwa [Option.some.inj found']
    · exact fun backend pass reads => ⟨pass, reads, rfl, rfl⟩
    · intro insert' holds'
      obtain rfl := Option.some.inj holds'
      exact Or.inl ⟨insert, holds, rfl⟩
  · refine ⟨?_, ?_, ?_, ?_, ?_⟩
    · intro position tuple found
      rcases Nat.lt_or_ge position state.tuples.length with old | new
      · rw [List.getElem?_append_left old] at found
        exact disk.ids position tuple found
      · rw [List.getElem?_append_right new] at found
        obtain ⟨inside, here⟩ := List.getElem?_eq_some_iff.mp found
        rw [List.length_singleton] at inside
        rw [List.getElem_singleton] at here
        rw [← here]
        show insert.copy.nodeCount = position
        omega
    · rw [uncounted_of_some { insert with appended := true } rfl]
      simp [unpublished, length, count]
    · intro tuple member dead
      rcases List.mem_append.mp member with old | new
      · exact disk.deadCounted tuple old dead
      · rw [List.mem_singleton.mp new] at dead
        cases dead
    · intro insert' holds'
      obtain rfl := Option.some.inj holds'
      refine ⟨own.old, own.unpublished, own.published, fun _ => rfl, fun _ => ?_⟩
      refine ⟨⟨insert.copy.nodeCount, insert.heaptid, false⟩, ?_, rfl⟩
      show (state.tuples ++ [_])[insert.copy.nodeCount]? = _
      rw [← length, List.getElem?_concat_length]
    · exact fun vacuum runs => (disk.vacuum vacuum runs).mono (le_refl _) (le_refl _) rfl

theorem Sound.publish (sound : Sound codeTuplesPerPage state) {insert : Insert}
    (holds : state.inserting = some insert) (appended : insert.appended = true)
    (unpublished : ¬insert.published = true) :
    Sound codeTuplesPerPage { state with
      metapage := bump { state.metapage with
        nodeCount := insert.copy.nodeCount + 1
        entryNodeId := insert.entryNodeId
        graphMaxLevel := insert.graphMaxLevel }
      inserting := some { insert with published := true } } := by
  have disk := sound.disk
  have own := disk.insert insert holds
  have count := own.unpublished (by simpa using unpublished)
  have more : state.metapage.generation ≤ state.metapage.generation + 1 := Nat.le_succ _
  have wider : state.metapage.nodeCount ≤ insert.copy.nodeCount + 1 := by omega
  refine sound.frame ?_ ?_ sound.files rfl
  · refine ⟨more, wider, fun position tuple found => ⟨tuple, found, rfl, id⟩, ?_, ?_, ?_⟩
    · intro _ same
      exact absurd same (Nat.succ_ne_self _)
    · exact fun backend pass reads => ⟨pass, reads, rfl, rfl⟩
    · intro insert' holds'
      obtain rfl := Option.some.inj holds'
      exact Or.inl ⟨insert, holds, rfl⟩
  · refine ⟨disk.ids, ?_, ?_, ?_, ?_⟩
    · rw [uncounted_of_some { insert with published := true } rfl, disk.length,
        uncounted_of_some _ holds]
      simp [appended, unpublished, bump, count]
    · exact fun tuple member dead => (disk.deadCounted tuple member dead).trans_le wider
    · intro insert' holds'
      obtain rfl := Option.some.inj holds'
      exact ⟨own.old.trans more, fun still => (by cases still),
        fun _ => ⟨Nat.lt_succ_of_le own.old, Nat.lt_succ_self _⟩, fun _ => appended, own.tuple⟩
    · exact fun vacuum runs => (disk.vacuum vacuum runs).mono more wider rfl

theorem LoadedCache.append (sound : Sound codeTuplesPerPage state) {insert : Insert}
    (holds : state.inserting = some insert) (published : insert.published = true) {cache : Cache}
    (loaded : LoadedCache state cache) (accepts : cacheMatches cache insert.copy = true) :
    LoadedCache state (appendInsertCacheNode cache insert) := by
  have own := sound.disk.insert insert holds
  obtain ⟨newer, wider⟩ := own.published published
  simp only [cacheMatches, Bool.and_eq_true, beq_iff_eq] at accepts
  have generation : cache.stamp.generation = insert.copy.generation := accepts.1.1.1.2
  have count : cache.stamp.nodeCount = insert.copy.nodeCount := accepts.1.1.2
  have counted := sound.disk.counted_le
  refine ⟨loaded.old, ?_, ?_, ?_, ?_, ?_⟩
  · show cache.stamp.nodeCount + 1 ≤ _
    omega
  · intro node member
    rcases List.mem_cons.mp member with rfl | old
    · exact own.tuple (own.ordered published)
    · exact loaded.known node old
  · intro nodeId small _
    have bound : nodeId < cache.stamp.nodeCount + 1 := small
    rcases Nat.lt_or_ge nodeId cache.stamp.nodeCount with inside | last
    · obtain ⟨node, member, same⟩ := loaded.full nodeId inside inside
      exact ⟨node, List.mem_cons_of_mem _ member, same⟩
    · refine ⟨_, List.mem_cons_self, ?_⟩
      show insert.copy.nodeCount = nodeId
      omega
  · intro _ current
    have same : cache.stamp.generation = state.metapage.generation := current
    omega
  · intro backend pass reads same node member inside
    rcases List.mem_cons.mp member with rfl | old
    · have older : pass.copy.generation ≤ insert.copy.generation := (same.trans generation).le
      have below := ((sound.backends backend).pass pass reads).before insert holds older _ inside
      exact absurd below (Nat.lt_irrefl _)
    · exact loaded.crossed backend pass reads same node old inside

theorem Sound.endInsert (sound : Sound codeTuplesPerPage state) {insert : Insert}
    (holds : state.inserting = some insert)
    (counted : insert.appended = true → insert.published = true) :
    Sound codeTuplesPerPage { state with inserting := none } := by
  have disk := sound.disk
  refine sound.frame (frame_of_same rfl rfl rfl id ?_) ⟨disk.ids, ?_, disk.deadCounted, ?_, ?_⟩
    sound.files rfl
  · intro insert' ended
    cases ended
  · rw [disk.length, uncounted_of_some _ holds]
    rcases appended : insert.appended with _ | _
    · simp [uncounted]
    · simp [uncounted, counted appended]
  · intro insert' ended
    cases ended
  · exact fun vacuum runs => (disk.vacuum vacuum runs).mono (le_refl _) (le_refl _) rfl

theorem Sound.bump (sound : Sound codeTuplesPerPage state) {metapage : GraphMeta}
    (generation : metapage.generation = state.metapage.generation + 1)
    (nodeCount : metapage.nodeCount = state.metapage.nodeCount) {vacuuming : Option Vacuum}
    (vacuums : ∀ vacuum ∈ vacuuming, VacuumSound state vacuum) :
    Sound codeTuplesPerPage { state with metapage, vacuuming } := by
  have disk := sound.disk
  have more : state.metapage.generation ≤ metapage.generation := by omega
  refine sound.frame ?_ ?_ sound.files rfl
  · refine ⟨more, nodeCount.ge, fun position tuple found => ⟨tuple, found, rfl, id⟩, ?_, ?_, ?_⟩
    · intro _ same
      have same' : metapage.generation = state.metapage.generation := same
      omega
    · exact fun backend pass reads => ⟨pass, reads, rfl, rfl⟩
    · exact fun insert holds => Or.inl ⟨insert, holds, rfl⟩
  · refine ⟨disk.ids, ?_, ?_, ?_, ?_⟩
    · show _ = metapage.nodeCount + uncounted state
      rw [nodeCount]
      exact disk.length
    · intro tuple member dead
      exact (disk.deadCounted tuple member dead).trans_le nodeCount.ge
    · intro insert holds
      have own := disk.insert insert holds
      exact ⟨own.old.trans more, fun unpublished => (own.unpublished unpublished).trans nodeCount.symm,
        fun published => ⟨(own.published published).1.trans_le more,
          (own.published published).2.trans_le nodeCount.ge⟩, own.ordered, own.tuple⟩
    · exact fun vacuum runs => (vacuums vacuum runs).mono more nodeCount.ge rfl

/-- **A step of the insert** keeps the invariant. -/
theorem Sound.insertStep (sound : Sound codeTuplesPerPage state) {insert : Insert}
    (holds : state.inserting = some insert) {action : InsertAction}
    (met : Meets state (.insert action)) (stepped : insertStep state insert action = some next) :
    Sound codeTuplesPerPage next := by
  cases action with
  | appendCode =>
    simp only [NativeCache.insertStep] at stepped
    split_ifs at stepped with fresh
    obtain rfl := Option.some.inj stepped
    exact sound.appendCode holds fresh
  | publish =>
    simp only [NativeCache.insertStep] at stepped
    split_ifs at stepped with ready
    obtain rfl := Option.some.inj stepped
    exact sound.publish holds ready.1 ready.2
  | appendCacheNode position =>
    simp only [NativeCache.insertStep] at stepped
    split_ifs at stepped with published
    obtain ⟨cache, found, rest⟩ := Option.bind_eq_some_iff.mp stepped
    split_ifs at rest with accepts
    obtain rfl := Option.some.inj rest
    have own := sound.backends insert.backend
    refine sound.setBackend (passKept_of_eq rfl) ⟨?_, own.maps, own.build, own.pass⟩
    intro cache' member
    rcases List.mem_or_eq_of_mem_set member with old | rfl
    · exact own.caches cache' old
    · exact (own.caches cache (List.mem_of_getElem? found)).append sound holds published accepts
  | updateDocMap docCount =>
    simp only [NativeCache.insertStep] at stepped
    split_ifs at stepped with published
    obtain rfl := Option.some.inj stepped
    exact sound.bump (by rfl) (by rfl) sound.disk.vacuum
  | finish =>
    simp only [NativeCache.insertStep] at stepped
    split_ifs at stepped with published
    obtain rfl := Option.some.inj stepped
    exact sound.endInsert holds fun _ => published
  | fail =>
    obtain rfl := Option.some.inj stepped
    exact sound.endInsert holds (met insert holds)

theorem Sound.setVacuum (sound : Sound codeTuplesPerPage state) {vacuuming : Option Vacuum}
    (scanLockHolders : List Nat)
    (pending : MarksPending state → MarksPending { state with vacuuming })
    (vacuums : ∀ vacuum ∈ vacuuming,
      VacuumSound { state with vacuuming, scanLockHolders } vacuum) :
    Sound codeTuplesPerPage { state with vacuuming, scanLockHolders } := by
  have disk := sound.disk
  refine sound.frame (frame_of_same rfl rfl rfl pending ?_)
    ⟨disk.ids, disk.length, disk.deadCounted, ?_, vacuums⟩ sound.files rfl
  · exact fun insert holds => Or.inl ⟨insert, holds, rfl⟩
  · intro insert holds
    have own := disk.insert insert holds
    exact ⟨own.old, own.unpublished, own.published, own.ordered, own.tuple⟩

theorem getElem?_markPage {tuples : List CodeTuple} (vacuum : Vacuum) (heaptids : List Nat)
    {position : Nat} {tuple : CodeTuple} (found : tuples[position]? = some tuple) :
    ∃ tuple', (markPage codeTuplesPerPage tuples vacuum heaptids)[position]? = some tuple' ∧
      tuple'.nodeId = tuple.nodeId ∧ tuple'.heaptid = tuple.heaptid ∧
        (tuple.dead = true → tuple'.dead = true) ∧
          (tuple'.dead = true → tuple.dead = true ∨ tuple.nodeId < vacuum.copy.nodeCount) := by
  rw [markPage, List.getElem?_mapIdx, found, Option.map_some]
  split_ifs with marked
  · exact ⟨_, rfl, rfl, rfl, fun _ => rfl, fun _ => Or.inr marked.2.1⟩
  · exact ⟨_, rfl, rfl, rfl, id, Or.inl⟩

theorem getElem?_of_markPage {tuples : List CodeTuple} {vacuum : Vacuum} {heaptids : List Nat}
    {position : Nat} {tuple' : CodeTuple}
    (found : (markPage codeTuplesPerPage tuples vacuum heaptids)[position]? = some tuple') :
    ∃ tuple, tuples[position]? = some tuple ∧ tuple'.nodeId = tuple.nodeId ∧
      tuple'.heaptid = tuple.heaptid ∧
        (tuple'.dead = true → tuple.dead = true ∨ tuple.nodeId < vacuum.copy.nodeCount) := by
  have inside := (List.getElem?_eq_some_iff.mp found).1
  rw [markPage, List.length_mapIdx] at inside
  have here := List.getElem?_eq_getElem inside
  obtain ⟨other, found', nodeId, heaptid, -, dead⟩ :=
    @getElem?_markPage codeTuplesPerPage _ vacuum heaptids _ _ here
  rw [found] at found'
  obtain rfl := Option.some.inj found'
  exact ⟨_, here, nodeId, heaptid, dead⟩

theorem Sound.deletePage (sound : Sound codeTuplesPerPage state) {vacuum : Vacuum}
    (runs : state.vacuuming = some vacuum) (locked : vacuum.scanLock = true)
    (unbumped : ¬vacuum.bumped = true) (heaptids : List Nat) :
    Sound codeTuplesPerPage { state with
      tuples := markPage codeTuplesPerPage state.tuples vacuum heaptids
      vacuuming := some { vacuum with
        pageNo := vacuum.pageNo + 1
        changedAny := vacuum.changedAny ||
          decide (markPage codeTuplesPerPage state.tuples vacuum heaptids ≠ state.tuples) } } := by
  have disk := sound.disk
  have own := disk.vacuum vacuum runs
  refine sound.frame ?_ ?_ sound.files rfl
  · refine ⟨le_refl _, le_refl _, ?_, ?_, fun backend pass reads => ⟨pass, reads, rfl, rfl⟩, ?_⟩
    · intro position tuple found
      obtain ⟨tuple', found', -, heaptid, dead, -⟩ :=
        @getElem?_markPage codeTuplesPerPage _ vacuum heaptids _ _ found
      exact ⟨tuple', found', heaptid, dead⟩
    · intro settled _
      have unchanged : ¬(vacuum.changedAny ||
          decide (markPage codeTuplesPerPage state.tuples vacuum heaptids ≠ state.tuples)) = true :=
        fun changed => settled ⟨_, rfl, changed, by simpa using unbumped⟩
      rw [Bool.or_eq_true, not_or, decide_eq_true_iff, not_not] at unchanged
      refine ⟨?_, fun position tuple tuple' found found' dead => ?_⟩
      · rintro ⟨other, runs', changed, -⟩
        rw [runs] at runs'
        obtain rfl := Option.some.inj runs'
        exact unchanged.1 changed
      · have found'' : (markPage codeTuplesPerPage state.tuples vacuum heaptids)[position]? =
            some tuple' := found'
        rw [unchanged.2, found] at found''
        rwa [Option.some.inj found'']
    · exact fun insert holds => Or.inl ⟨insert, holds, rfl⟩
  · refine ⟨?_, ?_, ?_, ?_, ?_⟩
    · intro position tuple' found'
      obtain ⟨tuple, found, nodeId, -⟩ := getElem?_of_markPage found'
      rw [nodeId]
      exact disk.ids position tuple found
    · rw [show (markPage codeTuplesPerPage state.tuples vacuum heaptids).length =
        state.tuples.length from List.length_mapIdx]
      exact disk.length
    · intro tuple' member dead'
      obtain ⟨position, found'⟩ := List.getElem?_of_mem member
      obtain ⟨tuple, found, nodeId, -, dead⟩ := getElem?_of_markPage found'
      rw [nodeId]
      rcases dead dead' with old | below
      · exact disk.deadCounted tuple (List.mem_of_getElem? found) old
      · exact below.trans_le own.counted
    · intro insert holds
      have inserts := disk.insert insert holds
      refine ⟨inserts.old, inserts.unpublished, inserts.published, inserts.ordered, ?_⟩
      intro appended
      obtain ⟨tuple, found, heaptid⟩ := inserts.tuple appended
      obtain ⟨tuple', found', -, same, -⟩ :=
        @getElem?_markPage codeTuplesPerPage _ vacuum heaptids _ _ found
      exact ⟨tuple', found', same.trans heaptid⟩
    · intro vacuum' runs'
      obtain rfl := Option.some.inj runs'
      exact ⟨own.old, own.counted, fun _ => locked, own.exclusive⟩

theorem Sound.repairEntries (sound : Sound codeTuplesPerPage state) (entryNodeId : Nat) :
    Sound codeTuplesPerPage { state with
      metapage := { state.metapage with entryNodeId } } := by
  have disk := sound.disk
  refine sound.frame ⟨le_refl _, le_refl _, fun position tuple found => ⟨tuple, found, rfl, id⟩,
    ?_, fun backend pass reads => ⟨pass, reads, rfl, rfl⟩, ?_⟩
    ⟨disk.ids, disk.length, disk.deadCounted, ?_, ?_⟩ sound.files rfl
  · intro settled _
    refine ⟨settled, fun position tuple tuple' found found' dead => ?_⟩
    rw [show state.tuples[position]? = some tuple' from found'] at found
    rwa [← Option.some.inj found]
  · exact fun insert holds => Or.inl ⟨insert, holds, rfl⟩
  · intro insert holds
    have own := disk.insert insert holds
    exact ⟨own.old, own.unpublished, own.published, own.ordered, own.tuple⟩
  · exact fun vacuum runs => (disk.vacuum vacuum runs).mono (le_refl _) (le_refl _) rfl

/-- **A step of the vacuum** keeps the invariant. -/
theorem Sound.vacuumStep (sound : Sound codeTuplesPerPage state) {vacuum : Vacuum}
    (runs : state.vacuuming = some vacuum) {action : VacuumAction}
    (met : Meets state (.vacuum action))
    (stepped : vacuumStep codeTuplesPerPage state vacuum action = some next) :
    Sound codeTuplesPerPage next := by
  have own := sound.disk.vacuum vacuum runs
  have ends (settled : ¬MarksPending state) :
      Sound codeTuplesPerPage { state with vacuuming := none } :=
    sound.setVacuum _ (fun pending => absurd pending settled) fun vacuum' ended => by cases ended
  cases action with
  | lockExclusive =>
    simp only [NativeCache.vacuumStep] at stepped
    split_ifs at stepped with free
    obtain rfl := Option.some.inj stepped
    refine sound.setVacuum state.scanLockHolders ?_ ?_
    · rintro ⟨other, runs', changed, bumped⟩
      rw [runs] at runs'
      obtain rfl := Option.some.inj runs'
      exact ⟨_, rfl, changed, bumped⟩
    · intro vacuum' runs'
      obtain rfl := Option.some.inj runs'
      exact ⟨own.old, own.counted, fun _ => rfl, fun _ => free⟩
  | deletePage heaptids =>
    simp only [NativeCache.vacuumStep] at stepped
    split_ifs at stepped with ready
    obtain rfl := Option.some.inj stepped
    exact sound.deletePage runs ready.1 ready.2.1 heaptids
  | repairEntries entryNodeId =>
    simp only [NativeCache.vacuumStep] at stepped
    split_ifs at stepped
    obtain rfl := Option.some.inj stepped
    exact sound.repairEntries entryNodeId
  | bumpGeneration =>
    simp only [NativeCache.vacuumStep] at stepped
    split_ifs at stepped
    obtain rfl := Option.some.inj stepped
    refine sound.bump (by rfl) (by rfl) fun vacuum' runs' => ?_
    obtain rfl := Option.some.inj runs'
    exact ⟨own.old, own.counted, own.locked, own.exclusive⟩
  | finish =>
    simp only [NativeCache.vacuumStep] at stepped
    split_ifs at stepped with ready
    obtain rfl := Option.some.inj stepped
    refine ends ?_
    rintro ⟨other, runs', changed, unbumped⟩
    rw [runs] at runs'
    obtain rfl := Option.some.inj runs'
    rw [ready.2 changed] at unbumped
    cases unbumped
  | fail =>
    obtain rfl := Option.some.inj stepped
    exact ends met

theorem Sound.setFiles (sound : Sound codeTuplesPerPage state) {files : List Cache}
    (loaded : ∀ cache ∈ files, LoadedCache state cache) :
    Sound codeTuplesPerPage { state with files } := by
  refine sound.frame (frame_of_same rfl rfl rfl id ?_) (sound.disk.congr rfl rfl rfl rfl rfl)
    loaded rfl
  exact fun insert holds => Or.inl ⟨insert, holds, rfl⟩

/-- **Every step** that meets the condition keeps the invariant. -/
theorem sound_step {action : Action} (sound : Sound codeTuplesPerPage state)
    (met : Meets state action) (stepped : step codeTuplesPerPage state action = some next) :
    Sound codeTuplesPerPage next := by
  cases action with
  | backend backend action =>
    obtain ⟨self, own, rfl⟩ := Option.map_eq_some_iff.mp stepped
    exact sound.backendStep met own
  | lockShare backend =>
    simp only [step] at stepped
    split_ifs at stepped with free
    obtain rfl := Option.some.inj stepped
    refine sound.setVacuum _ id fun vacuum runs => ?_
    have own := sound.disk.vacuum vacuum runs
    refine ⟨own.old, own.counted, own.locked, fun locked => absurd ?_ free⟩
    rw [show state.vacuuming = some vacuum from runs]
    exact locked
  | unlockShare backend =>
    obtain rfl := Option.some.inj stepped
    refine sound.setVacuum _ id fun vacuum runs => ?_
    have own := sound.disk.vacuum vacuum runs
    refine ⟨own.old, own.counted, own.locked, fun locked => ?_⟩
    show state.scanLockHolders.erase backend = []
    rw [own.exclusive locked]
    rfl
  | publishFile backend =>
    obtain ⟨build, holds, rest⟩ := Option.bind_eq_some_iff.mp stepped
    split_ifs at rest with complete
    obtain rfl := Option.some.inj rest
    have own := sound.backends backend
    have filed := sound.setFiles (fun cache member => by
      rcases List.mem_cons.mp member with rfl | old
      · exact (own.build build holds).cache complete
      · exact sound.files cache old)
    have own' := filed.backends backend
    exact filed.setBackend (passKept_of_eq rfl) ⟨own'.caches, own'.maps, by simp, own'.pass⟩
  | removeFile position =>
    obtain rfl := Option.some.inj stepped
    exact sound.setFiles fun cache member => sound.files cache (List.mem_of_mem_eraseIdx member)
  | startInsert backend heaptid entryNodeId graphMaxLevel =>
    simp only [step] at stepped
    split_ifs at stepped with free
    obtain rfl := Option.some.inj stepped
    have none : state.inserting = none := by simpa using free
    have disk := sound.disk
    refine sound.frame (frame_of_same rfl rfl rfl id ?_)
      ⟨disk.ids, ?_, disk.deadCounted, ?_, ?_⟩ sound.files rfl
    · intro insert holds
      obtain rfl := Option.some.inj holds
      exact Or.inr rfl
    · rw [disk.length]
      simp [uncounted, none]
    · intro insert holds
      obtain rfl := Option.some.inj holds
      exact ⟨le_refl _, fun _ => rfl, by simp, by simp, by simp⟩
    · exact fun vacuum runs => (disk.vacuum vacuum runs).mono (le_refl _) (le_refl _) rfl
  | insert action =>
    obtain ⟨insert, holds, own⟩ := Option.bind_eq_some_iff.mp stepped
    exact sound.insertStep holds met own
  | startVacuum backend =>
    simp only [step] at stepped
    split_ifs at stepped with free
    obtain rfl := Option.some.inj stepped
    refine sound.setVacuum state.scanLockHolders ?_ ?_
    · rintro ⟨other, runs, -⟩
      exact absurd (Option.isSome_of_mem runs) free
    · intro vacuum runs
      obtain rfl := Option.some.inj runs
      exact ⟨le_refl _, le_refl _, by simp, by simp⟩
  | vacuum action =>
    obtain ⟨vacuum, runs, own⟩ := Option.bind_eq_some_iff.mp stepped
    exact sound.vacuumStep runs met own

/-! ### All runs -/

theorem Built.sound (built : Built state) : Sound codeTuplesPerPage state := by
  refine ⟨⟨built.ids, ?_, ?_, ?_, ?_⟩, ?_, ?_⟩
  · rw [built.counted, uncounted, built.inserting]
    rfl
  · intro tuple member dead
    rw [built.live tuple member] at dead
    cases dead
  · intro insert holds
    rw [built.inserting] at holds
    cases holds
  · intro vacuum runs
    rw [built.vacuuming] at runs
    cases runs
  · intro cache member
    rw [built.files] at member
    cases member
  · intro backend
    rw [built.backends backend]
    exact ⟨by simp, by simp, by simp, by simp⟩

theorem Sound.cacheSafe (sound : Sound codeTuplesPerPage state) : CacheSafe state := by
  intro backend pass cache reads accepted
  have own := (sound.backends backend).pass pass reads
  obtain ⟨loaded, generation, count⟩ := own.accepted cache accepted
  refine ⟨?_, ?_⟩
  · intro nodeId inside node found
    have same : node.nodeId = nodeId := by simpa using List.find?_some found
    exact loaded.crossed backend pass reads generation.symm node (List.mem_of_find?_eq_some found)
      (same ▸ inside)
  · intro tuple member small
    rw [← count] at small
    obtain ⟨node, here, same⟩ := loaded.full tuple.nodeId small small
    rcases found : cache.node? tuple.nodeId with _ | node'
    · have none := List.find?_eq_none.mp found node here
      simp [same] at none
    · have same' : node'.nodeId = tuple.nodeId := by simpa using List.find?_some found
      obtain ⟨tuple', there, heaptid⟩ := loaded.known node' (List.mem_of_find?_eq_some found)
      obtain ⟨position, place⟩ := List.getElem?_of_mem member
      rw [same', sound.disk.ids _ _ place, place] at there
      rw [← Option.some.inj there] at heaptid
      exact ⟨node', rfl, heaptid.symm⟩

end Invariant

/-- **Where no vacuum leaves marks without a new generation behind**, every accepted cache shows
the dead marks and the inserts that were complete when its metapage was read. -/
theorem cacheSafe_reached (codeTuplesPerPage : Nat) {start state : IndexState}
    (built : Built start) (reached : ReachedBy (step codeTuplesPerPage) Meets start state) :
    CacheSafe state :=
  (reached.invariant (built.sound)
    fun sound met stepped => sound_step sound met stepped).cacheSafe

/-! ### Two runs -/

def oneNode : IndexState where
  metapage := ⟨1, 1, 0, 0, 0⟩
  tuples := [⟨0, 10, false⟩]
  files := []
  backends := fun _ => ⟨none, none, [], []⟩
  scanLockHolders := []
  inserting := none
  vacuuming := none

theorem oneNode_built : Built oneNode where
  ids position tuple found := by
    obtain ⟨inside, here⟩ := List.getElem?_eq_some_iff.mp found
    obtain rfl : position = 0 := Nat.lt_one_iff.mp inside
    rw [← here]
    rfl
  counted := rfl
  live tuple member := by
    rw [List.mem_singleton.mp member]
  files := rfl
  backends _ := rfl
  holders := rfl
  inserting := rfl
  vacuuming := rfl

def buildingScan (backend : Nat) : List Action :=
  [.lockShare backend, .backend backend .readMeta, .backend backend (.startBuild .scan),
    .backend backend .loadPage, .backend backend .finishBuild, .backend backend (.acceptCache 0)]

def leave (backend : Nat) : List Action := [.backend backend .endPass, .unlockShare backend]

/-- A vacuum ends, an insert ends, and a scan builds a new cache. -/
theorem cacheSafe_afterVacuum : ∃ state,
    ReachedBy (step 4) Meets oneNode state ∧ state.metapage.nodeCount = 2 ∧
      (∃ pass cache, (state.backends 1).pass = some pass ∧ pass.cache = some cache ∧
        pass.deadBefore = [0]) ∧ CacheSafe state := by
  have run : runMeeting (step 4) Meets oneNode
      (buildingScan 1 ++ leave 1 ++
        [.startVacuum 2, .vacuum .lockExclusive, .vacuum (.deletePage [10]),
          .vacuum .bumpGeneration, .vacuum .finish, .startInsert 3 20 0 0, .insert .appendCode,
          .insert .publish, .insert .finish] ++ buildingScan 1) = some _ := rfl
  have reached := reachedBy_of_runMeeting run
  exact ⟨_, reached, rfl, ⟨_, _, rfl, rfl, rfl⟩, cacheSafe_reached 4 oneNode_built reached⟩

/-- **A vacuum that fails after it has marked a node** leaves the old generation, and the next scan
accepts the cache in which the node is live. -/
theorem failedVacuum_accepted : ∃ state,
    Reached (step 4) oneNode state ∧ ¬CacheSafe state := by
  have run : runActions (step 4) oneNode
      (buildingScan 1 ++ leave 1 ++
        [.startVacuum 2, .vacuum .lockExclusive, .vacuum (.deletePage [10]), .vacuum .fail,
          .lockShare 1, .backend 1 .readMeta, .backend 1 (.acceptCache 0)]) = some _ := rfl
  refine ⟨_, reached_of_run run, fun safe => ?_⟩
  have dead := (safe 1 _ _ rfl rfl).dead 0 List.mem_cons_self ⟨0, 10, false⟩ rfl
  cases dead

end TurboHybrid.NativeCache
