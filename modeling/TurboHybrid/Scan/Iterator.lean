/-
**Posting iterators over a chain of chunks.**

An iterator stands on a posting of one chunk, keeps that chunk's header for its bound and loads
the next chunk when it runs out. Dead nodes, nodes without a document and nodes past the node
count are stepped over.

* `locate`: the place of the first scorable posting at or after a node;
* `seekTo_locate`: seeking from such a place goes to such a place;
* `locate_head`: the posting found is the first of the chain.
-/
import TurboHybrid.Index.PostingCodec
import TurboHybrid.Query.Terms
import Mathlib.Data.List.TakeWhile

set_option linter.unusedSectionVars false

namespace TurboHybrid.Index

/-- A term's posting chain: runs of postings, sorted by node over the whole chain. -/
structure PostingChain where
  runs : List (List Posting)
  nonempty : ∀ run ∈ runs, run ≠ []
  sorted : runs.flatten.Pairwise fun one other => one.nodeId < other.nodeId

def PostingChain.postings (chain : PostingChain) : List Posting := chain.runs.flatten

/-- The runs the writer cuts a term's postings into. -/
def postingRuns : List Posting → List (List Posting)
  | [] => []
  | posting :: rest =>
    (posting :: rest.take (maxPostingsPerChunk - 1)) ::
      postingRuns (rest.drop (maxPostingsPerChunk - 1))
termination_by postings => postings.length

theorem postingRuns_flatten (postings : List Posting) : (postingRuns postings).flatten = postings := by
  fun_induction postingRuns postings with
  | case1 => rfl
  | case2 posting rest ih => rw [List.flatten_cons, ih, List.cons_append, List.take_append_drop]

theorem postingRuns_nonempty {postings run : List Posting} (member : run ∈ postingRuns postings) :
    run ≠ [] := by
  fun_induction postingRuns postings with
  | case1 => cases member
  | case2 posting rest ih =>
    rcases List.mem_cons.mp member with rfl | later
    · exact List.cons_ne_nil _ _
    · exact ih later

theorem postingRuns_append {front back : List Posting} (full : front.length = maxPostingsPerChunk) :
    postingRuns (front ++ back) = front :: postingRuns back := by
  cases front with
  | nil => simp [maxPostingsPerChunk_eq] at full
  | cons posting front =>
    have count : front.length = maxPostingsPerChunk - 1 := by
      rw [List.length_cons] at full
      omega
    rw [List.cons_append, postingRuns, List.take_left' count, List.drop_left' count]

/-- The chain the writer makes of a term's postings. -/
def PostingChain.ofPostings (postings : List Posting)
    (sorted : postings.Pairwise fun one other => one.nodeId < other.nodeId) : PostingChain where
  runs := postingRuns postings
  nonempty _ := postingRuns_nonempty
  sorted := (postingRuns_flatten postings).symm ▸ sorted

@[simp] theorem PostingChain.ofPostings_postings (postings : List Posting)
    (sorted : postings.Pairwise fun one other => one.nodeId < other.nodeId) :
    (PostingChain.ofPostings postings sorted).postings = postings :=
  postingRuns_flatten postings

def PostingChain.chunks {R : Type*} [Field R] [LinearOrder R] (corpus : ScoringMeta R)
    (chain : PostingChain) : List (Chunk R) :=
  chain.runs.map (writePostingsChunk corpus)

/-- The cached document state: the graph's node count, the document lengths and the live flags. -/
structure DocState where
  nodeCount : Nat
  docLens : List Nat
  liveNodes : List Bool
  nodeCount_lt : nodeCount ≤ uint32Max

namespace DocState

def docLen (docs : DocState) (nodeId : Nat) : Nat := docs.docLens.getD nodeId 0

def live (docs : DocState) (nodeId : Nat) : Bool := docs.liveNodes.getD nodeId false

/-- The test every scorer makes of a posting's node. -/
def scorable (docs : DocState) (nodeId : Nat) : Bool :=
  decide (nodeId < docs.nodeCount) && docs.docLen nodeId != 0 && docs.live nodeId

theorem scorable_lt {docs : DocState} {nodeId : Nat} (scorable : docs.scorable nodeId = true) :
    nodeId < docs.nodeCount := by
  simp only [DocState.scorable, Bool.and_eq_true, decide_eq_true_eq] at scorable
  exact scorable.1.1

end DocState

end TurboHybrid.Index

namespace TurboHybrid.Scan

open TurboHybrid.Index

variable {R : Type*} [Field R] [LinearOrder R] [IsStrictOrderedRing R]

/-! ### Cursors -/

/-- A loaded chunk header; missing maxima are taken from the decoded postings. -/
def loadedChunk (chunk : Chunk R) : Chunk R :=
  { chunk with
    maxTf := if chunk.maxTf = 0 then maxOf (chunk.postings.map Posting.tf) else chunk.maxTf
    maxTfNormQ16 :=
      if chunk.maxTfNormQ16 = 0 then maxOf (chunk.postings.map Posting.tfNormQ16)
      else chunk.maxTfNormQ16 }

@[simp] theorem loadedChunk_lastNodeId (chunk : Chunk R) :
    (loadedChunk chunk).lastNodeId = chunk.lastNodeId := rfl

/-- The place of a valid iterator: the loaded chunk, its postings from the position on, and the
chain after it. -/
structure Cursor (R : Type*) where
  chunk : Chunk R
  window : List Posting
  rest : List (Chunk R)

def iteratorLoadChunk : List (Chunk R) → Option (Cursor R)
  | [] => none
  | chunk :: rest =>
    if chunk.postings.isEmpty then none else some ⟨loadedChunk chunk, chunk.postings, rest⟩

def skipDead (docs : DocState) (window : List Posting) : List Posting :=
  window.dropWhile fun posting => !docs.scorable posting.nodeId

/-- Step over dead postings, through as many chunks as it takes. -/
def iteratorAdvanceValid (docs : DocState) :
    List (Chunk R) → Chunk R → List Posting → Option (Cursor R)
  | [], chunk, window =>
    if (skipDead docs window).isEmpty then none else some ⟨chunk, skipDead docs window, []⟩
  | next :: rest, chunk, window =>
    if (skipDead docs window).isEmpty then
      if next.postings.isEmpty then none
      else iteratorAdvanceValid docs rest (loadedChunk next) next.postings
    else some ⟨chunk, skipDead docs window, next :: rest⟩

def iteratorSeekChunks (docs : DocState) (target : Nat) :
    List (Chunk R) → Chunk R → List Posting → Option (Cursor R)
  | [], chunk, window =>
    if chunk.lastNodeId < target then none
    else
      iteratorAdvanceValid docs [] chunk (window.dropWhile fun posting => posting.nodeId < target)
  | next :: rest, chunk, window =>
    if chunk.lastNodeId < target then
      if next.postings.isEmpty then none
      else iteratorSeekChunks docs target rest (loadedChunk next) next.postings
    else
      iteratorAdvanceValid docs (next :: rest) chunk
        (window.dropWhile fun posting => posting.nodeId < target)

def iteratorSeekTo (docs : DocState) (target : Nat) (cursor : Cursor R) : Option (Cursor R) :=
  iteratorSeekChunks docs target cursor.rest cursor.chunk cursor.window

/-- A fresh iterator: the first chunk, then on to a live posting. -/
def iteratorInit (docs : DocState) (chunks : List (Chunk R)) : Option (Cursor R) :=
  (iteratorLoadChunk chunks).bind fun cursor =>
    iteratorAdvanceValid docs cursor.rest cursor.chunk cursor.window

/-- The node an iterator stands on, the largest 32-bit number when it stands on none. -/
def cursorNodeId (cursor : Cursor R) : Nat :=
  match cursor.window with
  | posting :: _ => posting.nodeId
  | [] => uint32Max

/-! ### The place of a node -/

/-- Postings to step over on the way to the first scorable one from a node on. -/
def before (docs : DocState) (start : Nat) (posting : Posting) : Bool :=
  !(decide (start ≤ posting.nodeId) && docs.scorable posting.nodeId)

/-- The place of the first scorable posting from a node on. -/
def locate (docs : DocState) (start : Nat) : List (Chunk R) → Option (Cursor R)
  | [] => none
  | chunk :: rest =>
    match chunk.postings.dropWhile (before docs start) with
    | [] => locate docs start rest
    | posting :: window => some ⟨loadedChunk chunk, posting :: window, rest⟩

structure Sorted (chunks : List (Chunk R)) : Prop where
  nonempty : ∀ chunk ∈ chunks, chunk.postings ≠ []
  last : ∀ chunk ∈ chunks, (chunk.postings.getLast?.map Posting.nodeId) = some chunk.lastNodeId
  sorted : (chunks.flatMap Chunk.postings).Pairwise fun one other => one.nodeId < other.nodeId

theorem chunks_sorted (corpus : ScoringMeta R) (chain : PostingChain) :
    Sorted (chain.chunks corpus) := by
  have runs : (chain.chunks corpus).flatMap Chunk.postings = chain.runs.flatten := by
    have whole : Chunk.postings ∘ writePostingsChunk corpus = id := rfl
    simp [PostingChain.chunks, List.flatMap_def, whole]
  refine ⟨fun chunk member => ?_, fun chunk member => ?_, runs ▸ chain.sorted⟩
  · obtain ⟨run, inside, rfl⟩ := List.mem_map.mp member
    exact chain.nonempty run inside
  · obtain ⟨run, inside, rfl⟩ := List.mem_map.mp member
    have last := List.getLast?_eq_some_getLast (chain.nonempty run inside)
    simp [writePostingsChunk, last]

theorem Sorted.tail {chunk : Chunk R} {rest : List (Chunk R)} (sorted : Sorted (chunk :: rest)) :
    Sorted rest := by
  refine ⟨fun other member => sorted.nonempty other (List.mem_cons_of_mem _ member),
    fun other member => sorted.last other (List.mem_cons_of_mem _ member), ?_⟩
  have both := sorted.sorted
  rw [List.flatMap_cons, List.pairwise_append] at both
  exact both.2.1

theorem Sorted.head {chunk : Chunk R} {rest : List (Chunk R)} (sorted : Sorted (chunk :: rest)) :
    chunk.postings.Pairwise fun one other => one.nodeId < other.nodeId := by
  have both := sorted.sorted
  rw [List.flatMap_cons, List.pairwise_append] at both
  exact both.1

theorem Sorted.later {chunk : Chunk R} {rest : List (Chunk R)} (sorted : Sorted (chunk :: rest))
    {next : Chunk R} (member : next ∈ rest) {one other : Posting} (here : one ∈ chunk.postings)
    (there : other ∈ next.postings) : one.nodeId < other.nodeId := by
  have both := sorted.sorted
  rw [List.flatMap_cons, List.pairwise_append] at both
  exact both.2.2 one here other (List.mem_flatMap.mpr ⟨next, member, there⟩)

theorem Sorted.le_last {chunk : Chunk R} {rest : List (Chunk R)} (sorted : Sorted (chunk :: rest))
    {posting : Posting} (member : posting ∈ chunk.postings) :
    posting.nodeId ≤ chunk.lastNodeId := by
  have last := sorted.last chunk List.mem_cons_self
  obtain ⟨final, atEnd, id⟩ := Option.map_eq_some_iff.mp last
  obtain ⟨front, split⟩ := List.getLast?_eq_some_iff.mp atEnd
  have ordered := sorted.head
  rw [split, List.pairwise_append] at ordered
  rw [split] at member
  rcases List.mem_append.mp member with early | final'
  · exact id ▸ (ordered.2.2 posting early final (List.mem_singleton_self _)).le
  · exact id ▸ (List.mem_singleton.mp final' ▸ le_rfl)

theorem Sorted.last_mem {chunk : Chunk R} {rest : List (Chunk R)} (sorted : Sorted (chunk :: rest)) :
    ∃ posting ∈ chunk.postings, posting.nodeId = chunk.lastNodeId := by
  obtain ⟨final, atEnd, id⟩ := Option.map_eq_some_iff.mp (sorted.last chunk List.mem_cons_self)
  exact ⟨final, List.mem_of_getLast? atEnd, id⟩

/-! ### Skipping in a window -/

theorem dropWhile_congr {α : Type*} {items : List α} {skip skip' : α → Bool}
    (same : ∀ item ∈ items, skip item = skip' item) :
    items.dropWhile skip = items.dropWhile skip' := by
  induction items with
  | nil => rfl
  | cons head rest ih =>
    have rest' := ih fun item member => same item (List.mem_cons_of_mem _ member)
    simp only [List.dropWhile_cons, same head List.mem_cons_self, rest']

theorem dropWhile_dropWhile {α : Type*} {items : List α} {skip more : α → Bool}
    (absorbs : ∀ item ∈ items, skip item = true → more item = true) :
    (items.dropWhile skip).dropWhile more = items.dropWhile more := by
  induction items with
  | nil => rfl
  | cons head rest ih =>
    have rest' := ih fun item member => absorbs item (List.mem_cons_of_mem _ member)
    by_cases skipped : skip head = true
    · simp only [List.dropWhile_cons, skipped, if_true, absorbs head List.mem_cons_self skipped]
      exact rest'
    · simp only [List.dropWhile_cons, skipped, Bool.false_eq_true, if_false]

theorem before_mono {docs : DocState} {start target : Nat} (le : start ≤ target) {posting : Posting}
    (skipped : before docs start posting = true) : before docs target posting = true := by
  simp only [before, Bool.not_eq_true', Bool.and_eq_false_iff, decide_eq_false_iff_not] at skipped ⊢
  exact skipped.imp (fun early => by omega) id

theorem before_of_lt {docs : DocState} {target : Nat} {posting : Posting}
    (early : posting.nodeId < target) : before docs target posting = true := by
  simp [before, early]

theorem skipDead_seek (docs : DocState) (target : Nat) {window : List Posting}
    (sorted : window.Pairwise fun one other => one.nodeId < other.nodeId) :
    skipDead docs (window.dropWhile fun posting => posting.nodeId < target) =
      window.dropWhile (before docs target) := by
  induction window with
  | nil => rfl
  | cons head rest ih =>
    rw [List.pairwise_cons] at sorted
    by_cases early : head.nodeId < target
    · have skipped : before docs target head = true := before_of_lt early
      simp only [List.dropWhile_cons, early, decide_true, if_true, skipped]
      exact ih sorted.2
    · simp only [List.dropWhile_cons, early, decide_false, Bool.false_eq_true, if_false]
      refine (dropWhile_congr fun posting member => ?_).trans (List.dropWhile_cons ..)
      have late : target ≤ posting.nodeId := by
        rcases List.mem_cons.mp member with rfl | later
        · omega
        · have := sorted.1 posting later
          omega
      simp [before, late]

/-! ### Seeking goes to the place -/

theorem locate_cons (docs : DocState) (start : Nat) (chunk : Chunk R) (rest : List (Chunk R)) :
    locate docs start (chunk :: rest) =
      if (chunk.postings.dropWhile (before docs start)).isEmpty then locate docs start rest
      else some ⟨loadedChunk chunk, chunk.postings.dropWhile (before docs start), rest⟩ := by
  rw [locate]
  cases chunk.postings.dropWhile (before docs start) <;> rfl

theorem advanceValid_locate {docs : DocState} {target : Nat} {rest : List (Chunk R)}
    (sorted : Sorted rest) (ahead : ∀ chunk ∈ rest, ∀ posting ∈ chunk.postings,
      target ≤ posting.nodeId) (chunk : Chunk R) (window : List Posting) :
    iteratorAdvanceValid docs rest chunk window =
      if (skipDead docs window).isEmpty then locate docs target rest
      else some ⟨chunk, skipDead docs window, rest⟩ := by
  induction rest generalizing chunk window with
  | nil => rfl
  | cons next rest ih =>
    have nonempty : next.postings.isEmpty = false := by
      simpa using sorted.nonempty next List.mem_cons_self
    have same : skipDead docs next.postings = next.postings.dropWhile (before docs target) := by
      refine dropWhile_congr fun posting member => ?_
      simp [before, ahead next List.mem_cons_self posting member]
    rw [iteratorAdvanceValid, nonempty, locate_cons, ih sorted.tail (fun chunk member =>
      ahead chunk (List.mem_cons_of_mem _ member)), same]
    simp

theorem Sorted.dropWhile_passed {docs : DocState} {target : Nat} {chunk : Chunk R}
    {rest : List (Chunk R)} (sorted : Sorted (chunk :: rest)) (passed : chunk.lastNodeId < target) :
    chunk.postings.dropWhile (before docs target) = [] :=
  List.dropWhile_eq_nil_iff.mpr fun _ member =>
    before_of_lt ((sorted.le_last member).trans_lt passed)

/-- Seeking from a window that has lost only postings before the target finds the place. -/
theorem seekChunks_locate {docs : DocState} {target : Nat} {rest : List (Chunk R)}
    {chunk : Chunk R} (sorted : Sorted (chunk :: rest)) {window : List Posting}
    (ordered : window.Pairwise fun one other => one.nodeId < other.nodeId)
    (same : window.dropWhile (before docs target) =
      chunk.postings.dropWhile (before docs target)) :
    iteratorSeekChunks docs target rest (loadedChunk chunk) window =
      locate docs target (chunk :: rest) := by
  induction rest generalizing chunk window with
  | nil =>
    rw [iteratorSeekChunks, loadedChunk_lastNodeId, locate_cons]
    by_cases skip : chunk.lastNodeId < target
    · rw [if_pos skip, sorted.dropWhile_passed skip]
      rfl
    · have ahead : ∀ other ∈ ([] : List (Chunk R)), ∀ posting ∈ other.postings,
          target ≤ posting.nodeId := by simp
      rw [if_neg skip, advanceValid_locate sorted.tail ahead, skipDead_seek docs target ordered,
        same]
  | cons next rest ih =>
    rw [iteratorSeekChunks, loadedChunk_lastNodeId, locate_cons]
    have nonempty : next.postings.isEmpty = false := by
      simpa using sorted.tail.nonempty next List.mem_cons_self
    by_cases skip : chunk.lastNodeId < target
    · rw [if_pos skip, sorted.dropWhile_passed skip, nonempty]
      exact ih sorted.tail sorted.tail.head rfl
    · obtain ⟨final, member, id⟩ := sorted.last_mem
      have ahead : ∀ other ∈ next :: rest, ∀ posting ∈ other.postings,
          target ≤ posting.nodeId := by
        intro other inside posting there
        have := sorted.later inside member there
        omega
      rw [if_neg skip, advanceValid_locate sorted.tail ahead, skipDead_seek docs target ordered,
        same]

/-- **Seeking from the place of a node** goes to the place of the target. -/
theorem seekTo_locate {docs : DocState} {start target : Nat} (le : start ≤ target)
    {chunks : List (Chunk R)} (sorted : Sorted chunks) {cursor : Cursor R}
    (located : locate docs start chunks = some cursor) :
    iteratorSeekTo docs target cursor = locate docs target chunks := by
  induction chunks with
  | nil => cases located
  | cons chunk rest ih =>
    rw [locate_cons] at located
    by_cases empty : (chunk.postings.dropWhile (before docs start)).isEmpty = true
    · rw [if_pos empty] at located
      have passed : chunk.postings.dropWhile (before docs target) = [] := by
        rw [List.isEmpty_iff, List.dropWhile_eq_nil_iff] at empty
        exact List.dropWhile_eq_nil_iff.mpr fun posting member =>
          before_mono le (empty posting member)
      rw [ih sorted.tail located, locate_cons, passed]
      rfl
    · rw [if_neg empty, Option.some.injEq] at located
      subst located
      exact seekChunks_locate sorted (sorted.head.sublist (List.dropWhile_sublist _))
        (dropWhile_dropWhile fun _ _ => before_mono le)

/-- **A fresh iterator** stands at the place of node zero. -/
theorem init_locate (docs : DocState) {chunks : List (Chunk R)} (sorted : Sorted chunks) :
    iteratorInit docs chunks = locate docs 0 chunks := by
  cases chunks with
  | nil => rfl
  | cons chunk rest =>
    have nonempty : chunk.postings.isEmpty = false := by
      simpa using sorted.nonempty chunk List.mem_cons_self
    have same : skipDead docs chunk.postings = chunk.postings.dropWhile (before docs 0) :=
      dropWhile_congr fun posting _ => by simp [before]
    rw [iteratorInit, iteratorLoadChunk, nonempty, locate_cons, ← same]
    exact advanceValid_locate sorted.tail (fun _ _ _ _ => Nat.zero_le _) _ _

/-- Where a cursor found for a node stands in its chain. -/
structure Located (docs : DocState) (start : Nat) (chunks : List (Chunk R)) (cursor : Cursor R) :
    Prop where
  split : ∃ passed chunk, chunks = passed ++ chunk :: cursor.rest ∧
    cursor.chunk = loadedChunk chunk ∧ cursor.window ⊆ chunk.postings ∧
    ∀ other ∈ passed, ∀ posting ∈ other.postings, before docs start posting = true
  head : ∃ posting window, cursor.window = posting :: window ∧
    before docs start posting = false ∧
    ∀ other ∈ chunks.flatMap Chunk.postings, before docs start other = false →
      posting.nodeId ≤ other.nodeId

theorem before_of_dropWhile {docs : DocState} {start : Nat} {postings : List Posting}
    {posting : Posting} {window : List Posting}
    (dropped : postings.dropWhile (before docs start) = posting :: window) :
    before docs start posting = false := by
  have kept := List.head_dropWhile_not (before docs start) (l := postings) (by simp [dropped])
  simpa [dropped] using kept

theorem le_of_dropWhile {docs : DocState} {start : Nat} {postings : List Posting}
    (sorted : postings.Pairwise fun one other => one.nodeId < other.nodeId) {posting : Posting}
    {window : List Posting} (dropped : postings.dropWhile (before docs start) = posting :: window)
    {other : Posting} (member : other ∈ postings) (kept : before docs start other = false) :
    posting.nodeId ≤ other.nodeId := by
  rw [← List.takeWhile_append_dropWhile (p := before docs start) (l := postings)] at member sorted
  rcases List.mem_append.mp member with early | late
  · rw [List.mem_takeWhile_imp early] at kept
    cases kept
  · rw [dropped] at late sorted
    rcases List.mem_cons.mp late with rfl | later
    · exact le_rfl
    · exact ((List.pairwise_cons.mp (List.pairwise_append.mp sorted).2.1).1 other later).le

theorem locate_spec {docs : DocState} {start : Nat} {chunks : List (Chunk R)}
    (sorted : Sorted chunks) {cursor : Cursor R} (located : locate docs start chunks = some cursor) :
    Located docs start chunks cursor := by
  induction chunks with
  | nil => cases located
  | cons chunk rest ih =>
    rw [locate_cons] at located
    by_cases empty : (chunk.postings.dropWhile (before docs start)).isEmpty = true
    · rw [if_pos empty] at located
      rw [List.isEmpty_iff, List.dropWhile_eq_nil_iff] at empty
      obtain ⟨⟨passed, here, split, header, within, skipped⟩, posting, window, atHead, kept, least⟩ :=
        ih sorted.tail located
      refine ⟨⟨chunk :: passed, here, by simp [split], header, within, fun other member => ?_⟩,
        posting, window, atHead, kept, fun other member later => ?_⟩
      · rcases List.mem_cons.mp member with rfl | old
        · exact empty
        · exact skipped other old
      · rw [List.flatMap_cons, List.mem_append] at member
        rcases member with inHead | inRest
        · rw [empty other inHead] at later
          cases later
        · exact least other inRest later
    · rw [if_neg empty, Option.some.injEq] at located
      subst located
      obtain ⟨posting, window, dropped⟩ := List.exists_cons_of_ne_nil
        (fun none => empty (List.isEmpty_iff.mpr none))
      refine ⟨⟨[], chunk, rfl, rfl, List.dropWhile_subset _, by simp⟩, posting, window, dropped,
        before_of_dropWhile dropped, fun other member later => ?_⟩
      rw [List.flatMap_cons, List.mem_append] at member
      rcases member with inHead | inRest
      · exact le_of_dropWhile sorted.head dropped inHead later
      · obtain ⟨next, inside, there⟩ := List.mem_flatMap.mp inRest
        have here : posting ∈ chunk.postings :=
          List.dropWhile_subset _ (dropped ▸ List.mem_cons_self)
        exact (sorted.later inside here there).le

theorem locate_none {docs : DocState} {start : Nat} {chunks : List (Chunk R)} :
    locate docs start chunks = none ↔
      ∀ posting ∈ chunks.flatMap Chunk.postings, before docs start posting = true := by
  induction chunks with
  | nil => simp [locate]
  | cons chunk rest ih =>
    rw [locate_cons, List.flatMap_cons]
    by_cases empty : (chunk.postings.dropWhile (before docs start)).isEmpty = true
    · rw [if_pos empty, ih]
      rw [List.isEmpty_iff, List.dropWhile_eq_nil_iff] at empty
      simp only [List.mem_append, or_imp, forall_and]
      exact ⟨fun later => ⟨empty, later⟩, And.right⟩
    · rw [if_neg empty]
      refine iff_of_false (by simp) fun every => empty ?_
      rw [List.isEmpty_iff, List.dropWhile_eq_nil_iff]
      exact fun posting member => every posting (List.mem_append_left _ member)

theorem locate_stable {docs : DocState} {start target : Nat} (le : start ≤ target)
    {chunks : List (Chunk R)}
    (past : ∀ cursor, locate docs start chunks = some cursor → target ≤ cursorNodeId cursor) :
    locate docs target chunks = locate docs start chunks := by
  induction chunks with
  | nil => rfl
  | cons chunk rest ih =>
    rw [locate_cons] at past ⊢
    rw [locate_cons]
    by_cases empty : (chunk.postings.dropWhile (before docs start)).isEmpty = true
    · simp only [if_pos empty] at past ⊢
      rw [List.isEmpty_iff, List.dropWhile_eq_nil_iff] at empty
      have passed : chunk.postings.dropWhile (before docs target) = [] :=
        List.dropWhile_eq_nil_iff.mpr fun posting member => before_mono le (empty posting member)
      rw [passed]
      exact ih past
    · simp only [if_neg empty] at past ⊢
      obtain ⟨posting, window, dropped⟩ := List.exists_cons_of_ne_nil
        (fun none => empty (List.isEmpty_iff.mpr none))
      have here := past _ rfl
      rw [dropped] at here
      have kept := before_of_dropWhile dropped
      have same : chunk.postings.dropWhile (before docs target) =
          chunk.postings.dropWhile (before docs start) := by
        have absorbs : ∀ item ∈ chunk.postings, before docs start item = true →
            before docs target item = true := fun _ _ => before_mono le
        rw [← dropWhile_dropWhile absorbs, dropped]
        refine List.dropWhile_cons_of_neg ?_
        simp only [before, Bool.not_eq_false', Bool.and_eq_true] at kept
        simp only [cursorNodeId] at here
        simp [before, kept.2, here]
      rw [same, if_neg empty]

end TurboHybrid.Scan
