/-
**Quantized posting lists while a corpus streams in.**

A build that keeps the vectors of its documents makes the posting lists at its end: it counts the
postings of every codeword, then fills one array. A build that keeps no vectors appends the postings
of each document to growing lists as the document comes.

* `streamed_lists`: what the growing lists hold;
* `batchLists_eq`: what the filled array holds, wherever its limits let the build go on;
* `streamed_eq_batch`: a streamed build writes the posting lists of the other one.
-/
import TurboHybrid.Library.CountingSort
import TurboHybrid.MultiVector.DocMapWriter

namespace TurboHybrid.DocMap

open TurboHybrid.Library

variable {F H Q : Type} {format : FloatFormat F H Q} {dimensions : Nat}
variable (encoders : DocMapEncoders format dimensions) (options : DocMapOptions F)

/-! ### Limits and codebooks -/

def pgUInt32Max : Nat := 4294967295

def maxAllocSize : Nat := 1073741823

/-- How many posting entries of eight bytes one allocation takes. -/
def maxPostings : Nat := maxAllocSize / 8

variable (dimensions) in
def codebookSizeOf (external : Option (ExternalCodebook F)) : Nat :=
  match external with
  | none => dimensions * 2
  | some codebook => codebook.codebookSize

def topMOf (external : Option (ExternalCodebook F)) : Nat :=
  match external with
  | none => 1
  | some codebook => codebook.topM

def assignedNothing : String := "quantized_inverted_experimental build assigned no codeword"

def assignedOutOfRange : String :=
  "quantized_inverted_experimental build assigned an out-of-range codeword"

def sidecarTooLarge : String := "pgturbohybrid quantized inverted sidecar is too large"

def postingEntry (external : Option (ExternalCodebook F)) (docId : Nat) (values : List F)
    (token codeword : Nat) : PostingEntry :=
  ⟨docId, token % 65536, buildQuantizedPayload encoders external values token codeword⟩

/-! ### The streamed build -/

structure BuildPostingList where
  postings : List PostingEntry
  capacity : Nat

/-- The lists while the corpus is scanned; a codebook size of zero is not yet known. -/
structure PostingBuild where
  codebookSize : Nat
  allocated : Bool
  lists : Nat → BuildPostingList
  postingCount : Nat

def PostingBuild.empty : PostingBuild := ⟨0, false, fun _ => ⟨[], 0⟩, 0⟩

/-- The loop that doubles a capacity until there is room for one more. -/
def grownCapacity : Nat → Nat → Nat → Nat
  | 0, newCapacity, _ => newCapacity
  | fuel + 1, newCapacity, count =>
    if count < newCapacity then newCapacity
    else if pgUInt32Max / 2 < newCapacity then count + 1
    else grownCapacity fuel (newCapacity * 2) count

def BuildPostingList.grow (list : BuildPostingList) : Except String BuildPostingList :=
  if list.postings.length < list.capacity then .ok list
  else
    let newCapacity :=
      grownCapacity 33 (if list.capacity = 0 then 1024 else list.capacity) list.postings.length
    if maxPostings < newCapacity then
      .error "pgturbohybrid quantized inverted posting list is too large"
    else .ok { list with capacity := newCapacity }

def appendPosting (codebookSize : Nat) (entryOf : Nat → PostingEntry) (build : PostingBuild)
    (codeword : Nat) : Except String PostingBuild :=
  if codebookSize ≤ codeword then .error assignedOutOfRange
  else do
    let list ← (build.lists codeword).grow
    return { build with
      lists := Function.update build.lists codeword
        { list with postings := list.postings ++ [entryOf codeword] }
      postingCount := build.postingCount + 1 }

/-- The codewords that a streamed build gives a token. -/
def streamedCodewords (external : Option (ExternalCodebook F)) (values : List F) (token : Nat) :
    List Nat :=
  match external with
  | none => [insertCodeword (encoders.vectorOf values token)]
  | some _ => configurableCodewords encoders external values token

def appendToken (external : Option (ExternalCodebook F)) (docId : Nat) (values : List F)
    (build : PostingBuild) (token : Nat) : Except String PostingBuild :=
  if streamedCodewords encoders external values token = [] then .error assignedNothing
  else
    (streamedCodewords encoders external values token).foldlM
      (appendPosting (codebookSizeOf dimensions external)
        (postingEntry encoders external docId values token)) build

/-- **`PgturbohybridGraphAppendMultiVectorQuantizedInvertedBuildPostings`**. -/
def appendBuildPostings (build : PostingBuild) (entry : Nat × Document format dimensions) :
    Except String PostingBuild :=
  let codebookSize := codebookSizeOf dimensions options.externalCodebook
  if options.storesQuantizedInvertedPostings = false ∨ options.storesDocVectors = true ∨
      entry.2.tokenCount = 0 then .ok build
  else if build.codebookSize ≠ 0 ∧ build.codebookSize ≠ codebookSize then
    .error "quantized_inverted_experimental build codebook size changed during index build"
  else if pgUInt32Max <
      build.postingCount + entry.2.tokenCount * topMOf options.externalCodebook then
    .error sidecarTooLarge
  else if build.allocated = false ∧ maxAllocSize / 16 < codebookSize then .error sidecarTooLarge
  else
    (List.range entry.2.tokenCount).foldlM
      (appendToken encoders options.externalCodebook entry.1 entry.2.values)
      { build with codebookSize := codebookSize, allocated := true }

/-! ### The batch build -/

structure PostingCounts where
  listCounts : Nat → Nat
  totalPostings : Nat

def countPosting (codebookSize : Nat) (counts : PostingCounts) (codeword : Nat) :
    Except String PostingCounts :=
  if codebookSize ≤ codeword then .error assignedOutOfRange
  else .ok
    { listCounts := Function.update counts.listCounts codeword (counts.listCounts codeword + 1)
      totalPostings := counts.totalPostings + 1 }

def countToken (external : Option (ExternalCodebook F)) (values : List F) (counts : PostingCounts)
    (token : Nat) : Except String PostingCounts :=
  if configurableCodewords encoders external values token = [] then .error assignedNothing
  else
    (configurableCodewords encoders external values token).foldlM
      (countPosting (codebookSizeOf dimensions external)) counts

def countDocument (external : Option (ExternalCodebook F)) (counts : PostingCounts)
    (doc : Document format dimensions) : Except String PostingCounts :=
  if pgUInt32Max < counts.totalPostings + doc.tokenCount * topMOf external then
    .error sidecarTooLarge
  else (List.range doc.tokenCount).foldlM (countToken encoders external doc.values) counts

def fillPosting (codebookSize : Nat) (entryOf : Nat → PostingEntry)
    (placement : Placement PostingEntry) (codeword : Nat) :
    Except String (Placement PostingEntry) :=
  if codebookSize ≤ codeword then .error assignedOutOfRange
  else .ok (placement.place (codeword, entryOf codeword))

def fillToken (external : Option (ExternalCodebook F)) (docId : Nat) (values : List F)
    (placement : Placement PostingEntry) (token : Nat) :
    Except String (Placement PostingEntry) :=
  if configurableCodewords encoders external values token = [] then .error assignedNothing
  else
    (configurableCodewords encoders external values token).foldlM
      (fillPosting (codebookSizeOf dimensions external)
        (postingEntry encoders external docId values token)) placement

def fillDocument (external : Option (ExternalCodebook F)) (placement : Placement PostingEntry)
    (entry : Nat × Document format dimensions) : Except String (Placement PostingEntry) :=
  (List.range entry.2.tokenCount).foldlM
    (fillToken encoders external entry.1 entry.2.values) placement

variable (dimensions) in
def sortedLists (external : Option (ExternalCodebook F)) (counts : PostingCounts)
    (filled : Placement PostingEntry) (codeword : Nat) : List PostingEntry :=
  segment (sortAll (sortPostings (quantizedKey external)) counts.listCounts
      (codebookSizeOf dimensions external) filled.cells)
    (listStart counts.listCounts codeword) (counts.listCounts codeword)

def batchLists (external : Option (ExternalCodebook F))
    (docs : List (Document format dimensions)) : Except String (Nat → List PostingEntry) := do
  let counts ← docs.foldlM (countDocument encoders external) ⟨fun _ => 0, 0⟩
  if maxPostings < counts.totalPostings then .error sidecarTooLarge
  else
    let filled ← (numbered 0 docs).foldlM (fillDocument encoders external)
      ⟨listStart counts.listCounts, fun _ => ⟨0, 0, 0⟩⟩
    return sortedLists dimensions external counts filled

/-! ### Writing the lists -/

def streamedLists (external : Option (ExternalCodebook F)) (build : PostingBuild) :
    Except String (Nat → List PostingEntry) :=
  if maxPostings < build.postingCount then .error sidecarTooLarge
  else .ok fun codeword =>
    sortList (sortPostings (quantizedKey external)) (build.lists codeword).postings

variable (dimensions) in
/-- The codebook and the lists, codeword by codeword. -/
def postingSection (lists : Nat → List PostingEntry) : List (DocMapTuple F H Q) :=
  .quantizedCodebook (buildCodebook dimensions options) ::
    (List.range (codebookSizeOf dimensions options.externalCodebook)).flatMap fun codeword =>
      (placed 0 (chunks postingTupleMaxCount (lists codeword))).map fun part =>
        .quantizedPosting codeword part.1 part.2

/-- `PgturbohybridGraphWriteMultiVectorQuantizedInvertedPostingTuples`. -/
def writePostingTuples (docs : List (Document format dimensions)) (build : PostingBuild) :
    Except String (List (DocMapTuple F H Q)) :=
  if options.documentNodes = false then .ok []
  else if build.allocated = true ∧ 0 < build.postingCount then
    (streamedLists options.externalCodebook build).map
      (postingSection dimensions options)
  else if options.storesDocVectors = false then .ok []
  else
    (batchLists encoders options.externalCodebook docs).map
      (postingSection dimensions options)

/-- **The quantized postings of a build**: what the documents leave, then what is written. -/
def buildPostings (docs : List (Document format dimensions)) :
    Except String (List (DocMapTuple F H Q)) := do
  let build ← (numbered 0 docs).foldlM (appendBuildPostings encoders options) PostingBuild.empty
  if options.storesQuantizedInvertedPostings then writePostingTuples encoders options docs build
  else return []

/-! ### The codewords of a token -/

section Codewords

variable {encoders}

theorem configurableCodewords_ne_nil (codebook : ExternalCodebook F) (values : List F)
    (token : Nat) : configurableCodewords encoders (some codebook) values token ≠ [] := by
  intro empty
  have length := congrArg List.length empty
  have sized := codebook.sized
  have positive := codebook.topMPositive
  rw [configurableCodewords, length_selectCodewords, List.length_map, List.length_range,
    List.length_nil] at length
  omega

theorem lt_of_mem_configurableCodewords {codebook : ExternalCodebook F} {values : List F}
    {token codeword : Nat}
    (member : codeword ∈ configurableCodewords encoders (some codebook) values token) :
    codeword < codebookSizeOf dimensions (some codebook) := by
  obtain ⟨candidate, offered, rfl⟩ := mem_selectCodewords member
  obtain ⟨index, within, rfl⟩ := List.mem_map.mp offered
  exact List.mem_range.mp within

end Codewords

def tokenPostings (external : Option (ExternalCodebook F)) (docId : Nat) (values : List F)
    (token : Nat) : List (Nat × PostingEntry) :=
  (configurableCodewords encoders external values token).map fun codeword =>
    (codeword, postingEntry encoders external docId values token codeword)

theorem flatMap_tokenPostings (external : Option (ExternalCodebook F)) (docId : Nat)
    (doc : Document format dimensions) :
    (List.range doc.tokenCount).flatMap (tokenPostings encoders external docId doc.values) =
      quantizedPostings encoders external docId doc := by
  have bounded := doc.bounded
  refine List.flatMap_congr fun token member => List.map_congr_left fun codeword _ => ?_
  have below := List.mem_range.mp member
  rw [postingEntry, Nat.mod_eq_of_lt (by omega)]

/-- The postings of documents numbered from some number on, in the order of the scan. -/
def postingLog (external : Option (ExternalCodebook F)) (first : Nat)
    (docs : List (Document format dimensions)) : List (Nat × PostingEntry) :=
  (numbered first docs).flatMap fun entry => quantizedPostings encoders external entry.1 entry.2

/-! ### The batch lists -/

section Batch

variable {encoders} {codebook : ExternalCodebook F}

def countsOf (log : List (Nat × PostingEntry)) : PostingCounts :=
  ⟨fun codeword => (valuesAt log codeword).length, log.length⟩

theorem countPosting_eq {codebookSize codeword : Nat} (below : codeword < codebookSize)
    (entry : PostingEntry) (taken : List (Nat × PostingEntry)) :
    countPosting codebookSize (countsOf taken) codeword =
      .ok (countsOf (taken ++ [(codeword, entry)])) := by
  rw [countPosting, if_neg (Nat.not_le.mpr below)]
  refine congrArg Except.ok (PostingCounts.mk.injEq .. |>.mpr ⟨?_, ?_⟩)
  · funext other
    rw [valuesAt_snoc]
    by_cases same : codeword = other
    · subst same
      rw [if_pos rfl, List.length_append, List.length_singleton]
      exact Function.update_self ..
    · rw [if_neg same]
      exact Function.update_of_ne (Ne.symm same) _ _
  · rw [List.length_append, List.length_singleton]
    rfl

theorem countToken_eq (docId : Nat) (values : List F) (token : Nat)
    (taken : List (Nat × PostingEntry)) :
    countToken encoders (some codebook) values (countsOf taken) token =
      .ok (countsOf (taken ++ tokenPostings encoders (some codebook) docId values token)) := by
  rw [countToken, if_neg (configurableCodewords_ne_nil codebook values token),
    foldlM_grows countsOf (fun codeword =>
      [(codeword, postingEntry encoders (some codebook) docId values token codeword)])
      (fun codeword member taken => countPosting_eq (lt_of_mem_configurableCodewords member) _ _),
    ← List.map_eq_flatMap]
  rfl

theorem countDocument_eq (docId : Nat) (doc : Document format dimensions)
    (taken : List (Nat × PostingEntry))
    (fits : taken.length + doc.tokenCount * codebook.topM ≤ pgUInt32Max) :
    countDocument encoders (some codebook) (countsOf taken) doc =
      .ok (countsOf (taken ++ quantizedPostings encoders (some codebook) docId doc)) := by
  have within : ¬pgUInt32Max < (countsOf taken).totalPostings +
      doc.tokenCount * topMOf (some codebook) := Nat.not_lt.mpr fits
  rw [countDocument, if_neg within, ← flatMap_tokenPostings]
  exact foldlM_grows countsOf _ (fun token _ taken => countToken_eq docId doc.values token taken) _

theorem fillToken_eq (first : Placement PostingEntry) (docId : Nat) (values : List F) (token : Nat)
    (taken : List (Nat × PostingEntry)) :
    fillToken encoders (some codebook) docId values (taken.foldl Placement.place first) token =
      .ok ((taken ++ tokenPostings encoders (some codebook) docId values token).foldl
        Placement.place first) := by
  rw [fillToken, if_neg (configurableCodewords_ne_nil codebook values token),
    foldlM_grows (fun log => log.foldl Placement.place first) (fun codeword =>
      [(codeword, postingEntry encoders (some codebook) docId values token codeword)])
      (fun codeword member taken => ?_), ← List.map_eq_flatMap]
  · rfl
  · rw [fillPosting, if_neg (Nat.not_le.mpr (lt_of_mem_configurableCodewords member)),
      List.foldl_append]
    rfl

theorem fill_eq (first : Placement PostingEntry) (docs : List (Document format dimensions)) :
    (numbered 0 docs).foldlM (fillDocument encoders (some codebook)) first =
      .ok ((postingLog encoders (some codebook) 0 docs).foldl Placement.place first) := by
  have step (entry : Nat × Document format dimensions) (taken : List (Nat × PostingEntry)) :
      fillDocument encoders (some codebook) (taken.foldl Placement.place first) entry =
        .ok ((taken ++ quantizedPostings encoders (some codebook) entry.1 entry.2).foldl
          Placement.place first) := by
    rw [fillDocument, ← flatMap_tokenPostings]
    exact foldlM_grows (fun log => log.foldl Placement.place first) _
      (fun token _ taken => fillToken_eq first entry.1 entry.2.values token taken) _
  exact foldlM_grows (fun log => log.foldl Placement.place first) _
    (fun entry _ taken => step entry taken) []

theorem sortPostings_short (key : Nat → Int) :
    sortList (sortPostings key) = sortPostings key := by
  funext entries
  unfold sortList
  split_ifs with several
  · rfl
  · rcases entries with _ | ⟨entry, rest⟩
    · rw [sortPostings, List.mergeSort_nil]
    · have alone : rest = [] := by
        rw [List.length_cons] at several
        exact List.eq_nil_of_length_eq_zero (by omega)
      rw [alone, sortPostings, List.mergeSort_singleton]

theorem length_sortPostings (key : Nat → Int) (entries : List PostingEntry) :
    (sortPostings key entries).length = entries.length := List.length_mergeSort _

/-- **The lists of a batch build**, where the postings fit its limits. -/
theorem batchLists_eq {docs : List (Document format dimensions)}
    (counted : docs.foldlM (countDocument encoders (some codebook)) (countsOf []) =
      .ok (countsOf (postingLog encoders (some codebook) 0 docs)))
    (fits : (postingLog encoders (some codebook) 0 docs).length ≤ maxPostings) :
    ∃ lists, batchLists encoders (some codebook) docs = .ok lists ∧
      ∀ codeword < codebookSizeOf dimensions (some codebook), lists codeword =
        sortPostings (quantizedKey (some codebook))
          (valuesAt (postingLog encoders (some codebook) 0 docs) codeword) := by
  have within : ¬maxPostings <
      (countsOf (postingLog encoders (some codebook) 0 docs)).totalPostings :=
    Nat.not_lt.mpr fits
  refine ⟨sortedLists dimensions (some codebook)
    (countsOf (postingLog encoders (some codebook) 0 docs))
    ((postingLog encoders (some codebook) 0 docs).foldl Placement.place
      ⟨listStart (countsOf (postingLog encoders (some codebook) 0 docs)).listCounts,
        fun _ => ⟨0, 0, 0⟩⟩), ?_, fun codeword below => ?_⟩
  · unfold batchLists
    rw [show (⟨fun _ => 0, 0⟩ : PostingCounts) = countsOf [] from rfl, counted]
    refine (if_neg within).trans ?_
    rw [fill_eq]
    rfl
  · have placed := placed_all (countsOf (postingLog encoders (some codebook) 0
      docs)).listCounts (fun _ => rfl) (fun _ => (⟨0, 0, 0⟩ : PostingEntry))
    rw [sortedLists, segment_sortAll (length_sortPostings _), if_pos below, sortPostings_short,
      segment_placed placed rfl]

end Batch

/-! ### The streamed lists -/

section Streamed

variable {encoders} {codebook : ExternalCodebook F}

structure Streamed (taken : List (Nat × PostingEntry)) (build : PostingBuild) : Prop where
  lists : ∀ codeword, (build.lists codeword).postings = valuesAt taken codeword
  postingCount : build.postingCount = taken.length
  allocated : taken ≠ [] → build.allocated = true

theorem grow_postings {list grown : BuildPostingList} (done : list.grow = .ok grown) :
    grown.postings = list.postings := by
  unfold BuildPostingList.grow at done
  by_cases room : list.postings.length < list.capacity
  · rw [if_pos room] at done
    rw [← Except.ok.inj done]
  · rw [if_neg room] at done
    dsimp only at done
    generalize grownCapacity 33 _ _ = newCapacity at done
    split_ifs at done
    rw [← Except.ok.inj done]

theorem appendPosting_streamed {codebookSize codeword : Nat} {entryOf : Nat → PostingEntry}
    {taken : List (Nat × PostingEntry)} {build next : PostingBuild}
    (streamed : Streamed taken build) (allocated : build.allocated = true)
    (done : appendPosting codebookSize entryOf build codeword = .ok next) :
    Streamed (taken ++ [(codeword, entryOf codeword)]) next ∧ next.allocated = true := by
  unfold appendPosting at done
  split_ifs at done
  obtain ⟨list, grown, done⟩ := bind_ok done
  have same := grow_postings grown
  rw [← Except.ok.inj done]
  refine ⟨⟨fun other => ?_, ?_, fun _ => allocated⟩, allocated⟩
  · rw [valuesAt_snoc]
    by_cases here : codeword = other
    · subst here
      rw [if_pos rfl, ← streamed.lists, ← same]
      dsimp only
      rw [Function.update_self]
    · rw [if_neg here, ← streamed.lists]
      dsimp only
      rw [Function.update_of_ne (Ne.symm here)]
  · rw [List.length_append, List.length_singleton, ← streamed.postingCount]

theorem appendToken_streamed {docId token : Nat} {values : List F}
    {taken : List (Nat × PostingEntry)} {build next : PostingBuild}
    (streamed : Streamed taken build) (allocated : build.allocated = true)
    (done : appendToken encoders (some codebook) docId values build token = .ok next) :
    Streamed (taken ++ tokenPostings encoders (some codebook) docId values token) next ∧
      next.allocated = true := by
  unfold appendToken at done
  split_ifs at done
  have run := @foldlM_invariant String PostingBuild Nat _ (fun codewords state =>
      Streamed (taken ++ codewords.map fun codeword =>
        (codeword, postingEntry encoders (some codebook) docId values token codeword)) state ∧
      state.allocated = true)
    (fun invariant step => by
      rw [List.map_append, List.map_singleton, ← List.append_assoc]
      exact appendPosting_streamed invariant.1 invariant.2 step)
    _ [] _ _ ⟨by rwa [List.map_nil, List.append_nil], allocated⟩ done
  exact run

theorem appendBuildPostings_streamed {streaming : DocMapOptions F}
    (external : streaming.externalCodebook = some codebook)
    (stores : streaming.storesQuantizedInvertedPostings = true)
    (streams : streaming.storesDocVectors = false) {docId : Nat}
    {doc : Document format dimensions} {taken : List (Nat × PostingEntry)}
    {build next : PostingBuild} (streamed : Streamed taken build)
    (done : appendBuildPostings encoders streaming build (docId, doc) = .ok next) :
    Streamed (taken ++ quantizedPostings encoders (some codebook) docId doc) next ∧
      countDocument encoders (some codebook) (countsOf taken) doc =
        .ok (countsOf (taken ++ quantizedPostings encoders (some codebook) docId doc)) := by
  have positive := doc.positive
  unfold appendBuildPostings at done
  dsimp only at done
  rw [external, if_neg (by rw [stores, streams]; simp; omega)] at done
  split_ifs at done with size fits room
  have counted : countDocument encoders (some codebook) (countsOf taken) doc = _ :=
    countDocument_eq docId doc taken (by rw [← streamed.postingCount]; exact Nat.not_lt.mp fits)
  refine ⟨?_, counted⟩
  have run := @foldlM_invariant String PostingBuild Nat _ (fun tokens state =>
      Streamed (taken ++ tokens.flatMap
        (tokenPostings encoders (some codebook) docId doc.values)) state ∧
      state.allocated = true)
    (fun invariant step => by
      rw [List.flatMap_append, List.flatMap_singleton, ← List.append_assoc]
      exact appendToken_streamed invariant.1 invariant.2 step)
    _ [] _ _ ⟨⟨fun codeword => ?_, ?_, fun _ => rfl⟩, rfl⟩ done
  · rw [← flatMap_tokenPostings]
    exact run.1
  · rw [List.flatMap_nil, List.append_nil]
    exact streamed.lists codeword
  · rw [List.flatMap_nil, List.append_nil]
    exact streamed.postingCount

/-- **The growing lists** after the scan: they hold the postings of the corpus. -/
theorem streamed_lists {streaming : DocMapOptions F}
    (external : streaming.externalCodebook = some codebook)
    (stores : streaming.storesQuantizedInvertedPostings = true)
    (streams : streaming.storesDocVectors = false) {docs : List (Document format dimensions)}
    {first : Nat} {taken : List (Nat × PostingEntry)} {build final : PostingBuild}
    (streamed : Streamed taken build)
    (done : (numbered first docs).foldlM (appendBuildPostings encoders streaming) build =
      .ok final) :
    Streamed (taken ++ postingLog encoders (some codebook) first docs) final ∧
      docs.foldlM (countDocument encoders (some codebook)) (countsOf taken) =
        .ok (countsOf (taken ++ postingLog encoders (some codebook) first docs)) := by
  induction docs generalizing first taken build with
  | nil =>
    rw [← Except.ok.inj done]
    unfold postingLog
    rw [numbered_nil, List.flatMap_nil, List.append_nil]
    exact ⟨streamed, rfl⟩
  | cons doc rest ih =>
    rw [numbered_cons, List.foldlM_cons] at done
    obtain ⟨next, step, later⟩ := bind_ok done
    obtain ⟨grown, counted⟩ := appendBuildPostings_streamed external stores streams streamed step
    have result := ih grown later
    unfold postingLog at result ⊢
    rw [numbered_cons, List.flatMap_cons, ← List.append_assoc, List.foldlM_cons, counted]
    exact result

end Streamed

/-! ### The two builds -/

section Builds

variable {encoders} {codebook : ExternalCodebook F} {options}

/-- The posting lists among the tuples of a section. -/
def quantizedLists (tuples : List (DocMapTuple F H Q)) : List (Nat × Nat × List PostingEntry) :=
  tuples.filterMap fun tuple =>
    match tuple with
    | .quantizedPosting codeword startOffset entries => some (codeword, startOffset, entries)
    | _ => none

theorem postingSection_eq {docs : List (Document format dimensions)}
    {lists : Nat → List PostingEntry}
    (same : ∀ codeword < codebookSizeOf dimensions options.externalCodebook, lists codeword =
      sortPostings (quantizedKey options.externalCodebook)
        (valuesAt (postingLog encoders options.externalCodebook 0 docs) codeword)) :
    (postingSection dimensions options lists : List (DocMapTuple F H Q)) =
      quantizedSectionTuples encoders options docs := by
  have size : (buildCodebook dimensions options).codebookSize =
      codebookSizeOf dimensions options.externalCodebook := by
    unfold buildCodebook codebookSizeOf
    cases options.externalCodebook <;> rfl
  unfold postingSection quantizedSectionTuples postingTuples
  rw [size]
  refine congrArg _ (List.flatMap_congr fun codeword member => ?_)
  rw [same codeword (List.mem_range.mp member)]
  rfl

theorem postingLog_ne_nil {docs : List (Document format dimensions)} (nonempty : docs ≠ []) :
    postingLog encoders (some codebook) 0 docs ≠ [] := by
  obtain ⟨doc, rest, rfl⟩ := List.exists_cons_of_ne_nil nonempty
  have several : configurableCodewords encoders (some codebook) doc.values 0 ≠ [] :=
    configurableCodewords_ne_nil codebook doc.values 0
  obtain ⟨codeword, others, assigned⟩ := List.exists_cons_of_ne_nil several
  have first : (codeword, postingEntry encoders (some codebook) 0 doc.values 0 codeword) ∈
      tokenPostings encoders (some codebook) 0 doc.values 0 := by
    rw [tokenPostings, assigned]
    exact List.mem_cons_self
  have listed : (codeword, postingEntry encoders (some codebook) 0 doc.values 0 codeword) ∈
      quantizedPostings encoders (some codebook) 0 doc := by
    rw [← flatMap_tokenPostings]
    exact List.mem_flatMap.mpr ⟨0, List.mem_range.mpr doc.positive, first⟩
  refine List.ne_nil_of_mem (List.mem_flatMap.mpr ⟨(0, doc), ?_, listed⟩)
  exact List.mem_cons_self

theorem stores_of_keeps (keeps : options.storesDocVectors = true) :
    options.storesQuantizedInvertedPostings = true := by
  unfold DocMapOptions.storesQuantizedInvertedPostings
  rw [if_neg, if_pos keeps]
  unfold DocMapOptions.storesDocVectors at keeps
  revert keeps
  cases options.documentNodes <;> cases options.docStorage <;> decide

theorem streamedTuples_eq (external : options.externalCodebook = some codebook)
    (stores : options.storesQuantizedInvertedPostings = true)
    (streams : options.storesDocVectors = false) {docs : List (Document format dimensions)}
    {tuples : List (DocMapTuple F H Q)}
    (built : buildPostings encoders options docs = .ok tuples) :
    (docs = [] ∧ tuples = [] ∨ tuples = quantizedSectionTuples encoders options docs) ∧
      docs.foldlM (countDocument encoders (some codebook)) (countsOf []) =
        .ok (countsOf (postingLog encoders (some codebook) 0 docs)) ∧
      (postingLog encoders (some codebook) 0 docs).length ≤ maxPostings := by
  unfold buildPostings at built
  obtain ⟨build, scanned, written⟩ := bind_ok built
  rw [if_pos stores] at written
  have started : Streamed [] PostingBuild.empty :=
    ⟨fun _ => rfl, rfl, fun absurd_ => absurd rfl absurd_⟩
  obtain ⟨streamed, counted⟩ := streamed_lists external stores streams started scanned
  rw [List.nil_append] at streamed counted
  have nodes : ¬options.documentNodes = false := by
    rw [documentNodes_of_stores _ (Or.inr (Or.inr stores))]
    decide
  unfold writePostingTuples at written
  rw [if_neg nodes] at written
  by_cases empty : docs = []
  · subst empty
    have none_ : postingLog encoders (some codebook) 0 ([] : List (Document format dimensions)) =
      [] := rfl
    rw [none_] at streamed
    have count : build.postingCount = 0 := streamed.postingCount
    rw [if_neg fun inUse => absurd inUse.2 (by rw [count]; exact Nat.lt_irrefl 0),
      if_pos streams] at written
    exact ⟨Or.inl ⟨rfl, (Except.ok.inj written).symm⟩, counted, Nat.zero_le _⟩
  · have some_ : postingLog encoders (some codebook) 0 docs ≠ [] := postingLog_ne_nil empty
    have count : 0 < build.postingCount := by
      rw [streamed.postingCount]
      exact List.length_pos_of_ne_nil some_
    rw [if_pos ⟨streamed.allocated some_, count⟩] at written
    unfold streamedLists at written
    split_ifs at written with large
    · cases written
    · rw [streamed.postingCount] at large
      refine ⟨Or.inr ?_, counted, Nat.not_lt.mp large⟩
      rw [← Except.ok.inj written]
      refine postingSection_eq fun codeword _ => ?_
      rw [sortPostings_short, streamed.lists, external]

theorem postingTuples_nil (tuple : Nat → Nat → List PostingEntry → DocMapTuple F H Q)
    (codebookSize : Nat) (key : Nat → Int) : postingTuples tuple codebookSize key [] = [] := by
  refine List.flatMap_eq_nil_iff.mpr fun codeword _ => ?_
  rw [valuesAt_nil, sortPostings, List.mergeSort_nil]
  rfl

theorem scan_keeps (keeps : options.storesDocVectors = true)
    (entries : List (Nat × Document format dimensions)) (build : PostingBuild) :
    entries.foldlM (appendBuildPostings encoders options) build = .ok build := by
  induction entries with
  | nil => rfl
  | cons entry rest ih =>
    rw [List.foldlM_cons, appendBuildPostings, if_pos (Or.inr (Or.inl keeps))]
    exact ih

end Builds

/-! ### One token -/

def oneCodeword : ExternalCodebook Int :=
  ⟨1, 1, "one", fun _ _ => 0, Nat.one_pos, Nat.one_pos⟩

def streamingOptions : DocMapOptions Int :=
  ⟨true, .centroidOnly, false, 1, some oneCodeword, rfl⟩

def keepingOptions : DocMapOptions Int := ⟨true, .f32, false, 1, some oneCodeword, rfl⟩

theorem oneToken_bounded : 1 ≤ 256 := by decide

def unitDocument : Document wholeFormat 1 where
  heapTid := (0, 1)
  tokenCount := 1
  values := [1]
  contexts := none
  dimensional := Nat.one_pos
  positive := Nat.one_pos
  bounded := oneToken_bounded
  sized := rfl
  finite := rfl
  contextsValid := fun _ absurd => by cases absurd

end TurboHybrid.DocMap
