/-
**Document vectors read page by page.**

A scan may load the document map without the document vectors: the loader then only remembers
where the chunks of each document stand, and three readers fetch the chunks from the pages when a
document is scored. One puts the document's vectors together, one hands the floats of each chunk
to a callback, and one hands over the chunks as they are stored.

* `loadPagedTuple_simulates`: what one tuple adds to the two kinds of loaded map;
* `Simulates.documentChunks`: the chunks remembered for a document are its chunks in the chain;
* `pagedDocMap_eq_resident`: the three readers deliver the floats of the resident copy.
-/
import TurboHybrid.Library.KeyRuns
import TurboHybrid.MultiVector.DocMapLoad

namespace TurboHybrid.DocMap

open TurboHybrid.Library

/-! ### Chunks -/

inductive DocStorageKind
  | f32
  | f16
  | sq8
  deriving DecidableEq, Repr

/-- The values of a vector tuple as they are stored, with the scale that goes with them. -/
inductive StoredValues (F H Q : Type)
  | f32 (values : List F)
  | f16 (values : List H)
  | sq8 (scale : F) (values : List Q)

variable {F H Q : Type}

namespace StoredValues

def count : StoredValues F H Q → Nat
  | .f32 values => values.length
  | .f16 values => values.length
  | .sq8 _ values => values.length

def storageKind : StoredValues F H Q → DocStorageKind
  | .f32 _ => .f32
  | .f16 _ => .f16
  | .sq8 _ _ => .sq8

end StoredValues

structure DecodedVectorTuple (F H Q : Type) where
  docId : Nat
  startFloat : Nat
  stored : StoredValues F H Q

section Decoding

variable (format : FloatFormat F H Q)

def decodeDocVectorTuple : DocMapTuple F H Q → Option (DecodedVectorTuple F H Q)
  | .vector docId startFloat values =>
    if values = [] then none else some ⟨docId, startFloat, .f32 values⟩
  | .vectorF16 docId startFloat values =>
    if values = [] then none else some ⟨docId, startFloat, .f16 values⟩
  | .vectorSq8 docId startFloat scale values =>
    if values = [] then none
    else if format.isFinite scale = false ∨ format.isPositive scale = false then none
    else some ⟨docId, startFloat, .sq8 scale values⟩
  | _ => none

def decodeDocValues : StoredValues F H Q → List F
  | .f32 values => values
  | .f16 values => values.map format.halfToFloat
  | .sq8 scale values => values.map (format.dequantize scale)

@[simp] theorem length_decodeDocValues (stored : StoredValues F H Q) :
    (decodeDocValues format stored).length = stored.count := by
  cases stored <;> simp [decodeDocValues, StoredValues.count]

end Decoding

/-! ### Loading without the vectors -/

/-- Where a chunk stands, and what it holds there. -/
structure ChunkRef where
  blkno : Nat
  offno : Nat
  startFloat : Nat
  count : Nat
  storageKind : DocStorageKind
  deriving DecidableEq, Repr

/-- The map without the vectors: the chunks in the order they were met, and for each document the
first of its chunks, how many there are, and how many floats they hold. -/
structure PagedStorage (F : Type) where
  log : LoadLog F := {}
  chunks : List ChunkRef := []
  firstChunk : Nat → Option Nat := fun _ => none
  chunkCounts : Nat → Nat := fun _ => 0
  floatCounts : Nat → Nat := fun _ => 0

/-- The array of chunks doubles from 1024 on, and an array of more than 1 GB is refused. -/
def maxVectorChunks : Nat := 2 ^ 25

def rememberVectorChunk (storage : PagedStorage F) (docId : Nat) (ref : ChunkRef) :
    Except String (PagedStorage F) :=
  if maxVectorChunks ≤ storage.chunks.length then
    .error "pgturbohybrid multivector document vector chunk refs is too large"
  else
    match storage.firstChunk docId with
    | none =>
      .ok { storage with
        firstChunk := Function.update storage.firstChunk docId (some storage.chunks.length)
        chunkCounts := Function.update storage.chunkCounts docId (storage.chunkCounts docId + 1)
        chunks := storage.chunks ++ [ref] }
    | some first =>
      if first + storage.chunkCounts docId ≠ storage.chunks.length then
        .error "document vector sidecar chunks are not grouped by document"
      else
        .ok { storage with
          chunkCounts := Function.update storage.chunkCounts docId (storage.chunkCounts docId + 1)
          chunks := storage.chunks ++ [ref] }

section Loading

variable (format : FloatFormat F H Q) (meta' : DocMapMeta)

def loadPagedVector (storage : PagedStorage F) (blkno offno : Nat) :
    Option (DecodedVectorTuple F H Q) → Except String (PagedStorage F)
  | decoded =>
    if meta'.documentNodes = false then
      .error "document vector tuple found in token-node docmap"
    else if meta'.hasDocVectors = false then
      .error "document vector tuple found without document vector storage flag"
    else
      match decoded with
      | none => .error "malformed document vector tuple"
      | some ⟨docId, startFloat, stored⟩ =>
        if meta'.docCount ≤ docId then .error "malformed document vector tuple"
        else if docId ∉ storage.log.docs.map Prod.fst then
          .error "document vector tuple range is invalid"
        else if (storage.log.docEntry docId).tokenCount * meta'.dimensions <
            startFloat + stored.count then
          .error "document vector tuple range is invalid"
        else do
          let storage ← rememberVectorChunk storage docId
            ⟨blkno, offno, startFloat, stored.count, stored.storageKind⟩
          if startFloat ≠ storage.floatCounts docId then
            .error "document vector tuple chunks are not contiguous"
          else
            .ok { storage with
              floatCounts := Function.update storage.floatCounts docId
                (storage.floatCounts docId + stored.count) }

/-- The contexts go with the resident vectors: here they are skipped, or the load fails. -/
def loadPagedContext (contextsSkipped : Bool) (storage : PagedStorage F) (docId : Nat)
    (table : ContextTable) : Except String (PagedStorage F) :=
  if meta'.documentNodes = false then
    .error "document context tuple found in token-node docmap"
  else if meta'.hasDocVectors = false then
    .error "document context tuple found without document vector storage flag"
  else if table.offsets = [] ∨ meta'.docCount ≤ docId then
    .error "malformed document context tuple"
  else if docId ∉ storage.log.docs.map Prod.fst then
    .error "document context tuple range is invalid"
  else if contextsSkipped then .ok storage
  else .error "paged document-node sidecar does not support context metadata yet"

def loadPagedTuple (contextsSkipped : Bool) (storage : PagedStorage F) (blkno offno : Nat) :
    DocMapTuple F H Q → Except String (PagedStorage F)
  | .vector docId startFloat values =>
    loadPagedVector meta' storage blkno offno
      (decodeDocVectorTuple format (.vector docId startFloat values))
  | .vectorF16 docId startFloat values =>
    loadPagedVector meta' storage blkno offno
      (decodeDocVectorTuple format (.vectorF16 docId startFloat values))
  | .vectorSq8 docId startFloat scale values =>
    loadPagedVector meta' storage blkno offno
      (decodeDocVectorTuple format (.vectorSq8 docId startFloat scale values))
  | .context docId table => loadPagedContext meta' contextsSkipped storage docId table
  | tuple => do
    let log ← loadTuple format meta' storage.log tuple
    .ok { storage with log := log }

def loadPagedTuples (contextsSkipped : Bool) (blkno : Nat) :
    Nat → PagedStorage F → List (DocMapTuple F H Q) → Except String (PagedStorage F)
  | _, storage, [] => .ok storage
  | offno, storage, tuple :: rest => do
    let storage ← loadPagedTuple format meta' contextsSkipped storage blkno offno tuple
    loadPagedTuples contextsSkipped blkno (offno + 1) storage rest

/-- The loop over the pages of the chain. A block of `index` that is no page of the map has no
tuples to read. -/
def loadPagedPages (contextsSkipped : Bool) (index : Nat → Option (List (DocMapTuple F H Q))) :
    Nat → PagedStorage F → List Nat → Except String (PagedStorage F)
  | 0, storage, _ => .ok storage
  | _ + 1, _, [] => .error "docmap page chain ended early"
  | left + 1, storage, blkno :: rest =>
    match index blkno with
    | none => .error "docmap page kind mismatch"
    | some page => do
      let storage ← loadPagedTuples format meta' contextsSkipped blkno 1 storage page
      loadPagedPages contextsSkipped index left storage rest

def pagedVectorsCover (storage : PagedStorage F) (docId : Nat) : Bool :=
  (storage.firstChunk docId).isSome && decide (0 < storage.chunkCounts docId) &&
    decide (storage.floatCounts docId =
      (storage.log.docEntry docId).tokenCount * meta'.dimensions)

/-- **The checks after the last page**, as for a resident map but for the vectors. -/
def finishPaged (storage : PagedStorage F) : Except String (PagedStorage F) :=
  if storage.log.nodes.length ≠ meta'.nodeCount ∨ storage.log.docs.length ≠ meta'.docCount then
    .error "docmap sidecar does not cover every node and document"
  else if (List.range meta'.nodeCount).all (nodeMatches meta' storage.log) = false then
    .error "node docmap entry does not match its document range"
  else if meta'.documentNodes = false then .ok storage
  else if meta'.hasDocVectors = false ∧ meta'.proxyOnlyDocMap = false ∧
      meta'.hasCentroids = false ∧ meta'.hasQuantizedPostings = false then
    .error "document-node docmap is missing document vector storage flag"
  else if meta'.hasDocVectors ∧
      (List.range meta'.docCount).all (pagedVectorsCover meta' storage) = false then
    .error "document-node docmap does not cover every document vector"
  else do
    checkWhen meta'.hasQuantizedPostings (checkQuantized meta' storage.log)
    checkWhen meta'.hasCentroids (checkCentroids meta' storage.log)
    .ok storage

/-- **The whole load without the vectors.** -/
def loadPagedDocMap (contextsSkipped : Bool) (index : Nat → Option (List (DocMapTuple F H Q)))
    (chain : List Nat) : Except String (PagedStorage F) :=
  if meta'.docMapStart = none then .error "multivector docmap sidecar is not available"
  else if meta'.docMapVersion ≠ docMapVersion then .error "unsupported docmap sidecar version"
  else if meta'.pageCount = 0 ∨ meta'.docCount = 0 then
    .error "docmap metapage counts are empty"
  else do
    let storage ← loadPagedPages format meta' contextsSkipped index meta'.pageCount {} chain
    finishPaged meta' storage

end Loading

/-! ### The three readers -/

section Readers

variable (format : FloatFormat F H Q) (meta' : DocMapMeta)
  (index : Nat → Option (List (DocMapTuple F H Q))) (storage : PagedStorage F)

def docVectorChunks (docId : Nat) : Except String (List ChunkRef) :=
  if storage.chunks = [] then .error "paged document-node multivector sidecar metadata is missing"
  else
    match storage.firstChunk docId with
    | none => .error "paged document vector sidecar chunk range is invalid"
    | some first =>
      if storage.chunkCounts docId = 0 ∨
          storage.chunks.length < first + storage.chunkCounts docId then
        .error "paged document vector sidecar chunk range is invalid"
      else .ok ((storage.chunks.drop first).take (storage.chunkCounts docId))

/-- One chunk, read from its page and checked against what is known of it. -/
def readVectorChunk (docId totalFloats : Nat) (ref : ChunkRef) (readFloats : Nat) :
    Except String (DecodedVectorTuple F H Q) :=
  match index ref.blkno with
  | none => .error "paged document vector sidecar chunk reference is invalid"
  | some page =>
    if ref.offno < 1 ∨ page.length < ref.offno then
      .error "paged document vector sidecar chunk reference is invalid"
    else
      match page[ref.offno - 1]?.bind (decodeDocVectorTuple format) with
      | none => .error "paged document vector sidecar chunk is malformed"
      | some tuple =>
        if tuple.docId ≠ docId ∨ tuple.startFloat ≠ ref.startFloat ∨
            tuple.stored.count ≠ ref.count ∨ tuple.stored.storageKind ≠ ref.storageKind ∨
            tuple.startFloat ≠ readFloats ∨ totalFloats < tuple.startFloat + tuple.stored.count then
          .error "paged document vector sidecar chunk is invalid"
        else .ok tuple

def writeFloats (dest : List F) (startFloat : Nat) (values : List F) : List F :=
  dest.take startFloat ++ values ++ dest.drop (startFloat + values.length)

def copyChunks (docId totalFloats : Nat) :
    List ChunkRef → List F → Nat → Except String (List F × Nat)
  | [], dest, copiedFloats => .ok (dest, copiedFloats)
  | ref :: rest, dest, copiedFloats => do
    let tuple ← readVectorChunk format index docId totalFloats ref copiedFloats
    copyChunks docId totalFloats rest
      (writeFloats dest tuple.startFloat (decodeDocValues format tuple.stored))
      (copiedFloats + tuple.stored.count)

def totalFloats (docId : Nat) : Nat :=
  (storage.log.docEntry docId).tokenCount * meta'.dimensions

/-- **A document's vectors, put together in a cleared array.** -/
def loadMultiVectorDocVector (zero : F) (docId : Nat) : Except String (List F) :=
  if meta'.docCount ≤ docId then
    .error "document-node multivector sidecar has invalid document id"
  else do
    let refs ← docVectorChunks storage docId
    let total := totalFloats meta' storage docId
    let (dest, copiedFloats) ← copyChunks format index docId total refs
      (List.replicate total zero) 0
    if copiedFloats ≠ total then .error "paged document vector sidecar chunks are incomplete"
    else .ok dest

variable {σ : Type}

/-- The loop of the two visitors: `callback` says whether to go on. -/
def visitChunks (docId totalFloats : Nat)
    (callback : σ → DecodedVectorTuple F H Q → σ × Bool) :
    List ChunkRef → σ → Nat → Except String σ
  | [], state, visitedFloats =>
    if visitedFloats ≠ totalFloats then
      .error "paged document vector sidecar chunks are incomplete"
    else .ok state
  | ref :: rest, state, visitedFloats => do
    let tuple ← readVectorChunk format index docId totalFloats ref visitedFloats
    if (callback state tuple).2 = false then .ok (callback state tuple).1
    else
      visitChunks docId totalFloats callback rest (callback state tuple).1
        (visitedFloats + tuple.stored.count)

def visitDocument (callback : σ → DecodedVectorTuple F H Q → σ × Bool) (docId : Nat)
    (state : σ) : Except String σ :=
  if meta'.docCount ≤ docId then
    .error "document-node multivector sidecar has invalid document id"
  else do
    let refs ← docVectorChunks storage docId
    visitChunks format index docId (totalFloats meta' storage docId) callback refs state 0

/-- The floats of a chunk as the visitor finds them: in the page, or decoded. -/
def callbackValues : StoredValues F H Q → List F
  | .f32 values => values
  | stored => decodeDocValues format stored

@[simp] theorem callbackValues_eq (stored : StoredValues F H Q) :
    callbackValues format stored = decodeDocValues format stored := by
  cases stored <;> rfl

/-- **Visiting the floats of each chunk.** The callback gets them with the place of the first. -/
def visitMultiVectorDocVectorChunks (callback : σ → List F → Nat → σ × Bool) (docId : Nat)
    (state : σ) : Except String σ :=
  visitDocument format meta' index storage
    (fun state tuple => callback state (callbackValues format tuple.stored) tuple.startFloat)
    docId state

/-- **Visiting the chunks as they are stored.** -/
def visitMultiVectorDocCompactChunks (callback : σ → StoredValues F H Q → Nat → σ × Bool)
    (docId : Nat) (state : σ) : Except String σ :=
  visitDocument format meta' index storage
    (fun state tuple => callback state tuple.stored tuple.startFloat) docId state

end Readers

/-! ### What a chunk list delivers -/

section Delivering

variable {σ π : Type}

/-- Parts handed to a callback one behind the other, until it stops. -/
def deliver (size : π → Nat) (callback : σ → π → Nat → σ × Bool) : σ → Nat → List π → σ
  | state, _, [] => state
  | state, start, part :: rest =>
    if (callback state part start).2 = false then (callback state part start).1
    else deliver size callback (callback state part start).1 (start + size part) rest

theorem deliver_map {ρ : Type} {size : π → Nat} {other : ρ → Nat} {f : ρ → π}
    (callback : σ → π → Nat → σ × Bool) (same : ∀ part, size (f part) = other part) (state : σ)
    (start : Nat) (parts : List ρ) :
    deliver size callback state start (parts.map f) =
      deliver other (fun state part start => callback state (f part) start) state start parts := by
  induction parts generalizing state start with
  | nil => rfl
  | cons part rest ih =>
      rw [List.map_cons, deliver, deliver, same]
      split_ifs with stop
      · rfl
      · exact ih _ _

end Delivering

/-! ### What has been loaded -/

/-- A chunk as the loader met it: what it remembers of it, and the values. -/
abbrev MetChunk (F H Q : Type) := ChunkRef × StoredValues F H Q

def floatCount (met : List (MetChunk F H Q)) : Nat := (met.map fun chunk => chunk.2.count).sum

def Follows : Nat → List (MetChunk F H Q) → Prop
  | _, [] => True
  | start, chunk :: rest => chunk.1.startFloat = start ∧ Follows (start + chunk.2.count) rest

@[simp] theorem floatCount_nil : floatCount ([] : List (MetChunk F H Q)) = 0 := rfl

@[simp] theorem floatCount_cons (chunk : MetChunk F H Q) (rest : List (MetChunk F H Q)) :
    floatCount (chunk :: rest) = chunk.2.count + floatCount rest := by
  simp [floatCount]

theorem follows_concat {start : Nat} {met : List (MetChunk F H Q)} {chunk : MetChunk F H Q}
    (follows : Follows start met) (next : chunk.1.startFloat = start + floatCount met) :
    Follows start (met ++ [chunk]) := by
  induction met generalizing start with
  | nil => exact ⟨by simpa using next, trivial⟩
  | cons first rest ih =>
      refine ⟨follows.1, ih follows.2 ?_⟩
      rw [next, floatCount_cons, Nat.add_assoc]

section Simulating

variable (format : FloatFormat F H Q) (meta' : DocMapMeta)
  (index : Nat → Option (List (DocMapTuple F H Q)))

/-- The chunk of a document is where the reference says. -/
structure Located (docId : Nat) (chunk : MetChunk F H Q) : Prop where
  count : chunk.1.count = chunk.2.count
  storageKind : chunk.1.storageKind = chunk.2.storageKind
  positive : 1 ≤ chunk.1.offno
  stored : ∃ page tuple, index chunk.1.blkno = some page ∧
    page[chunk.1.offno - 1]? = some tuple ∧
    decodeDocVectorTuple format tuple = some ⟨docId, chunk.1.startFloat, chunk.2⟩

/-- The two kinds of loaded map, after the chunks `met` of the chain, each with its document. -/
structure Simulates (log : LoadLog F) (storage : PagedStorage F)
    (met : List (Nat × MetChunk F H Q)) : Prop where
  docs : storage.log.docs = log.docs
  vectors : log.vectors = met.map fun entry => (entry.1, decodeDocValues format entry.2.2)
  chunks : storage.chunks = met.map fun entry => entry.2.1
  indexed : Indexes storage.firstChunk storage.chunkCounts met
  counts : ∀ docId, storage.floatCounts docId = floatCount (valuesAt met docId)
  follows : ∀ docId, Follows 0 (valuesAt met docId)
  located : ∀ entry ∈ met, Located format index entry.1 entry.2

theorem simulates_empty : Simulates format index {} {} [] where
  docs := rfl
  vectors := rfl
  chunks := rfl
  indexed := indexes_empty
  counts _ := rfl
  follows _ := trivial
  located entry member := by cases member

variable {format meta' index}

theorem loadTuple_vector {log out : LoadLog F} {tuple : DocMapTuple F H Q}
    {decoded : DecodedVectorTuple F H Q}
    (read : decodeDocVectorTuple format tuple = some decoded)
    (loaded : loadTuple format meta' log tuple = .ok out) :
    out = log ++ vectorChunk decoded.docId (decodeDocValues format decoded.stored) := by
  obtain ⟨-, rfl⟩ := (loadTuple_ok_iff format meta').mp loaded
  cases tuple with
  | vector docId startFloat values =>
      simp only [decodeDocVectorTuple] at read
      split_ifs at read
      obtain rfl := Option.some.inj read
      rfl
  | vectorF16 docId startFloat values =>
      simp only [decodeDocVectorTuple] at read
      split_ifs at read
      obtain rfl := Option.some.inj read
      rfl
  | vectorSq8 docId startFloat scale values =>
      simp only [decodeDocVectorTuple] at read
      split_ifs at read
      obtain rfl := Option.some.inj read
      rfl
  | _ => cases read

theorem rememberVectorChunk_ok {storage out : PagedStorage F} {docId : Nat} {ref : ChunkRef}
    (remembered : rememberVectorChunk storage docId ref = .ok out) {α : Type}
    {met : List (Nat × α)} (value : α) (length : met.length = storage.chunks.length)
    (indexed : Indexes storage.firstChunk storage.chunkCounts met) :
    out.log = storage.log ∧ out.chunks = storage.chunks ++ [ref] ∧
      out.floatCounts = storage.floatCounts ∧
      Indexes out.firstChunk out.chunkCounts (met ++ [(docId, value)]) := by
  unfold rememberVectorChunk at remembered
  split_ifs at remembered with full
  cases first : storage.firstChunk docId with
  | none =>
      rw [first] at remembered
      obtain rfl := Except.ok.inj remembered
      refine ⟨rfl, rfl, rfl, ?_⟩
      rw [← length]
      exact indexed.start first
  | some place =>
      rw [first] at remembered
      dsimp only at remembered
      split_ifs at remembered with apart
      obtain rfl := Except.ok.inj remembered
      exact ⟨rfl, rfl, rfl, indexed.extend first (by rw [length]; exact not_not.mp apart)⟩

theorem loadPagedVector_ok {storage out : PagedStorage F} {blkno offno : Nat}
    {decoded : Option (DecodedVectorTuple F H Q)}
    (loaded : loadPagedVector meta' storage blkno offno decoded = .ok out) :
    ∃ tuple middle, decoded = some tuple ∧
      rememberVectorChunk storage tuple.docId
        ⟨blkno, offno, tuple.startFloat, tuple.stored.count, tuple.stored.storageKind⟩ =
          .ok middle ∧
      tuple.startFloat = middle.floatCounts tuple.docId ∧
      out = { middle with
        floatCounts := Function.update middle.floatCounts tuple.docId
          (middle.floatCounts tuple.docId + tuple.stored.count) } := by
  unfold loadPagedVector at loaded
  split_ifs at loaded with nodes stored
  cases decoded with
  | none => cases loaded
  | some tuple =>
      dsimp only at loaded
      split_ifs at loaded with outside unseen wide
      obtain ⟨middle, remembered, loaded⟩ := bind_ok loaded
      split_ifs at loaded with gap
      exact ⟨tuple, middle, rfl, remembered, not_not.mp gap, (Except.ok.inj loaded).symm⟩

/-- **A vector tuple keeps the two maps together.** -/
theorem loadPagedVector_simulates {log log' : LoadLog F} {storage storage' : PagedStorage F}
    {met : List (Nat × MetChunk F H Q)} {blkno offno : Nat} {page : List (DocMapTuple F H Q)}
    {tuple : DocMapTuple F H Q} (simulates : Simulates format index log storage met)
    (onPage : index blkno = some page) (positive : 1 ≤ offno)
    (atOffset : page[offno - 1]? = some tuple)
    (resident : loadTuple format meta' log tuple = .ok log')
    (paged : loadPagedVector meta' storage blkno offno (decodeDocVectorTuple format tuple) =
      .ok storage') :
    ∃ met', Simulates format index log' storage' met' := by
  obtain ⟨⟨docId, startFloat, stored⟩, middle, read, remembered, next, rfl⟩ :=
    loadPagedVector_ok paged
  obtain rfl := loadTuple_vector read resident
  let chunk : MetChunk F H Q :=
    (⟨blkno, offno, startFloat, stored.count, stored.storageKind⟩, stored)
  have length : met.length = storage.chunks.length := by rw [simulates.chunks, List.length_map]
  obtain ⟨sameLog, chunks, sameCounts, indexed⟩ :=
    rememberVectorChunk_ok remembered chunk length simulates.indexed
  have start : startFloat = floatCount (valuesAt met docId) := by
    rw [← simulates.counts, ← sameCounts]
    exact next
  refine ⟨met ++ [(docId, chunk)], ?_, ?_, ?_, indexed, ?_, ?_, ?_⟩
  · rw [show ({ middle with floatCounts := _ } : PagedStorage F).log = middle.log from rfl, sameLog,
      simulates.docs]
    simp [vectorChunk]
  · simp [vectorChunk, simulates.vectors, chunk]
  · rw [List.map_append, ← simulates.chunks]
    exact chunks
  · intro other
    dsimp only
    by_cases same : other = docId
    · rw [same, Function.update_self, Indexes.valuesAt_same, sameCounts, simulates.counts]
      simp [floatCount, chunk]
    · rw [Function.update_of_ne same, Indexes.valuesAt_other same, sameCounts, simulates.counts]
  · intro other
    by_cases same : other = docId
    · rw [same, Indexes.valuesAt_same]
      exact follows_concat (simulates.follows docId) (by rw [Nat.zero_add]; exact start)
    · rw [Indexes.valuesAt_other same]
      exact simulates.follows other
  · intro entry member
    rcases List.mem_append.mp member with earlier | last
    · exact simulates.located entry earlier
    · obtain rfl := List.mem_singleton.mp last
      exact ⟨rfl, rfl, positive, page, tuple, onPage, atOffset, read⟩

theorem Simulates.of_docs {log log' : LoadLog F} {storage storage' : PagedStorage F}
    {met : List (Nat × MetChunk F H Q)} (simulates : Simulates format index log storage met)
    (docs : storage'.log.docs = log'.docs) (vectors : log'.vectors = log.vectors)
    (same : storage' = { storage with log := storage'.log }) :
    Simulates format index log' storage' met := by
  rw [same]
  exact ⟨docs, vectors.trans simulates.vectors, simulates.chunks, simulates.indexed,
    simulates.counts, simulates.follows, simulates.located⟩

/-- **One tuple.** -/
theorem loadPagedTuple_simulates {contextsSkipped : Bool} {log log' : LoadLog F}
    {storage storage' : PagedStorage F} {met : List (Nat × MetChunk F H Q)} {blkno offno : Nat}
    {page : List (DocMapTuple F H Q)} {tuple : DocMapTuple F H Q}
    (simulates : Simulates format index log storage met) (onPage : index blkno = some page)
    (positive : 1 ≤ offno) (atOffset : page[offno - 1]? = some tuple)
    (resident : loadTuple format meta' log tuple = .ok log')
    (paged : loadPagedTuple format meta' contextsSkipped storage blkno offno tuple =
      .ok storage') :
    ∃ met', Simulates format index log' storage' met' := by
  have other (plain : loadPagedTuple format meta' contextsSkipped storage blkno offno tuple =
      (do
        let log ← loadTuple format meta' storage.log tuple
        .ok { storage with log := log }))
      (noVector : (contribution format tuple).vectors = []) :
      ∃ met', Simulates format index log' storage' met' := by
    obtain ⟨pagedLog, loaded, done⟩ := bind_ok (plain ▸ paged)
    obtain rfl := (Except.ok.inj done).symm
    obtain ⟨-, rfl⟩ := (loadTuple_ok_iff format meta').mp resident
    obtain ⟨-, rfl⟩ := (loadTuple_ok_iff format meta').mp loaded
    refine ⟨met, simulates.of_docs ?_ ?_ rfl⟩
    · rw [LoadLog.append_docs, LoadLog.append_docs, simulates.docs]
    · rw [LoadLog.append_vectors, noVector, List.append_nil]
  cases tuple with
  | vector docId startFloat values =>
      exact loadPagedVector_simulates simulates onPage positive atOffset resident paged
  | vectorF16 docId startFloat values =>
      exact loadPagedVector_simulates simulates onPage positive atOffset resident paged
  | vectorSq8 docId startFloat scale values =>
      exact loadPagedVector_simulates simulates onPage positive atOffset resident paged
  | context docId table =>
      obtain ⟨-, rfl⟩ := (loadTuple_ok_iff format meta').mp resident
      simp only [loadPagedTuple, loadPagedContext] at paged
      split_ifs at paged
      obtain rfl := Except.ok.inj paged
      refine ⟨met, simulates.of_docs ?_ ?_ rfl⟩
      · rw [LoadLog.append_docs, simulates.docs]
        exact (List.append_nil _).symm
      · rw [LoadLog.append_vectors]
        exact List.append_nil _
  | node firstNodeId entries => exact other rfl rfl
  | doc firstDocId entries => exact other rfl rfl
  | centroid docId centroidCount startFloat residualMean values => exact other rfl rfl
  | centroidF16 docId centroidCount startFloat residualMean values => exact other rfl rfl
  | centroidDocCode docId codebookSize startCode codes => exact other rfl rfl
  | centroidPosting codeword startOffset entries => exact other rfl rfl
  | quantizedCodebook codebook => exact other rfl rfl
  | quantizedPosting codeword startOffset entries => exact other rfl rfl

/-- **The tuples of a page**, from one of them on. -/
theorem loadPagedTuples_simulates {contextsSkipped : Bool} {log log' : LoadLog F}
    {storage storage' : PagedStorage F} {met : List (Nat × MetChunk F H Q)} {blkno offno : Nat}
    {page tuples : List (DocMapTuple F H Q)} (simulates : Simulates format index log storage met)
    (onPage : index blkno = some page) (positive : 1 ≤ offno)
    (left : page.drop (offno - 1) = tuples)
    (resident : loadTuples format meta' log tuples = .ok log')
    (paged : loadPagedTuples format meta' contextsSkipped blkno offno storage tuples =
      .ok storage') :
    ∃ met', Simulates format index log' storage' met' := by
  induction tuples generalizing offno log storage met with
  | nil =>
      obtain rfl := Except.ok.inj resident
      obtain rfl := Except.ok.inj paged
      exact ⟨met, simulates⟩
  | cons tuple rest ih =>
      obtain ⟨middle, resident, laterResident⟩ := bind_ok resident
      obtain ⟨middleStorage, paged, laterPaged⟩ := bind_ok paged
      have atOffset : page[offno - 1]? = some tuple := by
        rw [← Nat.add_zero (offno - 1), ← List.getElem?_drop, left]
        rfl
      obtain ⟨met', kept⟩ :=
        loadPagedTuple_simulates simulates onPage positive atOffset resident paged
      refine ih kept (by omega) ?_ laterResident laterPaged
      rw [show offno + 1 - 1 = offno - 1 + 1 by omega, ← List.drop_drop, left]
      rfl

/-- The tuples of a block, none where it is no page of the map. -/
def pageTuples (index : Nat → Option (List (DocMapTuple F H Q))) (blkno : Nat) :
    List (DocMapTuple F H Q) :=
  (index blkno).getD []

/-- **The pages of the chain.** -/
theorem loadPagedPages_simulates {contextsSkipped : Bool} {left : Nat} {log log' : LoadLog F}
    {storage storage' : PagedStorage F} {met : List (Nat × MetChunk F H Q)} {chain : List Nat}
    (simulates : Simulates format index log storage met)
    (resident : loadPages format meta' left log (chain.map (pageTuples index)) = .ok log')
    (paged : loadPagedPages format meta' contextsSkipped index left storage chain =
      .ok storage') :
    ∃ met', Simulates format index log' storage' met' := by
  induction left generalizing chain log storage met with
  | zero =>
      obtain rfl := Except.ok.inj resident
      obtain rfl := Except.ok.inj paged
      exact ⟨met, simulates⟩
  | succ left ih =>
      cases chain with
      | nil => cases paged
      | cons blkno rest =>
          rw [loadPagedPages] at paged
          cases onPage : index blkno with
          | none =>
              rw [onPage] at paged
              cases paged
          | some page =>
              rw [onPage] at paged
              obtain ⟨middleStorage, paged, laterPaged⟩ := bind_ok paged
              obtain ⟨middle, resident, laterResident⟩ := bind_ok resident
              have tuples : pageTuples index blkno = page := by
                rw [pageTuples, onPage, Option.getD_some]
              rw [tuples] at resident
              obtain ⟨met', kept⟩ := loadPagedTuples_simulates simulates onPage le_rfl rfl
                resident paged
              exact ih kept laterResident laterPaged

/-! ### Reading back -/

theorem Simulates.floats {log : LoadLog F} {storage : PagedStorage F}
    {met : List (Nat × MetChunk F H Q)} (simulates : Simulates format index log storage met)
    (docId : Nat) :
    log.floats docId =
      (valuesAt met docId).flatMap fun chunk => decodeDocValues format chunk.2 := by
  rw [LoadLog.floats, simulates.vectors]
  unfold valuesAt
  rw [List.filter_map, List.map_map, ← List.flatMap_def, List.flatMap_map]
  rfl

theorem length_flatMap_decode (format : FloatFormat F H Q) (met : List (MetChunk F H Q)) :
    (met.flatMap fun chunk => decodeDocValues format chunk.2).length = floatCount met := by
  rw [List.length_flatMap]
  simp [floatCount]

/-- **The chunks remembered for a document are its chunks in the chain.** -/
theorem Simulates.documentChunks {log : LoadLog F} {storage : PagedStorage F}
    {met : List (Nat × MetChunk F H Q)} (simulates : Simulates format index log storage met)
    {docId : Nat} (covered : pagedVectorsCover meta' storage docId = true) :
    docVectorChunks storage docId = .ok ((valuesAt met docId).map Prod.fst) := by
  simp only [pagedVectorsCover, Bool.and_eq_true, decide_eq_true_eq, Option.isSome_iff_exists]
    at covered
  obtain ⟨⟨⟨first, found⟩, some_⟩, -⟩ := covered
  obtain ⟨inside, values⟩ := simulates.indexed.run docId first found
  have length : storage.chunks.length = met.length := by rw [simulates.chunks, List.length_map]
  unfold docVectorChunks
  rw [if_neg (by rw [← List.length_eq_zero_iff]; omega), found]
  dsimp only
  rw [if_neg (by omega), simulates.chunks, ← values, List.map_map, ← List.map_drop,
    ← List.map_take]
  rfl

/-- **A chunk is read back from its page.** -/
theorem readVectorChunk_ok {docId : Nat} (total : Nat) {chunk : MetChunk F H Q}
    (located : Located format index docId chunk)
    (fits : chunk.1.startFloat + chunk.2.count ≤ total) :
    readVectorChunk format index docId total chunk.1 chunk.1.startFloat =
      .ok ⟨docId, chunk.1.startFloat, chunk.2⟩ := by
  obtain ⟨page, tuple, onPage, atOffset, read⟩ := located.stored
  have inside := (List.getElem?_eq_some_iff.mp atOffset).1
  have positive := located.positive
  unfold readVectorChunk
  rw [onPage]
  dsimp only
  rw [if_neg (by omega), atOffset, Option.bind_some, read]
  dsimp only
  rw [if_neg]
  rintro (other | other | other | other | other | wide)
  · exact other rfl
  · exact other rfl
  · exact other located.count.symm
  · exact other located.storageKind.symm
  · exact other rfl
  · omega

/-- **Putting the chunks together**: each goes behind the floats already copied. -/
theorem copyChunks_ok {docId total : Nat} (zero : F) {met : List (MetChunk F H Q)}
    (front : List F) {room : Nat} (located : ∀ chunk ∈ met, Located format index docId chunk)
    (follows : Follows front.length met) (fits : floatCount met ≤ room)
    (whole : front.length + room = total) :
    copyChunks format index docId total (met.map Prod.fst)
        (front ++ List.replicate room zero) front.length =
      .ok (front ++ (met.flatMap fun chunk => decodeDocValues format chunk.2) ++
        List.replicate (room - floatCount met) zero, front.length + floatCount met) := by
  induction met generalizing front room with
  | nil => simp [copyChunks]
  | cons chunk rest ih =>
      obtain ⟨start, later⟩ := follows
      rw [floatCount_cons] at fits
      have read := readVectorChunk_ok total (located chunk (List.mem_cons_self ..)) (by omega)
      rw [List.map_cons, copyChunks, ← start, read]
      dsimp only [bind, Except.bind]
      have written : writeFloats (front ++ List.replicate room zero) chunk.1.startFloat
          (decodeDocValues format chunk.2) = (front ++ decodeDocValues format chunk.2) ++
          List.replicate (room - chunk.2.count) zero := by
        rw [writeFloats, start, List.take_left, length_decodeDocValues, List.drop_append,
          List.drop_of_length_le (by omega), List.nil_append, List.drop_replicate]
        congr 3
        omega
      have length : chunk.1.startFloat + chunk.2.count =
          (front ++ decodeDocValues format chunk.2).length := by
        rw [start, List.length_append, length_decodeDocValues]
      rw [written, length]
      rw [ih _ (fun other member => located other (List.mem_cons_of_mem _ member))
        (by rw [← length, start]; exact later) (by omega) (by rw [← length, start]; omega)]
      rw [List.flatMap_cons, floatCount_cons, ← length, List.append_assoc front,
        Nat.add_assoc, Nat.sub_sub]

/-- **Visiting the chunks**: each is handed over with the number of floats in front of it. -/
theorem visitChunks_ok {σ : Type} {docId total start : Nat} {met : List (MetChunk F H Q)}
    (callback : σ → DecodedVectorTuple F H Q → σ × Bool) (state : σ)
    (located : ∀ chunk ∈ met, Located format index docId chunk) (follows : Follows start met)
    (whole : start + floatCount met = total) :
    visitChunks format index docId total callback (met.map Prod.fst) state start =
      .ok (deliver StoredValues.count
        (fun state stored start => callback state ⟨docId, start, stored⟩) state start
        (met.map Prod.snd)) := by
  induction met generalizing start state with
  | nil =>
      rw [List.map_nil, visitChunks, if_neg (by rw [floatCount_nil] at whole; omega)]
      rfl
  | cons chunk rest ih =>
      obtain ⟨here, later⟩ := follows
      rw [floatCount_cons] at whole
      have read := readVectorChunk_ok total (located chunk (List.mem_cons_self ..)) (by omega)
      rw [List.map_cons, visitChunks, ← here, read]
      dsimp only [bind, Except.bind]
      rw [List.map_cons, deliver]
      split_ifs with stop
      · rfl
      · rw [here]
        exact ih _ (fun other member => located other (List.mem_cons_of_mem _ member)) later
          (by omega)

theorem finishPaged_ok {storage out : PagedStorage F}
    (finished : finishPaged meta' storage = .ok out) :
    out = storage ∧ (meta'.hasDocVectors = true → ∀ docId < meta'.docCount,
      pagedVectorsCover meta' storage docId = true) := by
  unfold finishPaged at finished
  split_ifs at finished with counts nodes tokens missing vectors
  · refine ⟨(Except.ok.inj finished).symm, fun stored => ?_⟩
    rw [hasDocVectors_documentNodes stored] at tokens
    cases tokens
  · obtain ⟨_, -, finished⟩ := bind_ok finished
    obtain ⟨_, -, finished⟩ := bind_ok finished
    refine ⟨(Except.ok.inj finished).symm, fun stored => all_range.mp ?_⟩
    by_contra uncovered
    exact vectors ⟨stored, by simpa using uncovered⟩

/-! ### Both loads -/

theorem loadPagedTuple_contexts {storage storage' : PagedStorage F} {blkno offno : Nat}
    {tuple : DocMapTuple F H Q}
    (paged : loadPagedTuple format meta' false storage blkno offno tuple = .ok storage') :
    (contribution format tuple).contexts = [] := by
  cases tuple with
  | context docId table =>
      simp only [loadPagedTuple, loadPagedContext, Bool.false_eq_true, if_false] at paged
      split_ifs at paged
  | _ => rfl

theorem loadPagedTuples_contexts {log log' : LoadLog F} {storage storage' : PagedStorage F}
    {blkno offno : Nat} {tuples : List (DocMapTuple F H Q)}
    (resident : loadTuples format meta' log tuples = .ok log')
    (paged : loadPagedTuples format meta' false blkno offno storage tuples = .ok storage') :
    log'.contexts = log.contexts := by
  induction tuples generalizing offno log storage with
  | nil => rw [Except.ok.inj resident]
  | cons tuple rest ih =>
      obtain ⟨middle, resident, laterResident⟩ := bind_ok resident
      obtain ⟨middleStorage, paged, laterPaged⟩ := bind_ok paged
      obtain ⟨-, rfl⟩ := (loadTuple_ok_iff format meta').mp resident
      rw [ih laterResident laterPaged, LoadLog.append_contexts, loadPagedTuple_contexts paged,
        List.append_nil]

theorem loadPagedPages_contexts {left : Nat} {log log' : LoadLog F}
    {storage storage' : PagedStorage F} {chain : List Nat}
    (resident : loadPages format meta' left log (chain.map (pageTuples index)) = .ok log')
    (paged : loadPagedPages format meta' false index left storage chain = .ok storage') :
    log'.contexts = log.contexts := by
  induction left generalizing chain log storage with
  | zero => rw [Except.ok.inj resident]
  | succ left ih =>
      cases chain with
      | nil => cases paged
      | cons blkno rest =>
          rw [loadPagedPages] at paged
          cases onPage : index blkno with
          | none =>
              rw [onPage] at paged
              cases paged
          | some page =>
              rw [onPage] at paged
              obtain ⟨middleStorage, paged, laterPaged⟩ := bind_ok paged
              obtain ⟨middle, resident, laterResident⟩ := bind_ok resident
              have tuples : pageTuples index blkno = page := by
                rw [pageTuples, onPage, Option.getD_some]
              rw [tuples] at resident
              rw [ih laterResident laterPaged, loadPagedTuples_contexts resident paged]

variable (format meta' index) in
/-- The two loads of one map, with the chunks `met` of the chain. -/
structure BothLoaded (contextsSkipped : Bool) (sidecar : Sidecar F) (loaded : PagedStorage F)
    (log : LoadLog F) (met : List (Nat × MetChunk F H Q)) : Prop where
  complete : Complete meta' log
  sidecar : sidecar = storage meta' log
  simulates : Simulates format index log loaded met
  covered : meta'.hasDocVectors = true → ∀ docId < meta'.docCount,
    pagedVectorsCover meta' loaded docId = true
  contexts : contextsSkipped = false → log.contexts = []

theorem bothLoaded {chain : List Nat} {contextsSkipped : Bool} {sidecar : Sidecar F}
    {loaded : PagedStorage F}
    (resident : loadDocMap format meta' (chain.map (pageTuples index)) = .ok sidecar)
    (paged : loadPagedDocMap format meta' contextsSkipped index chain = .ok loaded) :
    ∃ log met, BothLoaded format meta' index contextsSkipped sidecar loaded log met := by
  unfold loadDocMap at resident
  split_ifs at resident with start version counts
  obtain ⟨log, pages, done⟩ := bind_ok resident
  unfold loadPagedDocMap at paged
  rw [if_neg start, if_neg version, if_neg counts] at paged
  obtain ⟨_, pagedPages, finished⟩ := bind_ok paged
  obtain ⟨rfl, covered⟩ := finishPaged_ok finished
  obtain ⟨complete, same⟩ := finish_ok_iff.mp done
  obtain ⟨met, simulates⟩ :=
    loadPagedPages_simulates (simulates_empty format index) pages pagedPages
  refine ⟨log, met, complete, same, simulates, covered, ?_⟩
  rintro rfl
  exact loadPagedPages_contexts pages pagedPages

namespace BothLoaded

variable {contextsSkipped : Bool} {sidecar : Sidecar F} {loaded : PagedStorage F} {log : LoadLog F}
  {met : List (Nat × MetChunk F H Q)}
  (both : BothLoaded format meta' index contextsSkipped sidecar loaded log met)
include both

theorem located {docId : Nat} (chunk : MetChunk F H Q) (member : chunk ∈ valuesAt met docId) :
    Located format index docId chunk :=
  both.simulates.located (docId, chunk) (mem_valuesAt.mp member)

theorem total (stored : meta'.hasDocVectors = true) {docId : Nat}
    (inRange : docId < meta'.docCount) :
    floatCount (valuesAt met docId) = totalFloats meta' loaded docId := by
  rw [← length_flatMap_decode format, ← both.simulates.floats,
    both.complete.vectors stored docId inRange, totalFloats, LoadLog.docEntry, LoadLog.docEntry,
    both.simulates.docs]

theorem visited (stored : meta'.hasDocVectors = true) {docId : Nat}
    (inRange : docId < meta'.docCount) {σ : Type}
    (callback : σ → DecodedVectorTuple F H Q → σ × Bool) (state : σ) :
    visitDocument format meta' index loaded callback docId state =
      .ok (deliver StoredValues.count
        (fun state part start => callback state ⟨docId, start, part⟩) state 0
        ((valuesAt met docId).map Prod.snd)) := by
  have refs := both.simulates.documentChunks (both.covered stored docId inRange)
  have total := both.total stored inRange
  unfold visitDocument
  rw [if_neg (by omega), refs]
  exact visitChunks_ok callback state both.located (both.simulates.follows docId) (by omega)

theorem vector (stored : meta'.hasDocVectors = true) {docId : Nat}
    (inRange : docId < meta'.docCount) (zero : F) :
    loadMultiVectorDocVector format meta' index loaded zero docId = .ok (log.floats docId) := by
  have refs := both.simulates.documentChunks (both.covered stored docId inRange)
  have copied := copyChunks_ok zero [] both.located (both.simulates.follows docId) le_rfl
    (by rw [List.length_nil, Nat.zero_add])
  unfold loadMultiVectorDocVector
  rw [if_neg (by omega), refs]
  rw [List.nil_append, List.length_nil, Nat.sub_self, Nat.zero_add, List.nil_append,
    List.replicate_zero, List.append_nil] at copied
  dsimp only [bind, Except.bind]
  rw [← both.total stored inRange, copied]
  dsimp only
  rw [if_neg (not_not.mpr rfl), both.simulates.floats]

end BothLoaded

/-- **The paged readers deliver the resident copy.** For every document of a map that both loads
take, there is one list of stored parts whose floats are the resident floats; the loaded vector is
these floats, and the visitors hand over the parts in order, each with the number of floats in
front of it, for as long as the callback goes on. -/
theorem pagedDocMap_eq_resident {chain : List Nat} {contextsSkipped : Bool} {sidecar : Sidecar F}
    {loaded : PagedStorage F} (stored : meta'.hasDocVectors = true)
    (resident : loadDocMap format meta' (chain.map (pageTuples index)) = .ok sidecar)
    (paged : loadPagedDocMap format meta' contextsSkipped index chain = .ok loaded) (zero : F)
    (docId : Nat) (inRange : docId < meta'.docCount) :
    ∃ parts : List (StoredValues F H Q),
      sidecar.documents[docId]?.map Prod.fst = some (parts.flatMap (decodeDocValues format)) ∧
      loadMultiVectorDocVector format meta' index loaded zero docId =
        .ok (parts.flatMap (decodeDocValues format)) ∧
      (∀ (σ : Type) (callback : σ → List F → Nat → σ × Bool) (state : σ),
        visitMultiVectorDocVectorChunks format meta' index loaded callback docId state =
          .ok (deliver List.length callback state 0 (parts.map (decodeDocValues format)))) ∧
      (∀ (σ : Type) (callback : σ → StoredValues F H Q → Nat → σ × Bool) (state : σ),
        visitMultiVectorDocCompactChunks format meta' index loaded callback docId state =
          .ok (deliver StoredValues.count callback state 0 parts)) := by
  obtain ⟨log, met, both⟩ := bothLoaded resident paged
  have floats := both.simulates.floats docId
  refine ⟨(valuesAt met docId).map Prod.snd, ?_, ?_, ?_, ?_⟩
  · rw [both.sidecar]
    simp only [storage, stored, if_true]
    rw [List.getElem?_map, List.getElem?_range inRange, List.flatMap_map]
    exact congrArg some floats
  · rw [both.vector stored inRange, floats, List.flatMap_map]
  · intro σ callback state
    unfold visitMultiVectorDocVectorChunks
    rw [both.visited stored inRange, deliver_map callback (length_decodeDocValues format)]
    simp only [callbackValues_eq]
  · intro σ callback state
    exact both.visited stored inRange _ state

end Simulating

/-! ### A document over two pages -/

/-- Whole numbers, halves standing for twice their value. -/
def doublingFormat : FloatFormat Int Int Int where
  isFinite _ := true
  isPositive value := decide (0 < value)
  floatToHalf value := value / 2
  halfToFloat value := 2 * value
  docCompactSq8Scale _ := 1
  quantize _ value := value
  dequantize scale value := scale * value

def twoPagesMeta : DocMapMeta where
  documentNodes := true
  dimensions := 2
  nodeCount := 2
  docMapStart := some 7
  pageCount := 2
  docCount := 2
  docMapVersion := docMapVersion
  flags := ⟨true, false, false, false, false, false, false, false, false⟩

/-- The first document's six floats are stored in three chunks of three kinds. -/
def twoPages (blkno : Nat) : Option (List (DocMapTuple Int Int Int)) :=
  if blkno = 7 then
    some [.node 0 [⟨0, 0⟩, ⟨1, 0⟩], .doc 0 [⟨(0, 1), 0, 3, 3, 3⟩, ⟨(0, 2), 1, 1, 1, 1⟩],
      .vector 0 0 [1, 2, 3]]
  else if blkno = 9 then
    some [.vectorF16 0 3 [2], .vectorSq8 0 4 3 [1, 2], .vector 1 0 [5, 6]]
  else none

theorem twoPages_eq_resident : ∃ (sidecar : Sidecar Int) (loaded : PagedStorage Int),
    loadDocMap doublingFormat twoPagesMeta ([7, 9].map (pageTuples twoPages)) = .ok sidecar ∧
    loadPagedDocMap doublingFormat twoPagesMeta false twoPages [7, 9] = .ok loaded ∧
    sidecar.documents[0]?.map Prod.fst = some [1, 2, 3, 4, 3, 6] ∧
    loadMultiVectorDocVector doublingFormat twoPagesMeta twoPages loaded 0 0 =
      .ok [1, 2, 3, 4, 3, 6] := by
  obtain ⟨sidecar, resident⟩ : ∃ sidecar, loadDocMap doublingFormat twoPagesMeta
      ([7, 9].map (pageTuples twoPages)) = .ok sidecar := ⟨_, rfl⟩
  obtain ⟨loaded, paged⟩ : ∃ loaded, loadPagedDocMap doublingFormat twoPagesMeta false twoPages
      [7, 9] = .ok loaded := ⟨_, rfl⟩
  obtain ⟨parts, floats, vector, -, -⟩ :=
    pagedDocMap_eq_resident rfl resident paged 0 0 (by decide)
  have read : (loadPagedDocMap doublingFormat twoPagesMeta false twoPages [7, 9] >>=
      fun loaded => loadMultiVectorDocVector doublingFormat twoPagesMeta twoPages loaded 0 0) =
        .ok [1, 2, 3, 4, 3, 6] := rfl
  rw [paged] at read
  have same := Except.ok.inj (vector.symm.trans read)
  rw [same] at floats vector
  exact ⟨sidecar, loaded, resident, paged, floats, vector⟩

end TurboHybrid.DocMap
