/-
**The native cache after an insert.**

An insert searches the cache of its backend, writes its tuples and the metapage, and then adds its
node to the cache. Blocks of memory have numbers; an enlarged array stays in its block or moves to a
new one, and a pointer names a block and an element.

* `insertValue`: an insert over the pages, the metapage and the caches of the index;
* `UpToDate`: the cache is accepted and has what a new build would load, behind valid pointers;
* `insertCache_stale`: after no insert is the cache up to date.
-/
import TurboHybrid.Graph.PayloadRefs
import TurboHybrid.Graph.Repair
import TurboHybrid.Quant.Codes

namespace TurboHybrid.Graph.InsertCache

open PayloadRefs (PayloadRef slotRefs sortRefs)

/-! ### The pages -/

/-- `PgturbohybridGraphSegmentMetaData`. -/
structure Segment where
  startNodeId : Nat
  nodeCount : Nat
  entryNodeId : Nat
  entryLevel : Int
  codeStartBlkno : Nat
  adjStartBlkno : Nat
  exactStartBlkno : Nat
  correctionStartBlkno : Nat
  deriving DecidableEq, Repr

/-- The fields of the metapage that a cache copies. -/
structure MetaFields where
  dimensions : Nat
  m : Nat
  graphMaxLevel : Nat
  graphFlags : Nat
  graphGeneration : Nat
  tqNodeCount : Nat
  tqEntryNodeId : Nat
  tqCodeBytes : Nat
  tqBits : Nat
  tqPayloadCount : Nat
  tqPayloadBytes : Nat
  tqResidualRerankBytes : Nat
  tqCodeStartBlkno : Nat
  tqAdjStartBlkno : Nat
  tqExactStartBlkno : Nat
  tqCorrectionStartBlkno : Nat
  tqMultivectorDocMapStartBlkno : Nat
  tqMultivectorDocMapPageCount : Nat
  tqMultivectorDocCount : Nat
  tqMultivectorDocMapBytes : Nat
  tqMultivectorDocMapVersion : Nat
  tqMultivectorDocMapFlags : Nat
  tqMultivectorGraphMode : Nat
  tqSegments : List Segment
  deriving DecidableEq, Repr

structure CodeTuple where
  nodeId : Nat
  heaptid : Nat
  level : Nat
  flags : Nat
  exactBlkno : Nat
  exactOffno : Nat
  payloadMask : BitVec 16
  scale : Nat
  norm : Nat
  correction : Nat
  ecCorrection : Nat
  payloads : List Int
  residual : List UInt8
  code : List UInt8
  deriving DecidableEq

structure AdjTuple where
  nodeId : Nat
  level : Nat
  neighbors : List Nat
  blkno : Nat
  offno : Nat
  deriving DecidableEq

/-- The index: tuples in the order of their chains, exact vectors by their place. -/
structure Index where
  relid : Nat
  relfilenumber : Nat
  page : MetaFields
  codeTuples : List CodeTuple
  adjTuples : List AdjTuple
  readExactVector : Nat → Nat → Option (List Nat)

def invalidBlockNumber : Nat := 4294967295

/-! ### The cache -/

structure Pointer where
  block : Nat
  element : Nat
  deriving DecidableEq, Repr

structure Arena (Cell : Type) where
  block : Nat
  cells : List (List Cell)
  deriving DecidableEq

def Arena.pointer {Cell : Type} (arena : Arena Cell) (nodeId : Nat) : Pointer :=
  ⟨arena.block, nodeId⟩

structure ScanNode where
  heaptid : Nat
  level : Nat
  exactBlkno : Nat
  exactOffno : Nat
  payloadMask : BitVec 16
  scale : Nat
  norm : Nat
  codeNorm : Nat
  ecCorrection : Nat
  flags : Nat
  loaded : Bool
  code : Option Pointer
  payloads : Option Pointer
  residualSketch : Option Pointer
  exactVector : Option Pointer
  deriving DecidableEq

def ScanNode.zero : ScanNode := ⟨0, 0, 0, 0, 0, 0, 0, 0, 0, 0, false, none, none, none, none⟩

structure Storage where
  nodes : List ScanNode
  codeArena : Option (Arena UInt8)
  payloadArena : Option (Arena Int)
  residualArena : Option (Arena UInt8)
  exactArena : Option (Arena Nat)
  neighbors : List (List Nat)
  adjLocations : List (Option (Nat × Nat))
  payloadRefs : List PayloadRef
  deriving DecidableEq

structure Cache where
  relid : Nat
  relfilenumber : Nat
  fields : MetaFields
  multivectorDocSidecarResident : Bool
  storage : Storage
  deriving DecidableEq

/-- What an insert takes from the settings and the allocator: which metapages are cached, with exact
vectors or documents, and whether an array in a block can grow in place. -/
structure Settings where
  usesCache : MetaFields → Bool
  cacheExactVectors : MetaFields → Bool
  cachesDocSidecar : MetaFields → Bool
  exactStorage : Bool
  stays : Nat → Nat → Bool

variable (settings : Settings)

/-- `PgturbohybridGraphCacheMatches`. -/
def cacheMatches (cache : Cache) (index : Index) : Bool :=
  cache.relid == index.relid && cache.relfilenumber == index.relfilenumber &&
    cache.fields == index.page &&
    cache.multivectorDocSidecarResident == settings.cachesDocSidecar index.page

/-! ### A new cache -/

/-- `palloc0` of an array with one cell for each node. -/
def pallocArena {Cell : Type} (zero : Cell) (block count width : Nat) : Option (Arena Cell) :=
  if 0 < count ∧ 0 < width then some ⟨block, List.replicate count (List.replicate width zero)⟩
  else none

/-- `PgturbohybridGraphInitScanStorageUncached` in four fresh blocks. -/
def initScanStorageUncached (info : MetaFields) (block : Nat) : Storage where
  nodes := List.replicate info.tqNodeCount .zero
  codeArena := pallocArena 0 block info.tqNodeCount info.tqCodeBytes
  payloadArena := pallocArena 0 (block + 1) info.tqNodeCount (info.tqPayloadBytes / 4)
  residualArena := pallocArena 0 (block + 2) info.tqNodeCount info.tqResidualRerankBytes
  exactArena :=
    if settings.cacheExactVectors info then
      pallocArena 0 (block + 3) info.tqNodeCount info.dimensions
    else none
  neighbors := List.replicate (info.tqNodeCount * levelCapacity info.m) []
  adjLocations := List.replicate (info.tqNodeCount * levelCapacity info.m) none
  payloadRefs := []

def Arena.write {Cell : Type} (arena : Arena Cell) (nodeId : Nat) (cell : List Cell) : Arena Cell :=
  { arena with cells := arena.cells.set nodeId cell }

/-- One tuple of `PgturbohybridGraphLoadCodePage`. -/
def loadCodeTuple (info : MetaFields) (storage : Storage) (tuple : CodeTuple) : Storage :=
  if tuple.nodeId < info.tqNodeCount then
    let node : ScanNode :=
      { heaptid := tuple.heaptid
        level := tuple.level
        exactBlkno := tuple.exactBlkno
        exactOffno := tuple.exactOffno
        payloadMask := tuple.payloadMask
        scale := tuple.scale
        norm := tuple.norm
        codeNorm := tuple.correction
        ecCorrection := tuple.ecCorrection
        flags := tuple.flags
        loaded := true
        code := storage.codeArena.map (Arena.pointer · tuple.nodeId)
        payloads := storage.payloadArena.map (Arena.pointer · tuple.nodeId)
        residualSketch := storage.residualArena.map (Arena.pointer · tuple.nodeId)
        exactVector := none }
    { storage with
      nodes := storage.nodes.set tuple.nodeId node
      codeArena := storage.codeArena.map (Arena.write · tuple.nodeId tuple.code)
      payloadArena := storage.payloadArena.map (Arena.write · tuple.nodeId tuple.payloads)
      residualArena := storage.residualArena.map (Arena.write · tuple.nodeId tuple.residual) }
  else storage

def adjSlot (info : MetaFields) (nodeId level : Nat) : Nat := nodeId * levelCapacity info.m + level

/-- One tuple of `PgturbohybridGraphLoadAllAdjPages`. -/
def loadAdjTuple (info : MetaFields) (storage : Storage) (tuple : AdjTuple) : Storage :=
  if info.tqNodeCount ≤ tuple.nodeId ∨ info.graphMaxLevel < tuple.level ∨
      levelCapacity info.m ≤ tuple.level ∨ levelM info.m tuple.level < tuple.neighbors.length then
    storage
  else
    let slot := adjSlot info tuple.nodeId tuple.level
    { storage with
      neighbors := storage.neighbors.set slot tuple.neighbors
      adjLocations := storage.adjLocations.set slot (some (tuple.blkno, tuple.offno)) }

/-- `PgturbohybridGraphLoadExactVectors`: it stops at a vector that cannot be read. -/
def loadExactVectors (index : Index) : List Nat → Storage → Storage
  | [], storage => storage
  | nodeId :: rest, storage =>
    match storage.nodes[nodeId]?, storage.exactArena with
    | some node, some arena =>
      if node.loaded then
        match index.readExactVector node.exactBlkno node.exactOffno with
        | some vector =>
          loadExactVectors index rest
            { storage with
              nodes := storage.nodes.set nodeId { node with exactVector := some (arena.pointer nodeId) }
              exactArena := some (arena.write nodeId vector) }
        | none => storage
      else loadExactVectors index rest storage
    | _, _ => storage

def Storage.payload (storage : Storage) (nodeId slot : Nat) : Int :=
  ((storage.payloadArena.bind fun arena => arena.cells[nodeId]?).bind (·[slot]?)).getD 0

/-- `PgturbohybridGraphBuildPayloadRefs`. -/
def buildPayloadRefs (info : MetaFields) (storage : Storage) : Storage :=
  if info.tqPayloadCount = 0 ∨ info.tqPayloadBytes = 0 then storage
  else
    let refs := storage.nodes.zipIdx.flatMap fun entry =>
      if entry.1.loaded = false ∨ entry.1.payloads = none ∨ entry.1.flags % 2 = 1 then []
      else slotRefs info.tqPayloadCount entry.2 (storage.payload entry.2) entry.1.payloadMask
    { storage with payloadRefs := sortRefs refs }

/-- **`PgturbohybridGraphBuildCache`** in four fresh blocks. -/
def buildCache (index : Index) (block : Nat) : Cache :=
  let info := index.page
  let storage := initScanStorageUncached settings info block
  let storage :=
    if storage.codeArena.isSome then index.codeTuples.foldl (loadCodeTuple info) storage
    else storage
  let storage := buildPayloadRefs info storage
  let storage := index.adjTuples.foldl (loadAdjTuple info) storage
  let storage :=
    if storage.exactArena.isSome ∧ info.tqExactStartBlkno ≠ invalidBlockNumber then
      loadExactVectors index (List.range info.tqNodeCount) storage
    else storage
  { relid := index.relid
    relfilenumber := index.relfilenumber
    fields := info
    multivectorDocSidecarResident := settings.cachesDocSidecar info
    storage := storage }

/-! ### An insert -/

/-- What an insert brings: the tuple of its node, the lists it has selected and written for others,
and the places where its tuples land. -/
structure Row where
  heaptid : Nat
  vector : List Nat
  nodeLevel : Nat
  code : List UInt8
  residualSketch : Option (List UInt8)
  scale : Nat
  norm : Nat
  codeNorm : Nat
  ecCorrection : Nat
  payloads : Option (List Int)
  payloadMask : BitVec 16
  selected : Nat → List Nat
  reciprocal : List (Nat × Nat × List Nat)
  codeBlkno : Nat
  exactPlace : Nat × Nat
  adjPlace : Nat → Nat × Nat

/-- The start of a chain behind a tuple that was appended to it. -/
def chainStart (start blkno : Nat) : Nat := if start = invalidBlockNumber then blkno else start

def exactStart (info : MetaFields) (row : Row) : Nat :=
  if settings.exactStorage then chainStart info.tqExactStartBlkno row.exactPlace.1
  else info.tqExactStartBlkno

def exactPlace (row : Row) : Nat × Nat :=
  if settings.exactStorage then row.exactPlace else (invalidBlockNumber, 0)

def entryNodeId (info : MetaFields) (row : Row) : Nat :=
  if info.tqNodeCount = 0 ∨ info.graphMaxLevel < row.nodeLevel then info.tqNodeCount
  else info.tqEntryNodeId

/-- `PgturbohybridGraphUpdateAdjTuple` on the pages. -/
def updateAdjTuple : List AdjTuple → Nat × Nat × List Nat → List AdjTuple
  | [], _ => []
  | tuple :: rest, list =>
    if tuple.nodeId = list.1 ∧ tuple.level = list.2.1 then
      { tuple with neighbors := list.2.2 } :: rest
    else tuple :: updateAdjTuple rest list

def updateCachedList (info : MetaFields) (storage : Storage) (list : Nat × Nat × List Nat) :
    Storage :=
  { storage with neighbors := storage.neighbors.set (adjSlot info list.1 list.2.1) list.2.2 }

/-- The tuples of the row behind those of the others. -/
def appendTuples (index : Index) (row : Row) : Index :=
  let info := index.page
  let place := exactPlace settings row
  let tuple : CodeTuple :=
    { nodeId := info.tqNodeCount
      heaptid := row.heaptid
      level := row.nodeLevel
      flags := 0
      exactBlkno := place.1
      exactOffno := place.2
      payloadMask := row.payloadMask
      scale := row.scale
      norm := row.norm
      correction := row.codeNorm
      ecCorrection := row.ecCorrection
      payloads := row.payloads.getD (List.replicate (info.tqPayloadBytes / 4) 0)
      residual := row.residualSketch.getD (List.replicate info.tqResidualRerankBytes 0)
      code := row.code }
  { index with
    codeTuples := index.codeTuples ++ [tuple]
    adjTuples := index.adjTuples ++
      (List.range (min row.nodeLevel (levelCapacity info.m - 1) + 1)).map fun level =>
        ⟨info.tqNodeCount, level, row.selected level, (row.adjPlace level).1, (row.adjPlace level).2⟩
    readExactVector := fun blkno offno =>
      if settings.exactStorage ∧ (blkno, offno) = row.exactPlace then some row.vector
      else index.readExactVector blkno offno }

def maxAlign (bytes : Nat) : Nat := (bytes + 7) / 8 * 8

/-- `PgturbohybridGraphCodeBytesForBits`. -/
def codeBytesForBits (dimensions bits : Nat) : Nat :=
  maxAlign (Quant.tqCodeSizeForBits dimensions bits)

/-- `PgturbohybridQuantUpdateMetaPageFromUpdate` with the update of an insert. -/
def updateMetaPage (info : MetaFields) (row : Row) : Except GraphError MetaFields :=
  if info.graphGeneration = uint64Max then .error .generationExhausted
  else
    .ok { info with
      dimensions := row.vector.length
      graphMaxLevel := max info.graphMaxLevel row.nodeLevel
      graphGeneration := if info.graphGeneration = 0 then 1 else info.graphGeneration + 1
      tqNodeCount := info.tqNodeCount + 1
      tqEntryNodeId := entryNodeId info row
      tqCodeBytes :=
        if 0 < row.vector.length then codeBytesForBits row.vector.length info.tqBits else 0
      tqBits := if info.tqBits ≠ 0 then info.tqBits else 4
      tqPayloadBytes := maxAlign (4 * info.tqPayloadCount)
      tqCodeStartBlkno := chainStart info.tqCodeStartBlkno row.codeBlkno
      tqAdjStartBlkno := chainStart info.tqAdjStartBlkno (row.adjPlace 0).1
      tqExactStartBlkno := exactStart settings info row }

/-- `repalloc` of an array for one more node. -/
def Arena.grow {Cell : Type} (arena : Arena Cell) (block : Nat) (cell : List Cell) : Arena Cell :=
  { block := if settings.stays arena.block (arena.cells.length + 1) then arena.block else block
    cells := arena.cells ++ [cell] }

def addedRefs (info : MetaFields) (row : Row) : List PayloadRef :=
  match row.payloads with
  | none => []
  | some payloads =>
    if 0 < info.tqPayloadBytes ∧ row.payloadMask ≠ 0 then
      slotRefs info.tqPayloadCount info.tqNodeCount (fun slot => (payloads[slot]?).getD 0)
        row.payloadMask
    else []

/-- The storage with the node of the row; arrays that move get fresh blocks. -/
def appendNode (info : MetaFields) (storage : Storage) (row : Row) (block : Nat) : Storage :=
  let nodeId := info.tqNodeCount
  let place := exactPlace settings row
  let codeArena := storage.codeArena.map (Arena.grow settings · block row.code)
  let payloadArena := storage.payloadArena.map (Arena.grow settings · (block + 1)
    (row.payloads.getD (List.replicate (info.tqPayloadBytes / 4) 0)))
  let residualArena := storage.residualArena.map (Arena.grow settings · (block + 2)
    (row.residualSketch.getD (List.replicate info.tqResidualRerankBytes 0)))
  let exactArena := storage.exactArena.map (Arena.grow settings · (block + 3) row.vector)
  let node : ScanNode :=
    { heaptid := row.heaptid
      level := row.nodeLevel
      exactBlkno := place.1
      exactOffno := place.2
      payloadMask := row.payloadMask
      scale := row.scale
      norm := row.norm
      codeNorm := row.codeNorm
      ecCorrection := row.ecCorrection
      flags := 0
      loaded := true
      code := codeArena.map (Arena.pointer · nodeId)
      payloads := payloadArena.map (Arena.pointer · nodeId)
      residualSketch := residualArena.map (Arena.pointer · nodeId)
      exactVector := exactArena.map (Arena.pointer · nodeId) }
  let levels := List.range (levelCapacity info.m)
  { nodes := storage.nodes ++ [node]
    codeArena := codeArena
    payloadArena := payloadArena
    residualArena := residualArena
    exactArena := exactArena
    neighbors := storage.neighbors ++ levels.map fun level =>
      if level ≤ row.nodeLevel then row.selected level else []
    adjLocations := storage.adjLocations ++ levels.map fun level =>
      if level ≤ row.nodeLevel then some (row.adjPlace level) else none
    payloadRefs :=
      if (addedRefs info row).length = 0 then storage.payloadRefs
      else sortRefs (storage.payloadRefs ++ addedRefs info row) }

/-- **`PgturbohybridGraphAppendInsertCacheNode`** -/
def appendInsertCacheNode (info : MetaFields) (cache : Cache) (row : Row) (block : Nat) : Cache :=
  if info.tqNodeCount ≠ cache.fields.tqNodeCount then cache
  else
    { cache with
      storage := appendNode settings info cache.storage row block
      fields := { cache.fields with
        tqNodeCount := cache.fields.tqNodeCount + 1
        tqEntryNodeId := entryNodeId info row
        graphMaxLevel := max info.graphMaxLevel row.nodeLevel
        tqResidualRerankBytes := info.tqResidualRerankBytes
        tqCodeStartBlkno := chainStart info.tqCodeStartBlkno row.codeBlkno
        tqAdjStartBlkno := chainStart info.tqAdjStartBlkno (row.adjPlace 0).1
        tqExactStartBlkno := exactStart settings info row } }

/-- The index, the caches that its backend has for it, and the first block not yet used. -/
structure State where
  index : Index
  caches : List Cache
  freshBlock : Nat

/-- `PgturbohybridGraphInitInsertStorage`: the cache that an insert uses, before the others. The
caches that do not match are dropped. -/
def initInsertStorage (state : State) : Option (Cache × List Cache) :=
  if settings.usesCache state.index.page = false ∨
      state.index.page.tqMultivectorDocMapStartBlkno ≠ invalidBlockNumber then none
  else
    match state.caches.filter (cacheMatches settings · state.index) with
    | cache :: rest => some (cache, rest)
    | [] => some (buildCache settings state.index state.freshBlock, [])

/-- **An insert** and the cache that it has updated. -/
def insertValue (state : State) (row : Row) : Except GraphError (State × Option Cache) :=
  let info := state.index.page
  let lists := if 0 < info.tqNodeCount then row.reciprocal else []
  let linked := { state.index with adjTuples := lists.foldl updateAdjTuple state.index.adjTuples }
  let appended := appendTuples settings linked row
  (updateMetaPage settings info row).map fun page =>
    let index := { appended with page := page }
    if info.tqNodeCount = 0 then (⟨index, state.caches, state.freshBlock⟩, none)
    else
      match initInsertStorage settings state with
      | none => (⟨index, state.caches, state.freshBlock⟩, none)
      | some (cache, others) =>
        let searched :=
          { cache with storage := lists.foldl (updateCachedList info) cache.storage }
        let updated := appendInsertCacheNode settings info searched row (state.freshBlock + 4)
        (⟨index, updated :: others, state.freshBlock + 8⟩, some updated)

/-! ### What a cache has to be -/

def Arena.Inside {Cell : Type} (arena : Arena Cell) (pointer : Pointer) : Prop :=
  pointer.block = arena.block ∧ pointer.element < arena.cells.length

/-- The pointer of a node, if any, points into the array that the cache has. -/
def InArena {Cell : Type} (arena : Option (Arena Cell)) (pointer : Option Pointer) : Prop :=
  ∀ target ∈ pointer, ∃ owned ∈ arena, owned.Inside target

structure PointersInside (storage : Storage) : Prop where
  code : ∀ node ∈ storage.nodes, InArena storage.codeArena node.code
  payloads : ∀ node ∈ storage.nodes, InArena storage.payloadArena node.payloads
  residualSketch : ∀ node ∈ storage.nodes, InArena storage.residualArena node.residualSketch
  exactVector : ∀ node ∈ storage.nodes, InArena storage.exactArena node.exactVector

def deref {Cell : Type} (arena : Option (Arena Cell)) (pointer : Option Pointer) :
    Option (List Cell) :=
  pointer.bind fun target => arena.bind fun owned =>
    if target.block = owned.block then owned.cells[target.element]? else none

/-- A node with what stands behind its pointers. -/
structure NodeContent where
  fields : ScanNode
  code : Option (List UInt8)
  payloads : Option (List Int)
  residualSketch : Option (List UInt8)
  exactVector : Option (List Nat)
  deriving DecidableEq

def Storage.nodeContent (storage : Storage) (node : ScanNode) : NodeContent where
  fields := { node with code := none, payloads := none, residualSketch := none, exactVector := none }
  code := deref storage.codeArena node.code
  payloads := deref storage.payloadArena node.payloads
  residualSketch := deref storage.residualArena node.residualSketch
  exactVector := deref storage.exactArena node.exactVector

/-- The same nodes, adjacency and references in both. -/
structure SameContent (storage built : Storage) : Prop where
  nodes : storage.nodes.map storage.nodeContent = built.nodes.map built.nodeContent
  neighbors : storage.neighbors = built.neighbors
  adjLocations : storage.adjLocations = built.adjLocations
  payloadRefs : storage.payloadRefs = built.payloadRefs

/-- **A cache is up to date**: it is accepted, equals a new build and points into its own arrays. -/
structure UpToDate (index : Index) (cache : Cache) : Prop where
  accepted : cacheMatches settings cache index = true
  content : SameContent cache.storage (buildCache settings index 0).storage
  pointers : PointersInside cache.storage

/-! ### The generation -/

theorem cacheMatches_fields {cache : Cache} {index : Index}
    (accepted : cacheMatches settings cache index = true) : cache.fields = index.page := by
  unfold cacheMatches at accepted
  rw [Bool.and_eq_true, Bool.and_eq_true] at accepted
  exact eq_of_beq accepted.1.2

theorem initInsertStorage_generation {state : State} {cache : Cache} {others : List Cache}
    (used : initInsertStorage settings state = some (cache, others)) :
    cache.fields.graphGeneration = state.index.page.graphGeneration := by
  unfold initInsertStorage at used
  split_ifs at used
  cases kept : state.caches.filter (cacheMatches settings · state.index) with
  | nil =>
    rw [kept] at used
    obtain ⟨rfl, -⟩ := Prod.mk.inj (Option.some.inj used)
    rfl
  | cons first rest =>
    rw [kept] at used
    obtain ⟨rfl, -⟩ := Prod.mk.inj (Option.some.inj used)
    have member : first ∈ state.caches.filter (cacheMatches settings · state.index) := by
      rw [kept]
      exact List.mem_cons_self
    rw [cacheMatches_fields settings (List.mem_filter.mp member).2]

theorem appendInsertCacheNode_generation (info : MetaFields) (cache : Cache) (row : Row)
    (block : Nat) :
    (appendInsertCacheNode settings info cache row block).fields.graphGeneration =
      cache.fields.graphGeneration := by
  unfold appendInsertCacheNode
  split_ifs <;> rfl

theorem updateMetaPage_generation {info page : MetaFields} {row : Row}
    (published : updateMetaPage settings info row = .ok page) :
    info.graphGeneration < page.graphGeneration := by
  unfold updateMetaPage at published
  by_cases exhausted : info.graphGeneration = uint64Max
  · rw [if_pos exhausted] at published
    cases published
  · rw [if_neg exhausted] at published
    rw [← Except.ok.inj published]
    dsimp only
    split_ifs with zero <;> omega

theorem insertValue_generation {state next : State} {row : Row} {cache : Cache}
    (done : insertValue settings state row = .ok (next, some cache)) :
    cache.fields.graphGeneration < next.index.page.graphGeneration := by
  unfold insertValue at done
  dsimp only at done
  cases published : updateMetaPage settings state.index.page row with
  | error error =>
    rw [published] at done
    cases done
  | ok page =>
    rw [published] at done
    have later := updateMetaPage_generation settings published
    have same := Except.ok.inj done
    dsimp only at same
    by_cases empty : state.index.page.tqNodeCount = 0
    · rw [if_pos empty] at same
      cases same
    · rw [if_neg empty] at same
      cases used : initInsertStorage settings state with
      | none =>
        rw [used] at same
        cases same
      | some found =>
        rw [used] at same
        obtain ⟨rfl, updated⟩ := Prod.mk.inj same
        obtain rfl := Option.some.inj updated
        rw [appendInsertCacheNode_generation]
        dsimp only
        rw [initInsertStorage_generation settings used]
        exact later

/-! ### Runs of inserts -/

def insertRows (state : State) (rows : List Row) : Except GraphError State :=
  rows.foldlM (fun state row => (insertValue settings state row).map Prod.fst) state

/-- **No insert leaves a cache up to date.** From whatever state, after any inserts, the cache that
the next one has updated does not match the metapage it has published. -/
theorem insertCache_stale (state : State) (rows : List Row) (row : Row) :
    ¬∃ before next cache, insertRows settings state rows = .ok before ∧
      insertValue settings before row = .ok (next, some cache) ∧
      UpToDate settings next.index cache := by
  rintro ⟨before, next, cache, -, done, upToDate⟩
  have older := insertValue_generation settings done
  rw [cacheMatches_fields settings upToDate.accepted] at older
  exact lt_irrefl _ older

/-! ### An insert into a graph of one node -/

def plainSettings : Settings where
  usesCache _ := true
  cacheExactVectors _ := false
  cachesDocSidecar _ := true
  exactStorage := false
  stays _ _ := true

def oneNodePage : MetaFields where
  dimensions := 1
  m := 2
  graphMaxLevel := 0
  graphFlags := 0
  graphGeneration := 1
  tqNodeCount := 1
  tqEntryNodeId := 0
  tqCodeBytes := 8
  tqBits := 4
  tqPayloadCount := 0
  tqPayloadBytes := 0
  tqResidualRerankBytes := 0
  tqCodeStartBlkno := 1
  tqAdjStartBlkno := 2
  tqExactStartBlkno := invalidBlockNumber
  tqCorrectionStartBlkno := invalidBlockNumber
  tqMultivectorDocMapStartBlkno := invalidBlockNumber
  tqMultivectorDocMapPageCount := 0
  tqMultivectorDocCount := 0
  tqMultivectorDocMapBytes := 0
  tqMultivectorDocMapVersion := 0
  tqMultivectorDocMapFlags := 0
  tqMultivectorGraphMode := 0
  tqSegments := []

def oneNodeIndex : Index where
  relid := 16384
  relfilenumber := 16384
  page := oneNodePage
  codeTuples :=
    [{ nodeId := 0, heaptid := 1, level := 0, flags := 0, exactBlkno := invalidBlockNumber
       exactOffno := 0, payloadMask := 0, scale := 1, norm := 1, correction := 1, ecCorrection := 0
       payloads := [], residual := [], code := [5, 0, 0, 0, 0, 0, 0, 0] }]
  adjTuples := [⟨0, 0, [], 2, 1⟩]
  readExactVector _ _ := none

def oneNodeState : State where
  index := oneNodeIndex
  caches := [buildCache plainSettings oneNodeIndex 0]
  freshBlock := 4

def secondRow : Row where
  heaptid := 2
  vector := [1065353216]
  nodeLevel := 0
  code := [9, 0, 0, 0, 0, 0, 0, 0]
  residualSketch := none
  scale := 1
  norm := 1
  codeNorm := 1
  ecCorrection := 0
  payloads := none
  payloadMask := 0
  selected _ := [0]
  reciprocal := [(0, 0, [1])]
  codeBlkno := 1
  exactPlace := (invalidBlockNumber, 0)
  adjPlace _ := (2, 2)

/-- The cache of the first node is up to date, and no longer after the second one is inserted. -/
theorem insertCache_secondRow :
    (∃ cache ∈ oneNodeState.caches, UpToDate plainSettings oneNodeIndex cache) ∧
      ∃ next cache, insertValue plainSettings oneNodeState secondRow = .ok (next, some cache) ∧
        ¬UpToDate plainSettings next.index cache := by
  constructor
  · refine ⟨_, List.mem_cons_self, ?_, ⟨rfl, rfl, rfl, rfl⟩, ?_⟩
    · decide +kernel
    · have code : ∀ node ∈ (buildCache plainSettings oneNodeIndex 0).storage.nodes,
          node.code = some ⟨0, 0⟩ ∧ node.payloads = none ∧ node.residualSketch = none ∧
            node.exactVector = none := by
        decide +kernel
      refine ⟨?_, ?_, ?_, ?_⟩
      all_goals
        intro node member target pointer
        obtain ⟨codeAt, payloads, residual, exact_⟩ := code node member
      · rw [codeAt] at pointer
        obtain rfl := Option.some.inj pointer
        exact ⟨⟨0, [[5, 0, 0, 0, 0, 0, 0, 0]]⟩, rfl, rfl, Nat.one_pos⟩
      · rw [payloads] at pointer
        cases pointer
      · rw [residual] at pointer
        cases pointer
      · rw [exact_] at pointer
        cases pointer
  · refine ⟨_, _, rfl, fun upToDate => ?_⟩
    have accepted := upToDate.accepted
    revert accepted
    decide +kernel

end TurboHybrid.Graph.InsertCache
