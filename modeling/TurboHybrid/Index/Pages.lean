/-
**The pages of an index, as its readers see them.**

A chain is named by its first block. The code tuples hold each node's heap tuple identifier and its
dead flag; the document statistics, the lexicon and the delta hang off the BM25 metadata.

* `loadDocStats`, `loadHeapTids`: the arrays a reader loads, as long as the node count;
* `loadHeapTids_live`: a node's live flag is that of its code tuple;
* `loadHeapTids_later`: a tuple of a later node changes nothing;
* `loadHeapTids_markCodes`: nor does killing a node that is not live.
-/
import TurboHybrid.Scan.Wand

namespace TurboHybrid.Index

open TurboHybrid.Query TurboHybrid.Scan

variable {R : Type*} [Field R] [LinearOrder R]

/-! ### Tuples -/

abbrev BlockNumber := Nat

structure CodeTuple where
  nodeId : Nat
  heaptid : ItemPointer
  dead : Bool
  deriving DecidableEq, Repr

structure DocStatsTuple where
  startNodeId : Nat
  docs : List Nat
  deriving DecidableEq, Repr

structure LexiconTuple where
  termHash : UInt64
  term : Lexeme
  entry : LexiconEntry

structure DeltaTerm where
  termHash : UInt64
  term : Lexeme
  tf : Nat
  deriving DecidableEq, Repr

structure DeltaTuple where
  nodeId : Nat
  heaptid : ItemPointer
  docLen : Nat
  terms : List DeltaTerm
  deriving DecidableEq, Repr

structure DeltaTermPosting where
  nodeId : Nat
  heaptid : ItemPointer
  docLen : Nat
  tf : Nat
  deriving DecidableEq, Repr

structure DeltaTermTuple where
  termHash : UInt64
  term : Lexeme
  postings : List DeltaTermPosting
  deriving DecidableEq, Repr

/-! ### Metadata -/

/-- The fields of the graph's metapage the BM25 code reads. -/
structure GraphMeta where
  graphFlags : Nat
  graphGeneration : Nat
  tqNodeCount : Nat
  tqNodeCount_le : tqNodeCount ≤ uint32Max

/-- The BM25 metadata: the counters and parameters that enter scores, the generations, and the
chain starts, where `none` is the invalid block. -/
structure Bm25Meta (R : Type*) [Field R] [LinearOrder R] extends ScoringMeta R where
  termCount : Nat
  deltaGeneration : Nat
  lastCompactionGeneration : Nat
  docStatsStartBlkno : Option BlockNumber
  lexiconStartBlkno : Option BlockNumber
  postingsStartBlkno : Option BlockNumber
  blockMaxStartBlkno : Option BlockNumber
  deltaStartBlkno : Option BlockNumber
  deltaTermDirectoryBlkno : Option BlockNumber

/-- An index. The metadata is absent where the metapage names none. A directory of delta terms has
a chain of segments for each bucket. -/
structure IndexPages (R : Type*) [Field R] [LinearOrder R] where
  relid : Nat
  relfilenumber : Nat
  graphMeta : GraphMeta
  codes : List CodeTuple
  bm25Meta : Option (Bm25Meta R)
  docStats : BlockNumber → List DocStatsTuple
  lexicon : BlockNumber → List LexiconTuple
  delta : BlockNumber → List DeltaTuple
  deltaDirectory : BlockNumber → Option (List (List DeltaTermTuple))

def chainFrom {Tuple : Type*} (chain : BlockNumber → List Tuple) (start : Option BlockNumber) :
    List Tuple :=
  (start.map chain).getD []

/-! ### Loading -/

def storeDocLens (nodeCount : Nat) (docLens : List Nat) (tuple : DocStatsTuple) : List Nat :=
  (tuple.docs.zipIdx tuple.startNodeId).foldl
    (fun docLens (docLen, nodeId) => if nodeId < nodeCount then docLens.set nodeId docLen else docLens)
    docLens

/-- The document lengths of all nodes; a node without statistics has none. -/
def loadDocStats (tuples : List DocStatsTuple) (nodeCount : Nat) : List Nat :=
  tuples.foldl (storeDocLens nodeCount) (List.replicate (max nodeCount 1) 0)

/-- The heap tuple identifiers and live flags of all nodes. -/
structure Liveness where
  heapTids : List ItemPointer
  liveNodes : List Bool
  deriving DecidableEq, Repr

def storeHeapTid (nodeCount : Nat) (liveness : Liveness) (tuple : CodeTuple) : Liveness :=
  if tuple.nodeId < nodeCount then
    ⟨liveness.heapTids.set tuple.nodeId tuple.heaptid,
      liveness.liveNodes.set tuple.nodeId (!tuple.dead)⟩
  else liveness

def loadHeapTids (codes : List CodeTuple) (nodeCount : Nat) : Liveness :=
  codes.foldl (storeHeapTid nodeCount)
    ⟨List.replicate (max nodeCount 1) (0, 0), List.replicate (max nodeCount 1) false⟩

theorem storeHeapTid_length (nodeCount : Nat) (liveness : Liveness) (tuple : CodeTuple) :
    (storeHeapTid nodeCount liveness tuple).liveNodes.length = liveness.liveNodes.length := by
  unfold storeHeapTid
  split_ifs
  · exact List.length_set
  · rfl

@[simp] theorem loadHeapTids_length (codes : List CodeTuple) (nodeCount : Nat) :
    (loadHeapTids codes nodeCount).liveNodes.length = max nodeCount 1 := by
  have kept (start : Liveness) :
      (codes.foldl (storeHeapTid nodeCount) start).liveNodes.length = start.liveNodes.length := by
    induction codes generalizing start with
    | nil => rfl
    | cons tuple rest ih => rw [List.foldl_cons, ih, storeHeapTid_length]
  rw [loadHeapTids, kept, List.length_replicate]

theorem loadHeapTids_snoc (codes : List CodeTuple) (tuple : CodeTuple) (nodeCount : Nat) :
    loadHeapTids (codes ++ [tuple]) nodeCount =
      storeHeapTid nodeCount (loadHeapTids codes nodeCount) tuple := by
  rw [loadHeapTids, List.foldl_append]
  rfl

/-- Whether a node is live: its last code tuple is not dead. -/
def nodeLive (codes : List CodeTuple) (nodeId : Nat) : Bool :=
  ((codes.filter fun tuple => tuple.nodeId == nodeId).getLast?.map fun tuple => !tuple.dead).getD
    false

theorem nodeLive_snoc (codes : List CodeTuple) (tuple : CodeTuple) (nodeId : Nat) :
    nodeLive (codes ++ [tuple]) nodeId =
      if tuple.nodeId = nodeId then !tuple.dead else nodeLive codes nodeId := by
  rw [nodeLive, List.filter_append]
  split_ifs with here
  · have last : [tuple].filter (fun tuple => tuple.nodeId == nodeId) = [tuple] := by simp [here]
    rw [last, List.getLast?_append]
    rfl
  · have none : [tuple].filter (fun tuple => tuple.nodeId == nodeId) = [] := by simp [here]
    rw [none, List.append_nil]
    rfl

/-- **A loaded live flag** is the flag of the node's code tuple. -/
theorem loadHeapTids_live (codes : List CodeTuple) {nodeCount nodeId : Nat}
    (inside : nodeId < nodeCount) :
    (loadHeapTids codes nodeCount).liveNodes.getD nodeId false = nodeLive codes nodeId := by
  induction codes using List.reverseRecOn with
  | nil =>
    rw [List.getD_eq_getElem?_getD, loadHeapTids, List.foldl_nil, List.getElem?_replicate]
    split_ifs <;> rfl
  | append_singleton codes tuple ih =>
    rw [loadHeapTids_snoc, nodeLive_snoc]
    by_cases here : tuple.nodeId = nodeId
    · have length : nodeId < (loadHeapTids codes nodeCount).liveNodes.length := by
        rw [loadHeapTids_length]
        omega
      rw [if_pos here, storeHeapTid, if_pos (here ▸ inside), here, List.getD_eq_getElem?_getD,
        List.getElem?_set_self length]
      rfl
    · rw [if_neg here, ← ih, storeHeapTid]
      split_ifs
      · rw [List.getD_eq_getElem?_getD, List.getElem?_set_ne here, ← List.getD_eq_getElem?_getD]
      · rfl

theorem loadHeapTids_later (codes : List CodeTuple) {tuple : CodeTuple} {nodeCount : Nat}
    (later : nodeCount ≤ tuple.nodeId) :
    loadHeapTids (codes ++ [tuple]) nodeCount = loadHeapTids codes nodeCount := by
  rw [loadHeapTids_snoc, storeHeapTid, if_neg (by omega)]

/-! ### Dead nodes -/

def killTuple (nodeId : Nat) (tuple : CodeTuple) : CodeTuple :=
  if tuple.nodeId = nodeId then { tuple with dead := true } else tuple

def markCodes (codes : List CodeTuple) (nodeId : Nat) : List CodeTuple := codes.map (killTuple nodeId)

@[simp] theorem killTuple_nodeId (nodeId : Nat) (tuple : CodeTuple) :
    (killTuple nodeId tuple).nodeId = tuple.nodeId := by
  unfold killTuple
  split_ifs <;> rfl

@[simp] theorem killTuple_heaptid (nodeId : Nat) (tuple : CodeTuple) :
    (killTuple nodeId tuple).heaptid = tuple.heaptid := by
  unfold killTuple
  split_ifs <;> rfl

theorem markCodes_snoc (codes : List CodeTuple) (tuple : CodeTuple) (nodeId : Nat) :
    markCodes (codes ++ [tuple]) nodeId = markCodes codes nodeId ++ [killTuple nodeId tuple] := by
  rw [markCodes, List.map_append]
  rfl

theorem nodeLive_markCodes (codes : List CodeTuple) (nodeId other : Nat) :
    nodeLive (markCodes codes nodeId) other =
      if other = nodeId then false else nodeLive codes other := by
  induction codes using List.reverseRecOn with
  | nil => split_ifs <;> rfl
  | append_singleton codes tuple ih =>
    rw [markCodes_snoc, nodeLive_snoc, nodeLive_snoc, ih, killTuple_nodeId]
    by_cases here : tuple.nodeId = other
    · by_cases marked : other = nodeId
      · simp [killTuple, here, marked]
      · simp [killTuple, here, marked]
    · simp [here]

theorem loadHeapTids_heapTids (codes : List CodeTuple) (nodeId nodeCount : Nat) :
    (loadHeapTids (markCodes codes nodeId) nodeCount).heapTids =
      (loadHeapTids codes nodeCount).heapTids := by
  induction codes using List.reverseRecOn with
  | nil => rfl
  | append_singleton codes tuple ih =>
    rw [markCodes_snoc, loadHeapTids_snoc, loadHeapTids_snoc, storeHeapTid, storeHeapTid,
      killTuple_nodeId, killTuple_heaptid]
    split_ifs
    · show List.set _ _ _ = List.set _ _ _
      rw [ih]
    · exact ih

theorem loadHeapTids_none (codes : List CodeTuple) :
    (loadHeapTids codes 0).liveNodes = [false] := by
  induction codes using List.reverseRecOn with
  | nil => rfl
  | append_singleton codes tuple ih => rw [loadHeapTids_later codes (Nat.zero_le _), ih]

/-- **Killing a node that is not live** is not seen. -/
theorem loadHeapTids_markCodes {codes : List CodeTuple} {nodeId : Nat} (nodeCount : Nat)
    (dead : nodeLive codes nodeId = false) :
    loadHeapTids (markCodes codes nodeId) nodeCount = loadHeapTids codes nodeCount := by
  have flags : (loadHeapTids (markCodes codes nodeId) nodeCount).liveNodes =
      (loadHeapTids codes nodeCount).liveNodes := by
    rcases Nat.eq_zero_or_pos nodeCount with rfl | positive
    · rw [loadHeapTids_none, loadHeapTids_none]
    · have length := loadHeapTids_length codes nodeCount
      have length' := loadHeapTids_length (markCodes codes nodeId) nodeCount
      refine List.ext_getElem (length'.trans length.symm) fun index inside inside' => ?_
      have below : index < nodeCount := by omega
      have one := loadHeapTids_live (markCodes codes nodeId) below
      have other := loadHeapTids_live codes below
      rw [List.getD_eq_getElem?_getD, List.getElem?_eq_getElem inside, Option.getD_some] at one
      rw [List.getD_eq_getElem?_getD, List.getElem?_eq_getElem inside', Option.getD_some] at other
      rw [one, other, nodeLive_markCodes]
      split_ifs with here
      · rw [here, dead]
      · rfl
  have tids := loadHeapTids_heapTids codes nodeId nodeCount
  cases marked : loadHeapTids (markCodes codes nodeId) nodeCount
  cases unmarked : loadHeapTids codes nodeCount
  rw [marked, unmarked] at flags tids
  exact congrArg₂ Liveness.mk tids flags

end TurboHybrid.Index
