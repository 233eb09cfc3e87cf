/-
**Postings tuples: the bytes of a chunk.**

The writer picks one of four payloads by the gaps between node ids and by whether norms are stored;
the scalar decoder reads all four, the vector kernels read the two of offsets with norms.

* `encodePostingsTuple`, `decodePostingsTuple`: writer and scalar decoder;
* `decode_encode`: what was written is read back;
* `payloadBytes_le`, `postingsTupleSize_le`: the payload fits its field and the tuple a page;
* `vectorPostings_eq`: the vector kernels' lanes read what the scalar decoder reads;
* `postingCodec_spec`: all of it for a list of postings as the writers are called with.
-/
import TurboHybrid.Index.Posting
import TurboHybrid.Library.Bytes

namespace TurboHybrid.Index

open TurboHybrid.Library

/-! ### Sizes -/

def maxAlign (size : Nat) : Nat := (size + 7) / 8 * 8

def payloadOffset : Nat := 40

/-- Where the postings of a tuple in the old layout start. -/
def encodingOffset : Nat := 28

def postingsTupleSize (payloadBytes : Nat) : Nat := maxAlign (payloadOffset + payloadBytes)

def legacyPostingsTupleSize (count : Nat) : Nat := maxAlign (encodingOffset + 8 * count)

/-- What an empty page offers to its first item: less the page header, the page's own data and the
item's pointer. -/
def pageCapacity : Nat := 8192 - 24 - 8 - 4

def maxPostingsPerChunk : Nat :=
  let maxItemSize := 8192 / 2 - 24 - 8
  let maxCount := (maxItemSize - payloadOffset) / (varintLen uint32Max + varintLen uint16Max)
  min (max maxCount 1) uint16Max

theorem maxPostingsPerChunk_eq : maxPostingsPerChunk = 503 := by
  have long : varintLen uint32Max = 5 := by simp [varintLen, uint32Max]
  have short : varintLen uint16Max = 3 := by simp [varintLen, uint16Max]
  unfold maxPostingsPerChunk
  rw [long, short]
  rfl

/-! ### Tuples -/

inductive PostingsEncoding where
  | deltaVarint
  | delta16
  | offset16
  | offset16Soa
  deriving DecidableEq, Repr

/-- A postings tuple. The links to the next chunk are set when that is written. -/
structure PostingsTuple where
  count : Nat
  termId : Nat
  chunkNo : Nat
  firstNodeId : Nat
  lastNodeId : Nat
  next : Option (Nat × Nat)
  maxTf : Nat
  encoding : PostingsEncoding
  tfNorm : Bool
  maxTfNormQ16 : Nat
  payloadBytes : Nat
  payload : List UInt8

inductive CodecError where
  | notSorted
  | notDelta16
  | notOffset16
  deriving DecidableEq, Repr

def CodecError.message : CodecError → String
  | .notSorted => "pgturbohybrid BM25 postings are not sorted by node id"
  | .notDelta16 => "pgturbohybrid BM25 postings are not delta16 encodable"
  | .notOffset16 => "pgturbohybrid BM25 postings are not offset16 encodable"

/-! ### The writer -/

/-- A node and its term frequency, as the writers get them. -/
structure TermPosting where
  nodeId : Nat
  tf : Nat
  deriving DecidableEq, Repr

def canUseDelta16 (prevNodeId nodeId : Nat) : Bool :=
  decide (prevNodeId ≤ nodeId) && decide (nodeId - prevNodeId ≤ uint16Max)

def canUseOffset16 (firstNodeId nodeId : Nat) : Bool :=
  decide (firstNodeId ≤ nodeId) && decide (nodeId - firstNodeId ≤ uint16Max)

def useDelta16 (prevNodeId : Nat) : List TermPosting → Bool
  | [] => true
  | term :: rest => canUseDelta16 prevNodeId term.nodeId && useDelta16 term.nodeId rest

/-- The bytes of the gaps and frequencies as variable-length numbers; a gap is a difference of 32
bits. -/
def varintPayloadBytes (prevNodeId : Nat) : List TermPosting → Nat
  | [] => 0
  | term :: rest =>
    varintLen ((term.nodeId + 2 ^ 32 - prevNodeId) % 2 ^ 32) + varintLen term.tf +
      varintPayloadBytes term.nodeId rest

def encodePostings (prevNodeId : Nat) : List TermPosting → Except CodecError (List UInt8)
  | [] => .ok []
  | term :: rest =>
    if term.nodeId < prevNodeId then .error .notSorted
    else do
      let bytes ← encodePostings term.nodeId rest
      return putVarint (term.nodeId - prevNodeId) ++ putVarint term.tf ++ bytes

def encodePostingsDelta16 (prevNodeId : Nat) : List TermPosting → Except CodecError (List UInt8)
  | [] => .ok []
  | term :: rest =>
    if canUseDelta16 prevNodeId term.nodeId then do
      let bytes ← encodePostingsDelta16 term.nodeId rest
      return putUint16 (term.nodeId - prevNodeId) ++ putUint16 term.tf ++ bytes
    else .error .notDelta16

def encodePostingsOffset16 (firstNodeId : Nat) : List TermPosting → Except CodecError (List UInt8)
  | [] => .ok []
  | term :: rest =>
    if canUseOffset16 firstNodeId term.nodeId then do
      let bytes ← encodePostingsOffset16 firstNodeId rest
      return putUint16 (term.nodeId - firstNodeId) ++ putUint16 term.tf ++ bytes
    else .error .notOffset16

def encodePostingsSoa (firstNodeId : Nat) (terms : List TermPosting) :
    Except CodecError (List UInt8) :=
  if terms.all (fun term => canUseOffset16 firstNodeId term.nodeId) then
    .ok ((terms.map fun term => term.nodeId - firstNodeId).flatMap putUint16 ++
      (terms.map TermPosting.tf).flatMap putUint16)
  else .error .notOffset16

/-- The encoding the writer picks: offsets where all are near the first node, gaps of 16 bits where
these suffice. -/
def chooseEncoding (tfNorm : Bool) (firstNodeId : Nat) (terms : List TermPosting) :
    PostingsEncoding :=
  if terms.all fun term => canUseOffset16 firstNodeId term.nodeId then
    if tfNorm then .offset16Soa else .offset16
  else if useDelta16 firstNodeId terms then .delta16
  else .deltaVarint

def pairBytes (encoding : PostingsEncoding) (firstNodeId : Nat) (terms : List TermPosting) : Nat :=
  match encoding with
  | .deltaVarint => varintPayloadBytes firstNodeId terms
  | _ => 4 * terms.length

def encodePairs (encoding : PostingsEncoding) (firstNodeId : Nat) (terms : List TermPosting) :
    Except CodecError (List UInt8) :=
  match encoding with
  | .offset16Soa => encodePostingsSoa firstNodeId terms
  | .offset16 => encodePostingsOffset16 firstNodeId terms
  | .delta16 => encodePostingsDelta16 firstNodeId terms
  | .deltaVarint => encodePostings firstNodeId terms

section Writer

variable (quantizeTfNorm : Nat → Nat → Fin (2 ^ 16))

/-- The tuple of a run of postings of a term around its encoded pairs, with the norms that the
writer computes from node and frequency where they are stored. -/
def chunkTuple (tfNorm : Bool) (termId chunkNo : Nat) (terms : List TermPosting)
    (pairs : List UInt8) : PostingsTuple :=
  let firstNodeId := (terms.head?.map TermPosting.nodeId).getD 0
  let encoding := chooseEncoding tfNorm firstNodeId terms
  let norms := terms.map fun term => (quantizeTfNorm term.nodeId term.tf).val
  let payloadBytes := pairBytes encoding firstNodeId terms + if tfNorm then 2 * terms.length else 0
  { count := terms.length % 2 ^ 16
    termId
    chunkNo
    firstNodeId
    lastNodeId := (terms.getLast?.map TermPosting.nodeId).getD 0
    next := none
    maxTf := maxOf (terms.map TermPosting.tf)
    encoding
    tfNorm
    maxTfNormQ16 := if tfNorm then maxOf norms else 0
    payloadBytes := payloadBytes % 2 ^ 16
    payload := pairs ++ if tfNorm then norms.flatMap putUint16 else [] }

/-- **The writer**: the tuple for a run of postings of a term. -/
def encodePostingsTuple (tfNorm : Bool) (termId chunkNo : Nat) (terms : List TermPosting) :
    Except CodecError PostingsTuple := do
  let firstNodeId := (terms.head?.map TermPosting.nodeId).getD 0
  let pairs ← encodePairs (chooseEncoding tfNorm firstNodeId terms) firstNodeId terms
  return chunkTuple quantizeTfNorm tfNorm termId chunkNo terms pairs

/-- The writer of the in-memory build, on a run of the sorted term array. -/
def writePostingsChunkTuple (tfNorm : Bool) (termId chunkNo : Nat) (terms : List TermPosting)
    (startIndex endIndex : Nat) : Except CodecError PostingsTuple :=
  encodePostingsTuple quantizeTfNorm tfNorm termId chunkNo
    ((terms.drop startIndex).take (endIndex - startIndex))

def writePostingsChunkData (tfNorm : Bool) (termId chunkNo : Nat) (postings : List Posting) :
    Except CodecError PostingsTuple :=
  encodePostingsTuple quantizeTfNorm tfNorm termId chunkNo
    (postings.map fun posting => { nodeId := posting.nodeId, tf := posting.tf })

end Writer

/-! ### The scalar decoder -/

/-- The pairs of offset and frequency. The first offset is zero, and node ids do not fall. -/
def decodeOffset16 (firstNodeId prevDecoded : Nat) (first : Bool) :
    Nat → List UInt8 → Option (List TermPosting × List UInt8)
  | 0, ptr => some ([], ptr)
  | count + 1, ptr =>
    let (offset, ptr) := takeUint16 ptr
    let (tf, ptr) := takeUint16 ptr
    let nodeId := (firstNodeId + offset) % 2 ^ 32
    if first && decide (offset ≠ 0) then none
    else if nodeId < prevDecoded then none
    else
      (decodeOffset16 firstNodeId nodeId false count ptr).map fun (terms, ptr) =>
        ({ nodeId, tf } :: terms, ptr)

/-- The same with offsets and frequencies in arrays of their own. -/
def decodeOffset16Soa (firstNodeId prevDecoded : Nat) (first : Bool) :
    Nat → List UInt8 → List UInt8 → Option (List TermPosting)
  | 0, _, _ => some []
  | count + 1, offsetPtr, tfPtr =>
    let (offset, offsetPtr) := takeUint16 offsetPtr
    let (tf, tfPtr) := takeUint16 tfPtr
    let nodeId := (firstNodeId + offset) % 2 ^ 32
    if first && decide (offset ≠ 0) then none
    else if nodeId < prevDecoded then none
    else
      (decodeOffset16Soa firstNodeId nodeId false count offsetPtr tfPtr).map
        ({ nodeId, tf } :: ·)

/-- The gaps of 16 bits; a sum above 32 bits is refused. -/
def decodeDelta16 (prevNodeId : Nat) (first : Bool) :
    Nat → List UInt8 → Option (List TermPosting × List UInt8)
  | 0, ptr => some ([], ptr)
  | count + 1, ptr =>
    let (delta, ptr) := takeUint16 ptr
    let (tf, ptr) := takeUint16 ptr
    if first && decide (delta ≠ 0) then none
    else if uint32Max - prevNodeId < delta then none
    else
      (decodeDelta16 (prevNodeId + delta) false count ptr).map fun (terms, ptr) =>
        ({ nodeId := prevNodeId + delta, tf } :: terms, ptr)

def decodeVarints (prevNodeId : Nat) (first : Bool) :
    Nat → List UInt8 → Option (List TermPosting × List UInt8)
  | 0, ptr => some ([], ptr)
  | count + 1, ptr => do
    let (delta, ptr) ← getVarint 0 0 ptr
    let (tf, ptr) ← getVarint 0 0 ptr
    if uint16Max < tf ∨ uint32Max - prevNodeId < delta then none
    else if first && decide (delta ≠ 0) then none
    else
      (decodeVarints (prevNodeId + delta) false count ptr).map fun (terms, ptr) =>
        ({ nodeId := prevNodeId + delta, tf } :: terms, ptr)

/-- The postings of a decoder that has used up its part of the payload. -/
def usedUp : Option (List TermPosting × List UInt8) → Option (List TermPosting)
  | some (terms, []) => some terms
  | _ => none

/-- The nodes and frequencies of the part of the payload before the norms. -/
def decodePairs (encoding : PostingsEncoding) (firstNodeId count : Nat) (data : List UInt8) :
    Option (List TermPosting) :=
  match encoding with
  | .offset16 =>
    if data.length ≠ 4 * count then none
    else usedUp (decodeOffset16 firstNodeId firstNodeId true count data)
  | .offset16Soa =>
    if data.length ≠ 4 * count then none
    else decodeOffset16Soa firstNodeId firstNodeId true count data (data.drop (2 * count))
  | .delta16 =>
    if data.length ≠ 4 * count then none
    else usedUp (decodeDelta16 firstNodeId true count data)
  | .deltaVarint => usedUp (decodeVarints firstNodeId true count data)

/-- **The scalar decoder**, the same in the build and in the reader. A tuple of another size may be
one of the old layout, whose postings start in place of the encoding. -/
def decodePostingsTuple (tuple : PostingsTuple) (itemSize : Nat) (legacyPostings : List Posting) :
    Option (List Posting) :=
  let tfNormBytes := if tuple.tfNorm then 2 * tuple.count else 0
  let data := tuple.payload.take (tuple.payloadBytes - tfNormBytes)
  let norms := tuple.payload.drop (tuple.payloadBytes - tfNormBytes)
  if postingsTupleSize tuple.payloadBytes ≠ itemSize then
    if legacyPostingsTupleSize tuple.count = itemSize then some legacyPostings else none
  else if tuple.payloadBytes < tfNormBytes then none
  else
    (decodePairs tuple.encoding tuple.firstNodeId tuple.count data).map fun terms =>
      terms.mapIdx fun i term =>
        { nodeId := term.nodeId, tf := term.tf,
          tfNormQ16 := if tuple.tfNorm then wordAt norms i else 0 }

/-! ### The vector kernels -/

/-- The offset that a lane reads: every second word of the pairs, or the word of its own. -/
def laneOffset (tuple : PostingsTuple) (lane : Nat) : Nat :=
  wordAt tuple.payload (if tuple.encoding = .offset16Soa then lane else lane * 2)

/-- The node and the norm of a lane; the norms start behind the pairs. -/
def lanePosting (tuple : PostingsTuple) (lane : Nat) : Nat × Nat :=
  ((tuple.firstNodeId + laneOffset tuple lane) % 2 ^ 32,
    wordAt (tuple.payload.drop (4 * tuple.count)) lane)

/-- **The vector kernels**: blocks of eight lanes, then the rest one by one. They leave a tuple
without offsets or norms, or of another size, to the scalar decoder. -/
def vectorPostings (tuple : PostingsTuple) (itemSize : Nat) : Option (List (Nat × Nat)) :=
  if (tuple.encoding = .offset16 ∨ tuple.encoding = .offset16Soa) ∧ tuple.tfNorm = true ∧
      postingsTupleSize (6 * tuple.count) = itemSize ∧ tuple.payloadBytes = 6 * tuple.count then
    some ((List.range (tuple.count / 8)).flatMap (fun block =>
        (List.range 8).map fun lane => lanePosting tuple (8 * block + lane)) ++
      (List.range (tuple.count % 8)).map fun lane =>
        lanePosting tuple (8 * (tuple.count / 8) + lane))
  else none

/-! ### Reading back -/

/-- Postings in the order of their nodes, none before a node id that was read, and where they are
the first of a tuple the first of them is that node. -/
structure Ascending (prevNodeId : Nat) (first : Bool) (terms : List TermPosting) : Prop where
  sorted : terms.Pairwise fun one other => one.nodeId ≤ other.nodeId
  above : ∀ term ∈ terms, prevNodeId ≤ term.nodeId
  nodeFits : ∀ term ∈ terms, term.nodeId < 2 ^ 32
  tfFits : ∀ term ∈ terms, term.tf < 2 ^ 16
  leads : first = true → ∀ term, terms.head? = some term → term.nodeId = prevNodeId

theorem Ascending.tail {prevNodeId : Nat} {first : Bool} {term : TermPosting}
    {rest : List TermPosting} (ascending : Ascending prevNodeId first (term :: rest)) :
    Ascending term.nodeId false rest where
  sorted := (List.pairwise_cons.mp ascending.sorted).2
  above := (List.pairwise_cons.mp ascending.sorted).1
  nodeFits other member := ascending.nodeFits other (List.mem_cons_of_mem _ member)
  tfFits other member := ascending.tfFits other (List.mem_cons_of_mem _ member)
  leads first := by cases first

theorem lt_of_canUseOffset16 {firstNodeId nodeId : Nat}
    (near : canUseOffset16 firstNodeId nodeId = true) : nodeId - firstNodeId < 2 ^ 16 :=
  Nat.lt_succ_of_le (of_decide_eq_true (Bool.and_eq_true_iff.mp near).2)

section Reading

variable {prevNodeId : Nat} {first : Bool} {terms : List TermPosting}

theorem decodeOffset16_encode {firstNodeId : Nat} (below : firstNodeId ≤ prevNodeId)
    (start : first = true → firstNodeId = prevNodeId)
    (ascending : Ascending prevNodeId first terms)
    (near : ∀ term ∈ terms, canUseOffset16 firstNodeId term.nodeId = true) :
    ∃ bytes, encodePostingsOffset16 firstNodeId terms = .ok bytes ∧
      bytes.length = 4 * terms.length ∧ ∀ rest,
        decodeOffset16 firstNodeId prevNodeId first terms.length (bytes ++ rest) =
          some (terms, rest) := by
  induction terms generalizing prevNodeId first with
  | nil => exact ⟨[], rfl, rfl, fun rest => rfl⟩
  | cons term rest ih =>
    have above := ascending.above term List.mem_cons_self
    have nodeFits := ascending.nodeFits term List.mem_cons_self
    obtain ⟨bytes, encoded, length, decoded⟩ := ih (below.trans above)
      (fun none => by cases none) ascending.tail
      fun other member => near other (List.mem_cons_of_mem _ member)
    have nearTerm := near term List.mem_cons_self
    have offsetFits := lt_of_canUseOffset16 nearTerm
    refine ⟨putUint16 (term.nodeId - firstNodeId) ++ putUint16 term.tf ++ bytes, ?_, ?_,
      fun behind => ?_⟩
    · rw [encodePostingsOffset16, if_pos nearTerm, encoded]
      rfl
    · simp only [List.length_append, length_putUint16, length, List.length_cons]
      omega
    · have node : (firstNodeId + (term.nodeId - firstNodeId)) % 2 ^ 32 = term.nodeId := by
        rw [Nat.add_sub_cancel' (below.trans above)]
        exact Nat.mod_eq_of_lt nodeFits
      have leads : ¬ (first && decide (term.nodeId - firstNodeId ≠ 0)) = true := by
        cases isFirst : first with
        | false => simp
        | true =>
          have same := ascending.leads isFirst term rfl
          have origin := start isFirst
          simp [same, origin]
      rw [List.length_cons, decodeOffset16]
      simp only [List.append_assoc, takeUint16_putUint16 offsetFits,
        takeUint16_putUint16 (ascending.tfFits term List.mem_cons_self), node]
      rw [if_neg leads, if_neg (not_lt.mpr above), decoded]
      rfl

theorem decodeOffset16Soa_encode {firstNodeId : Nat} (below : firstNodeId ≤ prevNodeId)
    (start : first = true → firstNodeId = prevNodeId)
    (ascending : Ascending prevNodeId first terms)
    (near : ∀ term ∈ terms, canUseOffset16 firstNodeId term.nodeId = true)
    (offsetRest tfRest : List UInt8) :
    decodeOffset16Soa firstNodeId prevNodeId first terms.length
      ((terms.map fun term => term.nodeId - firstNodeId).flatMap putUint16 ++ offsetRest)
      ((terms.map TermPosting.tf).flatMap putUint16 ++ tfRest) = some terms := by
  induction terms generalizing prevNodeId first with
  | nil => rfl
  | cons term rest ih =>
    have above := ascending.above term List.mem_cons_self
    have nodeFits := ascending.nodeFits term List.mem_cons_self
    have nearTerm := near term List.mem_cons_self
    have offsetFits := lt_of_canUseOffset16 nearTerm
    have node : (firstNodeId + (term.nodeId - firstNodeId)) % 2 ^ 32 = term.nodeId := by
      rw [Nat.add_sub_cancel' (below.trans above)]
      exact Nat.mod_eq_of_lt nodeFits
    have leads : ¬ (first && decide (term.nodeId - firstNodeId ≠ 0)) = true := by
      cases isFirst : first with
      | false => simp
      | true =>
        have same := ascending.leads isFirst term rfl
        have origin := start isFirst
        simp [same, origin]
    rw [List.length_cons, decodeOffset16Soa]
    simp only [List.map_cons, List.flatMap_cons, List.append_assoc,
      takeUint16_putUint16 offsetFits,
      takeUint16_putUint16 (ascending.tfFits term List.mem_cons_self), node]
    rw [if_neg leads, if_neg (not_lt.mpr above), ih (below.trans above)
      (fun none => by cases none) ascending.tail
      fun other member => near other (List.mem_cons_of_mem _ member)]
    rfl

theorem decodeDelta16_encode (ascending : Ascending prevNodeId first terms)
    (near : useDelta16 prevNodeId terms = true) :
    ∃ bytes, encodePostingsDelta16 prevNodeId terms = .ok bytes ∧
      bytes.length = 4 * terms.length ∧ ∀ rest,
        decodeDelta16 prevNodeId first terms.length (bytes ++ rest) = some (terms, rest) := by
  induction terms generalizing prevNodeId first with
  | nil => exact ⟨[], rfl, rfl, fun rest => rfl⟩
  | cons term rest ih =>
    have above := ascending.above term List.mem_cons_self
    have nodeFits := ascending.nodeFits term List.mem_cons_self
    simp only [useDelta16, Bool.and_eq_true] at near
    obtain ⟨bytes, encoded, length, decoded⟩ := ih ascending.tail near.2
    have deltaFits : term.nodeId - prevNodeId < 2 ^ 16 := lt_of_canUseOffset16 near.1
    refine ⟨putUint16 (term.nodeId - prevNodeId) ++ putUint16 term.tf ++ bytes, ?_, ?_,
      fun behind => ?_⟩
    · rw [encodePostingsDelta16, if_pos near.1, encoded]
      rfl
    · simp only [List.length_append, length_putUint16, length, List.length_cons]
      omega
    · have leads : ¬ (first && decide (term.nodeId - prevNodeId ≠ 0)) = true := by
        cases isFirst : first with
        | false => simp
        | true => simp [ascending.leads isFirst term rfl]
      have room : ¬ uint32Max - prevNodeId < term.nodeId - prevNodeId := by
        unfold uint32Max
        omega
      rw [List.length_cons, decodeDelta16]
      simp only [List.append_assoc, takeUint16_putUint16 deltaFits,
        takeUint16_putUint16 (ascending.tfFits term List.mem_cons_self)]
      rw [if_neg leads, if_neg room, Nat.add_sub_cancel' above, decoded]
      rfl

theorem decodeVarints_encode (ascending : Ascending prevNodeId first terms) :
    ∃ bytes, encodePostings prevNodeId terms = .ok bytes ∧
      bytes.length = varintPayloadBytes prevNodeId terms ∧ ∀ rest,
        decodeVarints prevNodeId first terms.length (bytes ++ rest) = some (terms, rest) := by
  induction terms generalizing prevNodeId first with
  | nil => exact ⟨[], rfl, rfl, fun rest => rfl⟩
  | cons term rest ih =>
    have above := ascending.above term List.mem_cons_self
    have nodeFits := ascending.nodeFits term List.mem_cons_self
    have tfFits := ascending.tfFits term List.mem_cons_self
    obtain ⟨bytes, encoded, length, decoded⟩ := ih ascending.tail
    have delta : (term.nodeId + 2 ^ 32 - prevNodeId) % 2 ^ 32 = term.nodeId - prevNodeId := by omega
    refine ⟨putVarint (term.nodeId - prevNodeId) ++ putVarint term.tf ++ bytes, ?_, ?_,
      fun behind => ?_⟩
    · rw [encodePostings, if_neg (not_lt.mpr above), encoded]
      rfl
    · simp only [List.length_append, length_putVarint, length, varintPayloadBytes, delta]
    · have leads : ¬ (first && decide (term.nodeId - prevNodeId ≠ 0)) = true := by
        cases isFirst : first with
        | false => simp
        | true => simp [ascending.leads isFirst term rfl]
      have room : ¬ (uint16Max < term.tf ∨ uint32Max - prevNodeId < term.nodeId - prevNodeId) := by
        unfold uint16Max uint32Max
        omega
      rw [List.length_cons, decodeVarints]
      simp only [List.append_assoc, getVarint_putVarint (lt_of_le_of_lt (Nat.sub_le _ _) nodeFits),
        getVarint_putVarint (tfFits.trans (by decide)), Option.bind_eq_bind, Option.bind_some]
      rw [if_neg room, if_neg leads, Nat.add_sub_cancel' above, decoded]
      rfl

end Reading

/-- **Each encoding that the writer picks is read back**, and takes the bytes it was given. -/
theorem decodePairs_encodePairs (tfNorm : Bool) {firstNodeId : Nat} {terms : List TermPosting}
    (ascending : Ascending firstNodeId true terms) :
    ∃ pairs, encodePairs (chooseEncoding tfNorm firstNodeId terms) firstNodeId terms = .ok pairs ∧
      pairs.length = pairBytes (chooseEncoding tfNorm firstNodeId terms) firstNodeId terms ∧
      decodePairs (chooseEncoding tfNorm firstNodeId terms) firstNodeId terms.length pairs =
        some terms := by
  unfold chooseEncoding
  split_ifs with offsets norms gaps
  · have near := List.all_eq_true.mp offsets
    have length : ((terms.map fun term => term.nodeId - firstNodeId).flatMap putUint16 ++
        (terms.map TermPosting.tf).flatMap putUint16).length = 4 * terms.length := by
      simp only [List.length_append, length_flatMap_putUint16, List.length_map]
      omega
    refine ⟨_, if_pos offsets, length, ?_⟩
    unfold decodePairs
    dsimp only
    rw [if_neg (not_not.mpr length), List.drop_left' (by rw [length_flatMap_putUint16, List.length_map])]
    simpa using decodeOffset16Soa_encode le_rfl (fun _ => rfl) ascending near
      ((terms.map TermPosting.tf).flatMap putUint16) []
  · have near := List.all_eq_true.mp offsets
    obtain ⟨bytes, encoded, length, decoded⟩ :=
      decodeOffset16_encode le_rfl (fun _ => rfl) ascending near
    refine ⟨bytes, encoded, length, ?_⟩
    have all := decoded []
    rw [List.append_nil] at all
    unfold decodePairs
    dsimp only
    rw [if_neg (not_not.mpr length), all]
    rfl
  · obtain ⟨bytes, encoded, length, decoded⟩ := decodeDelta16_encode ascending gaps
    refine ⟨bytes, encoded, length, ?_⟩
    have all := decoded []
    rw [List.append_nil] at all
    unfold decodePairs
    dsimp only
    rw [if_neg (not_not.mpr length), all]
    rfl
  · obtain ⟨bytes, encoded, length, decoded⟩ := decodeVarints_encode ascending
    refine ⟨bytes, encoded, length, ?_⟩
    have all := decoded []
    rw [List.append_nil] at all
    unfold decodePairs
    dsimp only
    rw [all]
    rfl

theorem varintPayloadBytes_le {prevNodeId : Nat} {first : Bool} {terms : List TermPosting}
    (ascending : Ascending prevNodeId first terms) :
    varintPayloadBytes prevNodeId terms ≤ 8 * terms.length := by
  induction terms generalizing prevNodeId first with
  | nil => exact le_rfl
  | cons term rest ih =>
    have delta : varintLen ((term.nodeId + 2 ^ 32 - prevNodeId) % 2 ^ 32) ≤ 5 :=
      varintLen_le ((Nat.mod_lt _ (by decide)).trans (by decide))
    have tf : varintLen term.tf ≤ 3 :=
      varintLen_le ((ascending.tfFits term List.mem_cons_self).trans (by decide))
    have later := ih ascending.tail
    rw [varintPayloadBytes, List.length_cons]
    omega

/-! ### The lanes -/

theorem takeUint16_eq (bytes : List UInt8) : takeUint16 bytes = (wordAt bytes 0, bytes.drop 2) := by
  unfold wordAt
  match bytes with
  | low :: high :: rest => rfl
  | [] | [_] => rfl

theorem wordAt_drop (bytes : List UInt8) (skipped index : Nat) :
    wordAt (bytes.drop (2 * skipped)) index = wordAt bytes (skipped + index) := by
  unfold wordAt
  rw [List.drop_drop, Nat.mul_add]

/-- The node ids that the scalar decoder makes of pairs are those of every second word. -/
theorem decodeOffset16_lanes {firstNodeId prevDecoded count : Nat} {first : Bool}
    {data rest : List UInt8} {terms : List TermPosting}
    (decoded : decodeOffset16 firstNodeId prevDecoded first count data = some (terms, rest)) :
    terms.map TermPosting.nodeId =
      (List.range count).map fun lane => (firstNodeId + wordAt data (lane * 2)) % 2 ^ 32 := by
  induction count generalizing prevDecoded first data terms rest with
  | zero =>
    obtain ⟨rfl, -⟩ := Prod.mk.inj (Option.some.inj decoded)
    rfl
  | succ count ih =>
    rw [decodeOffset16] at decoded
    simp only [takeUint16_eq] at decoded
    split_ifs at decoded with leads falls
    obtain ⟨⟨later, behind⟩, read, same⟩ := Option.map_eq_some_iff.mp decoded
    obtain ⟨rfl, -⟩ := Prod.mk.inj same
    rw [List.map_cons, ih read, List.range_succ_eq_map, List.map_cons, List.map_map]
    refine congrArg₂ List.cons (by rw [Nat.zero_mul]) (List.map_congr_left fun lane _ => ?_)
    rw [List.drop_drop, show 2 + 2 = 2 * 2 from rfl, wordAt_drop]
    simp only [Function.comp, Nat.succ_mul, Nat.add_comm]

theorem decodeOffset16Soa_lanes {firstNodeId prevDecoded count : Nat} {first : Bool}
    {offsets tfs : List UInt8} {terms : List TermPosting}
    (decoded : decodeOffset16Soa firstNodeId prevDecoded first count offsets tfs = some terms) :
    terms.map TermPosting.nodeId =
      (List.range count).map fun lane => (firstNodeId + wordAt offsets lane) % 2 ^ 32 := by
  induction count generalizing prevDecoded first offsets tfs terms with
  | zero =>
    obtain rfl := Option.some.inj decoded
    rfl
  | succ count ih =>
    rw [decodeOffset16Soa] at decoded
    simp only [takeUint16_eq] at decoded
    split_ifs at decoded with leads falls
    obtain ⟨later, read, rfl⟩ := Option.map_eq_some_iff.mp decoded
    rw [List.map_cons, ih read, List.range_succ_eq_map, List.map_cons, List.map_map]
    refine congrArg₂ List.cons rfl (List.map_congr_left fun lane _ => ?_)
    rw [show 2 = 2 * 1 from rfl, wordAt_drop]
    simp only [Function.comp, Nat.add_comm]

theorem lanes_in_blocks {α : Type} (read : Nat → α) (count : Nat) :
    (List.range (count / 8)).flatMap (fun block =>
        (List.range 8).map fun lane => read (8 * block + lane)) ++
      (List.range (count % 8)).map (fun lane => read (8 * (count / 8) + lane)) =
      (List.range count).map read := by
  have blocks (number : Nat) : (List.range number).flatMap (fun block =>
      (List.range 8).map fun lane => read (8 * block + lane)) = (List.range (8 * number)).map read := by
    induction number with
    | zero => rfl
    | succ number ih =>
      rw [List.range_succ (n := number), List.flatMap_append, ih, Nat.mul_succ, List.range_add, List.map_append,
        List.flatMap_singleton, List.map_map]
      rfl
  conv_rhs => rw [← Nat.div_add_mod count 8, List.range_add, List.map_append, List.map_map]
  rw [blocks]
  rfl

/-! ### The postings of a chunk -/

/-- A run of postings as the writers are called with: some, no more than a chunk takes, sorted by
node, in fields of 32 and 16 bits. -/
structure ChunkTerms where
  terms : List TermPosting
  nonempty : terms ≠ []
  short : terms.length ≤ maxPostingsPerChunk
  sorted : terms.Pairwise fun one other => one.nodeId ≤ other.nodeId
  nodeFits : ∀ term ∈ terms, term.nodeId < 2 ^ 32
  tfFits : ∀ term ∈ terms, term.tf < 2 ^ 16

def ChunkTerms.firstNodeId (run : ChunkTerms) : Nat :=
  (run.terms.head?.map TermPosting.nodeId).getD 0

theorem ChunkTerms.ascending (run : ChunkTerms) : Ascending run.firstNodeId true run.terms := by
  obtain ⟨terms, nonempty, -, sorted, nodeFits, tfFits⟩ := run
  obtain ⟨term, rest, rfl⟩ := List.exists_cons_of_ne_nil nonempty
  refine ⟨sorted, fun other member => ?_, nodeFits, tfFits, fun _ head found => ?_⟩
  · rcases List.mem_cons.mp member with rfl | later
    · exact le_rfl
    · exact (List.pairwise_cons.mp sorted).1 other later
  · exact congrArg TermPosting.nodeId (Option.some.inj found).symm

section Codec

variable (quantizeTfNorm : Nat → Nat → Fin (2 ^ 16))

/-- The postings that the tuple of a run stands for: with their norms where these are stored. -/
def storedPostings (tfNorm : Bool) (terms : List TermPosting) : List Posting :=
  terms.map fun term => {
    nodeId := term.nodeId, tf := term.tf
    tfNormQ16 := if tfNorm then (quantizeTfNorm term.nodeId term.tf).val else 0 }

/-- The payload that the writer announces, before it is put into a field of 16 bits. -/
def payloadBytesOf (tfNorm : Bool) (run : ChunkTerms) : Nat :=
  pairBytes (chooseEncoding tfNorm run.firstNodeId run.terms) run.firstNodeId run.terms +
    if tfNorm then 2 * run.terms.length else 0

theorem payloadBytes_le (tfNorm : Bool) (run : ChunkTerms) :
    payloadBytesOf tfNorm run ≤ 10 * maxPostingsPerChunk := by
  have pairs : pairBytes (chooseEncoding tfNorm run.firstNodeId run.terms) run.firstNodeId run.terms ≤
      8 * run.terms.length := by
    unfold pairBytes
    split
    · exact varintPayloadBytes_le run.ascending
    · omega
  have short := run.short
  unfold payloadBytesOf
  split_ifs <;> omega

theorem postingsTupleSize_le (tfNorm : Bool) (run : ChunkTerms) :
    postingsTupleSize (payloadBytesOf tfNorm run) ≤ pageCapacity := by
  have bound := payloadBytes_le tfNorm run
  rw [maxPostingsPerChunk_eq] at bound
  unfold postingsTupleSize maxAlign payloadOffset pageCapacity
  omega

/-- **What the writer writes**: the announced bytes, in two parts that decode to the run. -/
theorem encodePostingsTuple_spec (tfNorm : Bool) (termId chunkNo : Nat) (run : ChunkTerms) :
    ∃ tuple pairs, encodePostingsTuple quantizeTfNorm tfNorm termId chunkNo run.terms = .ok tuple ∧
      tuple.count = run.terms.length ∧ tuple.firstNodeId = run.firstNodeId ∧
      tuple.encoding = chooseEncoding tfNorm run.firstNodeId run.terms ∧ tuple.tfNorm = tfNorm ∧
      tuple.payloadBytes = payloadBytesOf tfNorm run ∧
      tuple.payload = pairs ++ (if tfNorm then
        (run.terms.map fun term => (quantizeTfNorm term.nodeId term.tf).val).flatMap putUint16
        else []) ∧
      pairs.length = pairBytes tuple.encoding run.firstNodeId run.terms ∧
      decodePairs tuple.encoding run.firstNodeId run.terms.length pairs = some run.terms := by
  obtain ⟨pairs, encoded, length, decoded⟩ := decodePairs_encodePairs tfNorm run.ascending
  have bound := payloadBytes_le tfNorm run
  have short := run.short
  rw [maxPostingsPerChunk_eq] at bound short
  refine ⟨chunkTuple quantizeTfNorm tfNorm termId chunkNo run.terms pairs, pairs, ?_,
    Nat.mod_eq_of_lt (by omega), rfl, rfl, rfl, Nat.mod_eq_of_lt ?_, rfl, length, decoded⟩
  · unfold encodePostingsTuple
    change (encodePairs (chooseEncoding tfNorm run.firstNodeId run.terms) run.firstNodeId run.terms >>=
      _) = _
    rw [encoded]
    rfl
  · change payloadBytesOf tfNorm run < _
    omega

/-- **Reading back what was written.** -/
theorem decode_encode (tfNorm : Bool) (termId chunkNo : Nat) (run : ChunkTerms)
    (legacyPostings : List Posting) :
    ∃ tuple, encodePostingsTuple quantizeTfNorm tfNorm termId chunkNo run.terms = .ok tuple ∧
      decodePostingsTuple tuple (postingsTupleSize (payloadBytesOf tfNorm run)) legacyPostings =
        some (storedPostings quantizeTfNorm tfNorm run.terms) := by
  obtain ⟨tuple, pairs, encoded, count, firstNodeId, chosen, norms, bytes, payload, length, decoded⟩ :=
    encodePostingsTuple_spec quantizeTfNorm tfNorm termId chunkNo run
  refine ⟨tuple, encoded, ?_⟩
  have normBytes : (if tuple.tfNorm then 2 * tuple.count else 0) =
      if tfNorm then 2 * run.terms.length else 0 := by
    rw [norms, count]
  have announced : tuple.payloadBytes =
      pairs.length + if tfNorm then 2 * run.terms.length else 0 := by
    rw [bytes, length, chosen]
    rfl
  have split : tuple.payloadBytes - (if tuple.tfNorm then 2 * tuple.count else 0) =
      pairs.length := by
    rw [announced, normBytes, Nat.add_sub_cancel]
  unfold decodePostingsTuple
  dsimp only
  rw [split, payload, List.take_left, List.drop_left, bytes, if_neg (not_not.mpr rfl),
    if_neg (by rw [← bytes, announced, normBytes]; omega), firstNodeId, count, decoded]
  refine congrArg some (List.ext_getElem (by simp [storedPostings]) fun i inside _ => ?_)
  rw [List.length_mapIdx] at inside
  simp only [List.getElem_mapIdx, storedPostings, List.getElem_map, norms]
  cases tfNorm with
  | false => rfl
  | true =>
    simp only [if_true]
    have word := @wordAt_flatMap
      (run.terms.map fun term => (quantizeTfNorm term.nodeId term.tf).val)
      (fun word member => by
        obtain ⟨term, -, rfl⟩ := List.mem_map.mp member
        exact Fin.isLt _) [] i (by simpa using inside)
    rw [List.append_nil] at word
    rw [word, List.getElem_map]

theorem usedUp_eq {decoded : Option (List TermPosting × List UInt8)} {terms : List TermPosting}
    (used : usedUp decoded = some terms) : decoded = some (terms, []) := by
  unfold usedUp at used
  split at used
  · rw [Option.some.inj used]
  · cases used

theorem decodePairs_lanes {tuple : PostingsTuple} {terms : List TermPosting}
    (offsets : tuple.encoding = .offset16 ∨ tuple.encoding = .offset16Soa)
    (decoded : decodePairs tuple.encoding tuple.firstNodeId tuple.count
      (tuple.payload.take (4 * tuple.count)) = some terms) :
    terms.map TermPosting.nodeId = (List.range tuple.count).map fun lane =>
      (tuple.firstNodeId + laneOffset tuple lane) % 2 ^ 32 := by
  unfold decodePairs at decoded
  have inData {index : Nat} (inside : 2 * index + 2 ≤ 4 * tuple.count)
      (long : (tuple.payload.take (4 * tuple.count)).length = 4 * tuple.count) :
      wordAt (tuple.payload.take (4 * tuple.count)) index = wordAt tuple.payload index :=
    wordAt_take inside (by rw [List.length_take] at long; omega)
  rcases offsets with pairs | soa
  · rw [pairs] at decoded
    dsimp only at decoded
    split_ifs at decoded with short
    rw [decodeOffset16_lanes (usedUp_eq decoded)]
    refine List.map_congr_left fun lane below => ?_
    have below := List.mem_range.mp below
    rw [inData (by omega) (not_not.mp short), laneOffset, pairs, if_neg (by decide)]
  · rw [soa] at decoded
    dsimp only at decoded
    split_ifs at decoded with short
    rw [decodeOffset16Soa_lanes decoded]
    refine List.map_congr_left fun lane below => ?_
    have below := List.mem_range.mp below
    rw [inData (by omega) (not_not.mp short), laneOffset, if_pos soa]

/-- **The vector kernels read what the scalar decoder reads**, wherever both accept a tuple. -/
theorem vectorPostings_eq {tuple : PostingsTuple} {itemSize : Nat}
    {legacyPostings postings : List Posting} {lanes : List (Nat × Nat)}
    (vector : vectorPostings tuple itemSize = some lanes)
    (decoded : decodePostingsTuple tuple itemSize legacyPostings = some postings) :
    lanes = postings.map fun posting => (posting.nodeId, posting.tfNormQ16) := by
  unfold vectorPostings at vector
  split_ifs at vector with accepts
  obtain ⟨offsets, norms, size, bytes⟩ := accepts
  rw [lanes_in_blocks] at vector
  obtain rfl := Option.some.inj vector
  have split : tuple.payloadBytes - 2 * tuple.count = 4 * tuple.count := by omega
  unfold decodePostingsTuple at decoded
  dsimp only at decoded
  rw [norms, if_pos rfl, split, if_neg (not_not.mpr (by rw [bytes, size])),
    if_neg (by omega)] at decoded
  obtain ⟨terms, pairs, rfl⟩ := Option.map_eq_some_iff.mp decoded
  have nodes := decodePairs_lanes offsets pairs
  have length : terms.length = tuple.count := by
    simpa using congrArg List.length nodes
  refine List.ext_getElem (by simp [length]) fun i below _ => ?_
  rw [List.length_map, List.length_range] at below
  have node : terms[i].nodeId = (tuple.firstNodeId + laneOffset tuple i) % 2 ^ 32 := by
    have found := congrArg (fun nodes : List Nat => nodes[i]?) nodes
    simpa [below, length] using found
  simp only [List.getElem_map, List.getElem_range, List.getElem_mapIdx, lanePosting, node, if_true]

/-- **The codec of postings.** For every run that a chunk takes, with and without norms: the writer
succeeds with a payload that fits its field in a tuple that fits a page, the scalar decoder reads
the run back with its norms, and the vector kernels read the same nodes and norms; they take every
run of offsets with norms. -/
theorem postingCodec_spec (tfNorm : Bool) (termId chunkNo : Nat) (run : ChunkTerms)
    (legacyPostings : List Posting) :
    ∃ tuple, encodePostingsTuple quantizeTfNorm tfNorm termId chunkNo run.terms = .ok tuple ∧
      tuple.payload.length = tuple.payloadBytes ∧ tuple.payloadBytes < 2 ^ 16 ∧
      postingsTupleSize tuple.payloadBytes ≤ pageCapacity ∧
      decodePostingsTuple tuple (postingsTupleSize tuple.payloadBytes) legacyPostings =
        some (storedPostings quantizeTfNorm tfNorm run.terms) ∧
      (vectorPostings tuple (postingsTupleSize tuple.payloadBytes) =
        if tfNorm ∧ ∀ term ∈ run.terms, term.nodeId - run.firstNodeId ≤ uint16Max then
          some ((storedPostings quantizeTfNorm tfNorm run.terms).map fun posting =>
            (posting.nodeId, posting.tfNormQ16))
        else none) := by
  obtain ⟨tuple, pairs, encoded, count, firstNodeId, chosen, norms, bytes, payload, length, -⟩ :=
    encodePostingsTuple_spec quantizeTfNorm tfNorm termId chunkNo run
  obtain ⟨same, encodedSame, decoded⟩ :=
    decode_encode quantizeTfNorm tfNorm termId chunkNo run legacyPostings
  obtain rfl := Except.ok.inj (encoded.symm.trans encodedSame)
  rw [← bytes] at decoded
  have bound := payloadBytes_le tfNorm run
  rw [maxPostingsPerChunk_eq, ← bytes] at bound
  have long : tuple.payload.length = tuple.payloadBytes := by
    rw [payload, bytes, List.length_append, length, chosen, payloadBytesOf]
    cases tfNorm with
    | false => rfl
    | true => simp only [if_true, length_flatMap_putUint16, List.length_map]
  refine ⟨tuple, encoded, long, by omega, ?_, decoded, ?_⟩
  · rw [bytes]
    exact postingsTupleSize_le tfNorm run
  -- with norms, the encoding is one of offsets exactly when all nodes are near the first
  have near : (∀ term ∈ run.terms, term.nodeId - run.firstNodeId ≤ uint16Max) ↔
      (run.terms.all fun term => canUseOffset16 run.firstNodeId term.nodeId) = true := by
    rw [List.all_eq_true]
    refine forall₂_congr fun term member => ?_
    have above := run.ascending.above term member
    simp only [canUseOffset16, above, decide_true, Bool.true_and, decide_eq_true_eq]
  split_ifs with offsets
  · obtain ⟨stored, isNear⟩ := offsets
    rw [near] at isNear
    subst stored
    have encoding : tuple.encoding = .offset16Soa := by
      rw [chosen, chooseEncoding, if_pos isNear]
      rfl
    have six : tuple.payloadBytes = 6 * tuple.count := by
      rw [bytes, payloadBytesOf, ← chosen, encoding, count]
      simp only [pairBytes, if_true]
      omega
    have accepts : ∃ lanes, vectorPostings tuple (postingsTupleSize tuple.payloadBytes) =
        some lanes := ⟨_, if_pos ⟨.inr encoding, norms, by rw [six], six⟩⟩
    obtain ⟨lanes, vector⟩ := accepts
    rw [vector, vectorPostings_eq vector decoded]
  · unfold vectorPostings
    refine if_neg fun accepts => offsets ⟨norms ▸ accepts.2.1, near.mpr ?_⟩
    by_contra far
    rw [chosen, chooseEncoding, if_neg far] at accepts
    rcases accepts.1 with offset | offset <;> split_ifs at offset

end Codec

end TurboHybrid.Index
