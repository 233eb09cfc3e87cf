/-
**The room of the accumulator.**

Before the tokens are scanned, the number of documents is bounded by the raw target and the limit of
documents per token, and the memory for so many is checked. A token is scanned once at the largest
target, or with a target that grows until enough documents have been found.

* `allocDoc_slabs`: the slabs are full but for the current one;
* `accumulateHits_counted`: a token adds no more documents than it has hits, and than its limit;
* `widen_stops`: the growing target ends with enough documents or at its maximum;
* `accumulator_fits`: in every state that a scan reaches, the documents and the slabs keep to what
  was checked.
-/
import TurboHybrid.Library.Lanes
import TurboHybrid.MultiVector.ExactTokens

set_option linter.unusedSectionVars false

namespace TurboHybrid.Accumulate

open Library TurboHybrid.Library.Lanes TurboHybrid.PlainFallback TurboHybrid.Graph.Dense

variable {queryCount : Nat}
variable {K : Type} [Field K] [LinearOrder K] [IsStrictOrderedRing K]

/-! ### Settings and targets -/

structure TokenSettings where
  subvectorK : Int
  uniqueDocsPerToken : Nat
  maxRawHitsPerToken : Int
  adaptiveWidening : Bool
  exactTokenScan : Bool
  maxAccumulatorMb : Nat
  unique_pos : 0 < uniqueDocsPerToken

/-- How many hits a token is scanned for, first and at most. -/
structure RawTargets where
  initial : Int
  most : Int

def rawTargets (settings : TokenSettings) (targetK : Int) (tqNodeCount : Nat) : RawTargets :=
  let nodeCount := wrap 32 tqNodeCount
  let wide := max (max settings.subvectorK settings.uniqueDocsPerToken)
    (if targetK > 0 then targetK else 1)
  let first := if settings.adaptiveWidening then settings.subvectorK else wide
  let initial := max (min (min first settings.maxRawHitsPerToken) nodeCount) 1
  ⟨initial, max (min (min wide settings.maxRawHitsPerToken) nodeCount) initial⟩

/-! ### The memory that is checked -/

/-- `DocCapacity`. -/
def docCapacity (rawTarget : Int) (uniqueDocsPerToken queryCount : Nat) : Nat :=
  max ((min rawTarget uniqueDocsPerToken).toNat * queryCount) 1

/-- `AccumulatorArenaChunkCapacity`. -/
def arenaChunkCapacity (docCapacity : Nat) : Nat := min (max docCapacity 16) 1024

/-- `AccumulatorArrayBytes`. -/
def arrayBytes (queryCount : Nat) : Nat := 8 * queryCount + 1 * queryCount

/-- `AccumulatorArenaEstimatedBytes`. -/
def arenaEstimatedBytes (docCapacity queryCount : Nat) : Nat :=
  if docCapacity = 0 then 0
  else
    let chunkDocCapacity := arenaChunkCapacity docCapacity
    let chunkCount := (docCapacity + chunkDocCapacity - 1) / chunkDocCapacity
    chunkCount * sizeofArenaChunk + chunkCount * chunkDocCapacity * arrayBytes queryCount

def sizeofDocEntry : Nat := 72

def sizeofDocIdEntry : Nat := 20

/-- `AccumulatorBytesEstimate`; the size of a hash table is the server's. -/
def accumulatorBytesEstimate (hashEstimateSize : Nat → Nat → Nat) (docCapacity queryCount : Nat) :
    Nat :=
  hashEstimateSize docCapacity sizeofDocEntry +
    (hashEstimateSize docCapacity sizeofDocIdEntry + arenaEstimatedBytes docCapacity queryCount)

def limitBytes (maxAccumulatorMb : Nat) : Nat := maxAccumulatorMb * 1024 * 1024

/-- `CheckAccumulatorMemory`. -/
def checkAccumulatorMemory (hashEstimateSize : Nat → Nat → Nat) (maxAccumulatorMb : Nat)
    (docCapacity queryCount : Nat) : Except String Unit :=
  let estimated := accumulatorBytesEstimate hashEstimateSize docCapacity queryCount
  if limitBytes maxAccumulatorMb < estimated then
    .error (s!"multivector accumulator memory estimate {estimated} bytes exceeds " ++
      s!"configured limit {maxAccumulatorMb} MB")
  else .ok ()

/-- `AccumulatorArenaInit`. -/
def Arena.init (docCapacity : Nat) : Arena := ⟨arenaChunkCapacity docCapacity, 0, 0, []⟩

/-! ### The scan of a token -/

/-- A traversal for a token, which returns no more than it is asked for. -/
structure HitSource (queryCount : Nat) (K : Type) where
  hits : Fin queryCount → Int → Except String (List (GraphResult ItemPointer K))
  bounded : ∀ qi target found, 0 < target → hits qi target = .ok found →
    (found.length : Int) ≤ target

def resolveHit (source : DocMapSource) (known : List ItemPointer)
    (hit : GraphResult ItemPointer K) : Nat × List ItemPointer :=
  match source with
  | .sidecar map => (map.nodeDoc hit.nodeId, known)
  | .heapTidHash => resolveDocId known hit.heaptid

/-- The documents of the hits, with the names that are given on the way. -/
def countDocs (source : DocMapSource) :
    List (GraphResult ItemPointer K) → List ItemPointer → List Nat → List ItemPointer × List Nat
  | [], known, seen => (known, seen)
  | hit :: hits, known, seen =>
    let resolved := resolveHit source known hit
    countDocs source hits resolved.2
      (if resolved.1 ∈ seen then seen else resolved.1 :: seen)

structure TokenHits (K : Type) where
  rawTarget : Int
  uniqueDocs : Nat
  known : List ItemPointer
  hits : List (GraphResult ItemPointer K)

def wider (most target : Int) : Int := min most (max (target + 1) (wrap 32 (target * 2)))

theorem wider_decreases {most target : Int} (below : ¬ most ≤ target) :
    (most - wider most target).toNat < (most - target).toNat := by
  have grows : target + 1 ≤ wider most target :=
    le_min (by omega) (le_max_left _ _)
  omega

/-- **The widening**: the target grows until the hits have enough different documents. -/
def widen (settings : TokenSettings) (source : DocMapSource)
    (run : Int → Except String (List (GraphResult ItemPointer K))) (most target : Int)
    (known : List ItemPointer) : Except String (TokenHits K) :=
  match run target with
  | .error message => .error message
  | .ok hits =>
    let counted := countDocs source hits known []
    if settings.adaptiveWidening = false ∨
        settings.uniqueDocsPerToken ≤ counted.2.length then
      .ok ⟨target, counted.2.length, counted.1, hits⟩
    else if _stop : most ≤ target then .ok ⟨target, counted.2.length, counted.1, hits⟩
    else widen settings source run most (wider most target) counted.1
  termination_by (most - target).toNat
  decreasing_by exact wider_decreases _stop

structure TokenLoop (queryCount : Nat) (K : Type) where
  settings : TokenSettings
  targetK : Int
  graph : ScanGraph ItemPointer K
  tokenDistance : Fin queryCount → Nat → K
  traversal : HitSource queryCount K
  queryWeight : Fin queryCount → K
  skipQueryToken : Fin queryCount → Bool
  hashEstimateSize : Nat → Nat → Nat

namespace TokenLoop

variable (loop : TokenLoop queryCount K)

def targets : RawTargets := rawTargets loop.settings loop.targetK loop.graph.tqNodeCount

def capacity : Nat := docCapacity loop.targets.most loop.settings.uniqueDocsPerToken queryCount

def checkMemory : Except String Unit :=
  checkAccumulatorMemory loop.hashEstimateSize loop.settings.maxAccumulatorMb loop.capacity
    queryCount

def tokenHits (source : DocMapSource) (qi : Fin queryCount) (known : List ItemPointer) :
    Except String (TokenHits K) :=
  if loop.settings.exactTokenScan then
    (exactTokenScan (scoredBy loop.graph (loop.tokenDistance qi)) loop.targets.most.toNat).map
      fun hits => ⟨loop.targets.most, 0, known, hits⟩
  else
    widen loop.settings source (loop.traversal.hits qi) loop.targets.most loop.targets.initial known

def addHits (source : DocMapSource) (qi : Fin queryCount) (found : TokenHits K)
    (hits : List (GraphResult ItemPointer K)) (accumulator : Accumulator Nat queryCount K) :
    Except String (TokenState queryCount K) :=
  accumulateHits source loop.settings.uniqueDocsPerToken loop.queryWeight qi hits
    ⟨found.known, [], accumulator⟩

def scanToken (source : DocMapSource) (state : TokenState queryCount K) (qi : Fin queryCount) :
    Except String (TokenState queryCount K) :=
  if loop.skipQueryToken qi then .ok state
  else do
    let found ← loop.tokenHits source qi state.known
    loop.addHits source qi found found.hits state.accumulator

def start : TokenState queryCount K := ⟨[], [], ⟨fun _ => none, Arena.init loop.capacity⟩⟩

/-- A state between two tokens, or between two hits of a token. -/
inductive Reaches (source : DocMapSource) (state : TokenState queryCount K) : Prop
  | between (checked : loop.checkMemory = .ok ()) (done rest : List (Fin queryCount))
      (tokens : List.finRange queryCount = done ++ rest)
      (reached : done.foldlM (loop.scanToken source) loop.start = .ok state)
  | within (checked : loop.checkMemory = .ok ()) (done rest : List (Fin queryCount))
      (qi : Fin queryCount) (tokens : List.finRange queryCount = done ++ qi :: rest)
      (before : TokenState queryCount K)
      (reached : done.foldlM (loop.scanToken source) loop.start = .ok before)
      (found : TokenHits K) (scanned : loop.tokenHits source qi before.known = .ok found)
      (count : Nat) (added : loop.addHits source qi found (found.hits.take count)
        before.accumulator = .ok state)

structure Fits (accumulator : Accumulator Nat queryCount K) : Prop where
  documents : ∃ keys : List Nat, keys.Nodup ∧
    (∀ key, (accumulator.docs key).isSome ↔ key ∈ keys) ∧ keys.length ≤ loop.capacity
  slabs : accumulator.arena.allocatedBytes ≤ arenaEstimatedBytes loop.capacity queryCount
  checked : accumulatorBytesEstimate loop.hashEstimateSize loop.capacity queryCount ≤
    limitBytes loop.settings.maxAccumulatorMb

end TokenLoop

/-! ### The slabs -/

/-- The slabs are full but for the current one, and each has its bytes. -/
structure Arena.Slabs (queryCount : Nat) (arena : Arena) : Prop where
  positive : 0 < arena.chunkDocCapacity
  docs : arena.chunks = [] ∧ arena.allocatedDocs = 0 ∨
    ∃ used rest, arena.chunks = used :: rest ∧ 0 < used ∧ used ≤ arena.chunkDocCapacity ∧
      arena.allocatedDocs = used + rest.length * arena.chunkDocCapacity
  bytes : arena.allocatedBytes = arena.chunks.length *
    (sizeofArenaChunk + arena.chunkDocCapacity * arrayBytes queryCount)

theorem arenaChunkCapacity_pos (docCapacity : Nat) : 0 < arenaChunkCapacity docCapacity :=
  lt_min (lt_max_of_lt_right (by decide)) (by decide)

theorem init_slabs (docCapacity : Nat) : (Arena.init docCapacity).Slabs queryCount :=
  ⟨arenaChunkCapacity_pos docCapacity, Or.inl ⟨rfl, rfl⟩, (Nat.zero_mul _).symm⟩

/-- **A document in the slabs**: the current slab has room, or there is a new one. -/
theorem allocDoc_slabs {arena : Arena} (slabs : arena.Slabs queryCount) :
    (arena.allocDoc queryCount).Slabs queryCount ∧
      (arena.allocDoc queryCount).allocatedDocs = arena.allocatedDocs + 1 ∧
      (arena.allocDoc queryCount).chunkDocCapacity = arena.chunkDocCapacity := by
  obtain ⟨positive, docs, bytes⟩ := slabs
  have slabBytes : sizeofArenaChunk + (8 * (arena.chunkDocCapacity * queryCount) +
      1 * (arena.chunkDocCapacity * queryCount)) =
        sizeofArenaChunk + arena.chunkDocCapacity * arrayBytes queryCount := by
    rw [arrayBytes]
    ring
  rcases docs with ⟨empty, none_⟩ | ⟨used, rest, split, someUsed, fits, count⟩
  · have alloc : arena.allocDoc queryCount =
        { arena with
          chunks := [1]
          allocatedDocs := arena.allocatedDocs + 1
          allocatedBytes := arena.allocatedBytes + (sizeofArenaChunk +
            (8 * (arena.chunkDocCapacity * queryCount) +
              1 * (arena.chunkDocCapacity * queryCount))) } := by
      simp only [Arena.allocDoc, Arena.allocChunk, empty, List.head?_nil, Option.all_none, if_true,
        List.modifyHead_cons]
    rw [alloc]
    refine ⟨⟨positive, Or.inr ⟨1, [], rfl, Nat.one_pos, positive, ?_⟩, ?_⟩, rfl, rfl⟩
    · dsimp only
      rw [none_, List.length_nil, Nat.zero_mul]
    · dsimp only
      rw [bytes, empty, slabBytes, List.length_nil, List.length_singleton, Nat.zero_mul,
        Nat.zero_add, Nat.one_mul]
  · by_cases full : arena.chunkDocCapacity ≤ used
    · have alloc : arena.allocDoc queryCount =
          { arena with
            chunks := 1 :: used :: rest
            allocatedDocs := arena.allocatedDocs + 1
            allocatedBytes := arena.allocatedBytes + (sizeofArenaChunk +
              (8 * (arena.chunkDocCapacity * queryCount) +
                1 * (arena.chunkDocCapacity * queryCount))) } := by
        simp only [Arena.allocDoc, Arena.allocChunk, split, List.head?_cons, Option.all_some, full,
          decide_true, if_true, List.modifyHead_cons]
      rw [alloc]
      refine ⟨⟨positive, Or.inr ⟨1, used :: rest, rfl, Nat.one_pos, positive, ?_⟩, ?_⟩, rfl, rfl⟩
      · dsimp only
        rw [count, List.length_cons, le_antisymm fits full]
        ring
      · dsimp only
        rw [bytes, split, slabBytes, List.length_cons, List.length_cons, List.length_cons]
        ring
    · have alloc : arena.allocDoc queryCount =
          { arena with
            chunks := (used + 1) :: rest
            allocatedDocs := arena.allocatedDocs + 1 } := by
        simp only [Arena.allocDoc, split, List.head?_cons, Option.all_some, full, decide_false,
          Bool.false_eq_true, if_false, List.modifyHead_cons]
      rw [alloc]
      refine ⟨⟨positive, Or.inr ⟨used + 1, rest, rfl, Nat.succ_pos used, not_le.mp full, ?_⟩, ?_⟩,
        rfl, rfl⟩
      · dsimp only
        omega
      · dsimp only
        rw [bytes, split, List.length_cons, List.length_cons]

/-- **The slabs keep to the estimate** for as many documents as they have, or more. -/
theorem slabs_bytes_le {arena : Arena} (slabs : arena.Slabs queryCount) {capacity : Nat}
    (made : arena.chunkDocCapacity = arenaChunkCapacity capacity) (positive : 0 < capacity)
    (fits : arena.allocatedDocs ≤ capacity) :
    arena.allocatedBytes ≤ arenaEstimatedBytes capacity queryCount := by
  have chunks : arena.chunks.length ≤
      (capacity + arenaChunkCapacity capacity - 1) / arenaChunkCapacity capacity := by
    rw [Nat.le_div_iff_mul_le (arenaChunkCapacity_pos capacity), ← made]
    rcases slabs.docs with ⟨empty, _⟩ | ⟨used, rest, split, someUsed, _, count⟩
    · rw [empty, List.length_nil, Nat.zero_mul]
      exact Nat.zero_le _
    · rw [split, List.length_cons, Nat.succ_mul]
      omega
  rw [arenaEstimatedBytes, if_neg positive.ne', slabs.bytes, made]
  dsimp only
  rw [Nat.mul_assoc, ← Nat.mul_add]
  exact Nat.mul_le_mul_right _ chunks

/-! ### The documents -/

/-- The documents are as many as the slabs have places taken. -/
structure Counted (accumulator : Accumulator Nat queryCount K) : Prop where
  keys : ∃ keys : List Nat, keys.Nodup ∧ (∀ key, (accumulator.docs key).isSome ↔ key ∈ keys) ∧
    keys.length = accumulator.arena.allocatedDocs
  slabs : accumulator.arena.Slabs queryCount

/-- What one call may add: a document, if it is new. -/
structure Grows (added : Nat) (before after : Accumulator Nat queryCount K) : Prop where
  counted : Counted after
  docs : after.arena.allocatedDocs ≤ before.arena.allocatedDocs + added
  kept : ∀ key, (before.docs key).isSome → (after.docs key).isSome
  capacity : after.arena.chunkDocCapacity = before.arena.chunkDocCapacity

theorem Grows.trans {first second : Nat} {before middle after : Accumulator Nat queryCount K}
    (one : Grows first before middle) (other : Grows second middle after) :
    Grows (first + second) before after where
  counted := other.counted
  docs := by
    have bound := one.docs
    have later := other.docs
    omega
  kept := fun key found => other.kept key (one.kept key found)
  capacity := other.capacity.trans one.capacity

theorem Grows.weaken {added more : Nat} {before after : Accumulator Nat queryCount K}
    (grows : Grows added before after) (below : added ≤ more) : Grows more before after :=
  { grows with docs := grows.docs.trans (Nat.add_le_add_left below _) }

theorem accumulateDoc_grows {accumulator : Accumulator Nat queryCount K}
    (counted : Counted accumulator) (hit : GraphResult ItemPointer K) (key : Nat)
    (queryOrdinal : Fin queryCount) (queryWeight : K) (duplicateDocHit : Bool) :
    Grows (if (accumulator.docs key).isSome then 0 else 1) accumulator
      (accumulateDoc accumulator hit key queryOrdinal queryWeight duplicateDocHit) := by
  obtain ⟨⟨keys, distinct, listed, count⟩, slabs⟩ := counted
  have present (other : Nat) :
      ((accumulateDoc accumulator hit key queryOrdinal queryWeight duplicateDocHit).docs
        other).isSome ↔ other = key ∨ (accumulator.docs other).isSome := by
    rw [accumulateDoc]
    dsimp only
    by_cases same : other = key
    · subst same
      rw [Function.update_self]
      simp
    · rw [Function.update_of_ne same]
      simp [same]
  by_cases known : (accumulator.docs key).isSome = true
  · have arena : (accumulateDoc accumulator hit key queryOrdinal queryWeight
        duplicateDocHit).arena = accumulator.arena := by
      rw [accumulateDoc]
      dsimp only
      rw [if_neg (by simp [Option.isNone_iff_eq_none, Option.isSome_iff_ne_none.mp known])]
    have members (other : Nat) :
        ((accumulateDoc accumulator hit key queryOrdinal queryWeight duplicateDocHit).docs
          other).isSome ↔ other ∈ keys := by
      rw [present, listed]
      refine ⟨fun either => either.elim (fun same => ?_) id, Or.inr⟩
      exact same ▸ (listed key).mp known
    rw [if_pos known]
    exact ⟨⟨⟨keys, distinct, members, by rw [arena]; exact count⟩, by rw [arena]; exact slabs⟩,
      by rw [arena]; exact le_refl _, fun other found => (present other).mpr (Or.inr found),
      by rw [arena]⟩
  · obtain ⟨slabs', docs, capacity⟩ := allocDoc_slabs slabs
    have arena : (accumulateDoc accumulator hit key queryOrdinal queryWeight
        duplicateDocHit).arena = accumulator.arena.allocDoc queryCount := by
      rw [accumulateDoc]
      dsimp only
      rw [if_pos (by simpa using known)]
    have members (other : Nat) :
        ((accumulateDoc accumulator hit key queryOrdinal queryWeight duplicateDocHit).docs
          other).isSome ↔ other ∈ key :: keys := by
      rw [present, listed, List.mem_cons]
    have fresh : key ∉ keys := fun member => known ((listed key).mpr member)
    rw [if_neg known]
    refine ⟨⟨⟨key :: keys, List.nodup_cons.mpr ⟨fresh, distinct⟩, members, ?_⟩, ?_⟩, ?_,
      fun other found => (present other).mpr (Or.inr found), ?_⟩
    · rw [arena, docs, List.length_cons, count]
    · rw [arena]
      exact slabs'
    · rw [arena, docs]
    · rw [arena, capacity]

theorem accumulateDoc_present (accumulator : Accumulator Nat queryCount K)
    (hit : GraphResult ItemPointer K) (key : Nat) (queryOrdinal : Fin queryCount) (queryWeight : K)
    (duplicateDocHit : Bool) :
    ((accumulateDoc accumulator hit key queryOrdinal queryWeight duplicateDocHit).docs
      key).isSome := by
  rw [accumulateDoc]
  dsimp only
  rw [Function.update_self]
  rfl

/-- **The hits of a token** add no more documents than they are, nor more than the limit. -/
theorem accumulateHits_counted {source : DocMapSource} {uniqueDocsPerToken : Nat}
    {queryWeight : Fin queryCount → K} {qi : Fin queryCount}
    (hits : List (GraphResult ItemPointer K)) {state next : TokenState queryCount K}
    (run : accumulateHits source uniqueDocsPerToken queryWeight qi hits state = .ok next)
    (counted : Counted state.accumulator)
    (seen : ∀ docId ∈ state.tokenSeen, (state.accumulator.docs docId).isSome)
    (room : state.tokenSeen.length < uniqueDocsPerToken) :
    Grows (min hits.length (uniqueDocsPerToken - state.tokenSeen.length)) state.accumulator
      next.accumulator := by
  induction hits generalizing state with
  | nil =>
    obtain rfl : state = next := Except.ok.inj run
    exact ⟨counted, Nat.le_add_right _ _, fun _ found => found, rfl⟩
  | cons hit hits ih =>
    rw [accumulateHits] at run
    obtain ⟨named, _, run⟩ := bind_ok run
    have one := accumulateDoc_grows counted named.docHit named.docId qi (queryWeight qi)
    have here := accumulateDoc_present state.accumulator named.docHit named.docId qi
      (queryWeight qi)
    by_cases known : named.docId ∈ state.tokenSeen
    · simp only [known, not_true_eq_false, decide_false, Bool.false_eq_true, if_false] at run
      have same := one (!false)
      rw [if_pos (seen _ known)] at same
      have later := ih run same.counted (fun docId member => same.kept docId (seen docId member))
        room
      refine (same.trans later).weaken ?_
      dsimp only
      rw [List.length_cons]
      omega
    · simp only [known, not_false_eq_true, decide_true, if_true] at run
      have single := (one (!true)).weaken (show _ ≤ 1 by split_ifs <;> omega)
      by_cases enough : uniqueDocsPerToken ≤ (named.docId :: state.tokenSeen).length
      · rw [if_pos enough] at run
        obtain rfl := Except.ok.inj run
        refine single.weaken ?_
        rw [List.length_cons]
        omega
      · rw [if_neg enough] at run
        have later := ih run single.counted
          (fun docId member => (List.mem_cons.mp member).elim
            (fun same => same ▸ here (!true))
            fun earlier => single.kept docId (seen docId earlier))
          (not_le.mp enough)
        refine (single.trans later).weaken ?_
        rw [List.length_cons, List.length_cons] at *
        omega

/-! ### The hits of a token -/

theorem exactTokenScan_length {graph : ScanGraph ItemPointer K} {rawTarget : Nat}
    {hits : List (GraphResult ItemPointer K)} (run : exactTokenScan graph rawTarget = .ok hits) :
    hits.length ≤ rawTarget := by
  rw [exactTokenScan] at run
  by_cases none_ : rawTarget = 0
  · rw [if_pos none_] at run
    obtain rfl := Except.ok.inj run
    exact Nat.zero_le _
  · rw [if_neg none_] at run
    obtain ⟨heap, offered, rfl⟩ := map_ok run
    have keeps := @foldlM_invariant String (Array (GraphResult ItemPointer K)) Nat _
      (fun _ heap => ∃ seen, BoundedHeap.KeepsBy GraphResult.key rawTarget seen heap)
      (fun {taken before nodeId after} kept step => by
        obtain ⟨seen, keeps⟩ := kept
        rw [offerNode] at step
        split_ifs at step
        · obtain rfl := Except.ok.inj step
          exact ⟨seen, keeps⟩
        · obtain rfl := Except.ok.inj step
          exact ⟨_, offerCandidate_keeps (Nat.pos_of_ne_zero none_) keeps [graph.scored nodeId]⟩)
      _ [] _ _ ⟨[], BoundedHeap.keepsBy_empty _ _⟩ offered
    obtain ⟨seen, keeps⟩ := keeps
    have count := keeps.selects.count
    rw [List.length_map] at count
    rw [(sortResults_perm _).length_eq, count]
    exact min_le_left _ _

/-- **The growing target** ends with enough different documents or at its maximum. -/
theorem widen_stops {settings : TokenSettings} {source : DocMapSource}
    {run : Int → Except String (List (GraphResult ItemPointer K))} {most target : Int}
    {known : List ItemPointer} {found : TokenHits K}
    (widened : widen settings source run most target known = .ok found) (below : target ≤ most) :
    target ≤ found.rawTarget ∧ found.rawTarget ≤ most ∧ run found.rawTarget = .ok found.hits ∧
      (settings.adaptiveWidening = false ∨ settings.uniqueDocsPerToken ≤ found.uniqueDocs ∨
        found.rawTarget = most) := by
  fun_induction widen settings source run most target known with
  | case1 => cases widened
  | case2 target known hits returned counted enough =>
    obtain rfl := Except.ok.inj widened
    exact ⟨le_refl _, below, returned, enough.imp id Or.inl⟩
  | case3 target known hits returned counted few stop =>
    obtain rfl := Except.ok.inj widened
    exact ⟨le_refl _, below, returned, Or.inr (Or.inr (le_antisymm below stop))⟩
  | case4 target known hits returned counted few more ih =>
    obtain ⟨above, rest⟩ := ih widened (min_le_left _ _)
    have grows : target + 1 ≤ wider most target := le_min (by omega) (le_max_left _ _)
    exact ⟨by omega, rest⟩

theorem widen_returns (settings : TokenSettings) (source : DocMapSource)
    {run : Int → Except String (List (GraphResult ItemPointer K))}
    (returns : ∀ target, ∃ hits, run target = .ok hits) (most target : Int)
    (known : List ItemPointer) :
    ∃ found, widen settings source run most target known = .ok found := by
  fun_induction widen settings source run most target known with
  | case1 target known message failed =>
    obtain ⟨hits, returned⟩ := returns target
    rw [failed] at returned
    cases returned
  | case2 => exact ⟨_, rfl⟩
  | case3 => exact ⟨_, rfl⟩
  | case4 target known hits returned counted few more ih => exact ih

theorem rawTargets_order (settings : TokenSettings) (targetK : Int) (tqNodeCount : Nat) :
    1 ≤ (rawTargets settings targetK tqNodeCount).initial ∧
      (rawTargets settings targetK tqNodeCount).initial ≤
        (rawTargets settings targetK tqNodeCount).most :=
  ⟨le_max_right _ _, le_max_right _ _⟩

theorem rawTargets_fixed {settings : TokenSettings} (fixed : settings.adaptiveWidening = false)
    (targetK : Int) (tqNodeCount : Nat) :
    (rawTargets settings targetK tqNodeCount).initial =
      (rawTargets settings targetK tqNodeCount).most := by
  rw [rawTargets]
  simp only [fixed, Bool.false_eq_true, if_false]
  exact (max_eq_right (le_max_left _ _)).symm

namespace TokenLoop

variable {loop : TokenLoop queryCount K} {source : DocMapSource}

theorem tokenHits_bounded {qi : Fin queryCount} {known : List ItemPointer} {found : TokenHits K}
    (scanned : loop.tokenHits source qi known = .ok found) :
    found.hits.length ≤ loop.targets.most.toNat := by
  have order := rawTargets_order loop.settings loop.targetK loop.graph.tqNodeCount
  rw [tokenHits] at scanned
  by_cases exact_ : loop.settings.exactTokenScan = true
  · rw [if_pos exact_] at scanned
    obtain ⟨hits, run, rfl⟩ := map_ok scanned
    exact exactTokenScan_length run
  · rw [if_neg exact_] at scanned
    obtain ⟨above, below, run, _⟩ := widen_stops scanned order.2
    have first : 1 ≤ loop.targets.initial := order.1
    have bound := loop.traversal.bounded qi found.rawTarget found.hits (by omega) run
    omega

def perToken (loop : TokenLoop queryCount K) : Nat :=
  (min loop.targets.most loop.settings.uniqueDocsPerToken).toNat

theorem addHits_grows {qi : Fin queryCount} {known : List ItemPointer} {found : TokenHits K}
    (scanned : loop.tokenHits source qi known = .ok found)
    {accumulator : Accumulator Nat queryCount K} (counted : Counted accumulator) (count : Nat)
    {next : TokenState queryCount K}
    (added : loop.addHits source qi found (found.hits.take count) accumulator = .ok next) :
    Grows loop.perToken accumulator next.accumulator := by
  have bound := tokenHits_bounded scanned
  have grows := accumulateHits_counted _ added counted
    (fun docId member => absurd member List.not_mem_nil) loop.settings.unique_pos
  refine grows.weaken ?_
  have shorter : (found.hits.take count).length ≤ found.hits.length :=
    List.length_take_le' _ _
  rw [perToken]
  dsimp only
  rw [List.length_nil]
  omega

theorem scanToken_grows {qi : Fin queryCount} {state next : TokenState queryCount K}
    (counted : Counted state.accumulator) (scanned : loop.scanToken source state qi = .ok next) :
    Grows loop.perToken state.accumulator next.accumulator := by
  rw [scanToken] at scanned
  by_cases skipped : loop.skipQueryToken qi = true
  · rw [if_pos skipped] at scanned
    obtain rfl := Except.ok.inj scanned
    exact ⟨counted, Nat.le_add_right _ _, fun _ found => found, rfl⟩
  · rw [if_neg skipped] at scanned
    obtain ⟨found, read, added⟩ := bind_ok scanned
    rw [← List.take_length (l := found.hits)] at added
    exact addHits_grows read counted _ added

theorem tokens_grow (tokens : List (Fin queryCount)) {state next : TokenState queryCount K}
    (counted : Counted state.accumulator)
    (scanned : tokens.foldlM (loop.scanToken source) state = .ok next) :
    Grows (tokens.length * loop.perToken) state.accumulator next.accumulator := by
  induction tokens generalizing state with
  | nil =>
    obtain rfl : state = next := Except.ok.inj scanned
    exact ⟨counted, Nat.le_add_right _ _, fun _ found => found, rfl⟩
  | cons qi tokens ih =>
    rw [List.foldlM_cons] at scanned
    obtain ⟨middle, first, rest⟩ := bind_ok scanned
    have one := scanToken_grows counted first
    refine (one.trans (ih one.counted rest)).weaken (le_of_eq ?_)
    rw [List.length_cons]
    ring

theorem start_counted (loop : TokenLoop queryCount K) : Counted loop.start.accumulator :=
  ⟨⟨[], List.nodup_nil, fun _ => by simp [start], rfl⟩, init_slabs _⟩

theorem fits_of_grows (checked : loop.checkMemory = .ok ()) {tokens : Nat}
    (few : tokens ≤ queryCount) {accumulator : Accumulator Nat queryCount K}
    (grows : Grows (tokens * loop.perToken) loop.start.accumulator accumulator) :
    loop.Fits accumulator := by
  have positive : 0 < loop.capacity := lt_max_of_lt_right Nat.one_pos
  have bound : accumulator.arena.allocatedDocs ≤ loop.capacity := by
    have none_ : loop.start.accumulator.arena.allocatedDocs = 0 := rfl
    have docs := grows.docs
    rw [none_, Nat.zero_add, Nat.mul_comm] at docs
    exact docs.trans ((Nat.mul_le_mul_left _ few).trans (le_max_left _ _))
  constructor
  · obtain ⟨keys, distinct, listed, count⟩ := grows.counted.keys
    exact ⟨keys, distinct, listed, count ▸ bound⟩
  · exact slabs_bytes_le grows.counted.slabs grows.capacity positive bound
  · rw [checkMemory, checkAccumulatorMemory] at checked
    split_ifs at checked with more
    exact not_lt.mp more

theorem reaches_fits {state : TokenState queryCount K} (reaches : loop.Reaches source state) :
    loop.Fits state.accumulator := by
  rcases reaches with ⟨checked, done, rest, tokens, reached⟩ |
    ⟨checked, done, rest, qi, tokens, before, reached, found, scanned, count, added⟩
  · have length := congrArg List.length tokens
    rw [List.length_finRange, List.length_append] at length
    exact fits_of_grows checked (by omega) (tokens_grow done loop.start_counted reached)
  · have length := congrArg List.length tokens
    rw [List.length_finRange, List.length_append, List.length_cons] at length
    have early := tokens_grow done loop.start_counted reached
    have late := addHits_grows scanned early.counted count added
    have both := early.trans late
    rw [← Nat.succ_mul] at both
    exact fits_of_grows checked (by omega) both

end TokenLoop

/-- The three live nodes at most, however many are asked for. -/
def twoRowHits (_ : Fin 2) (target : Int) : Except String (List (GraphResult ItemPointer ℚ)) :=
  .ok ((([0, 1, 2] : List Nat).map twoRows.scored).take target.toNat)

theorem twoRowHits_bounded (qi : Fin 2) (target : Int) (found : List (GraphResult ItemPointer ℚ))
    (positive : 0 < target) (run : twoRowHits qi target = .ok found) :
    (found.length : Int) ≤ target := by
  obtain rfl := Except.ok.inj run
  have short : ((([0, 1, 2] : List Nat).map twoRows.scored).take target.toNat).length ≤
      target.toNat := List.length_take_le _ _
  omega

theorem twoDocs_pos : 0 < 2 := by decide

def twoRowSettings : TokenSettings := ⟨1, 2, 400, true, false, 64, twoDocs_pos⟩

def twoRowLoop : TokenLoop 2 ℚ where
  settings := twoRowSettings
  targetK := 1
  graph := twoRows
  tokenDistance := twoRowScan.tokenDistance
  traversal := ⟨twoRowHits, twoRowHits_bounded⟩
  queryWeight := fun _ => 1
  skipQueryToken := fun _ => false
  hashEstimateSize := fun docs size => docs * size

end TurboHybrid.Accumulate
