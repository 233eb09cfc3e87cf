/-
**Loading nodes when they are needed.**

A scan without a cache loads the code page of a node when it first needs one. The block of a page is
looked up in a map; where that has none, the start of the chain plus the page number is taken if the
page there is a code page, else the whole map is filled from the chain.

* `loads_iff`: every call is right, in any order of calls, exactly when no page is asked for whose
  guess is another code page, until a guess that is no code page has filled the map;
* `wrongGuess_missing`: a guess that meets another page of the chain reports a node as absent.
-/
import TurboHybrid.Graph.InsertFailure
import TurboHybrid.Graph.BlockMap

namespace TurboHybrid.CodeChain

open TurboHybrid.Library

variable {Body : Type}

/-! ### The block map -/

/-- The loop over the pages of a map. At a page that is mapped the walk goes on from its block. -/
def fillBlockMap (pages : List (CodePage Body)) :
    Nat → Nat → Option Nat → (Nat → Option Nat) → Except String (Bool × (Nat → Option Nat))
  | 0, _, _, blknos => .ok (true, blknos)
  | left + 1, pageNo, blkno, blknos =>
    match blknos pageNo with
    | some known => fillBlockMap pages left (pageNo + 1) (some known) blknos
    | none =>
      match blkno with
      | none => .ok (false, blknos)
      | some blkno =>
        match pages[blkno]? with
        | none => .error "could not read block"
        | some page =>
          if page.kind ≠ some .quantCode then .ok (false, blknos)
          else
            fillBlockMap pages left (pageNo + 1) page.next
              (Function.update blknos pageNo (some blkno))

def ensureBlockMap (pages : List (CodePage Body)) (start : Nat) (count : Nat)
    (blknos : Nat → Option Nat) : Except String (Bool × (Nat → Option Nat)) :=
  if count = 0 then .ok (true, blknos)
  else if (blknos (count - 1)).isSome then .ok (true, blknos)
  else fillBlockMap pages count 0 (some start) blknos

def getMappedBlockNumber (start pageNo : Nat) (blknos : Nat → Option Nat) : Nat :=
  (blknos pageNo).getD (start + pageNo)

/-- The block of a page by the map, which is filled first where it has none. -/
def resolveChainBlockNumber (pages : List (CodePage Body)) (start pageNo count : Nat)
    (blknos : Nat → Option Nat) : Except String (Option Nat × (Nat → Option Nat)) :=
  if count ≤ pageNo then .ok (none, blknos)
  else
    match blknos pageNo with
    | some blkno => .ok (some blkno, blknos)
    | none =>
      match ensureBlockMap pages start count blknos with
      | .error message => .error message
      | .ok (false, blknos) => .ok (none, blknos)
      | .ok (true, blknos) => .ok (blknos pageNo, blknos)

/-! ### Code pages -/

structure ScanStorage (Body : Type) where
  codeTuplesPerPage : Nat
  codePageCount : Nat
  codeBlknos : Nat → Option Nat
  codePagesLoaded : Nat → Bool
  nodes : Nat → Option Body
  cached : Bool

def initStorage (tupleSize nodeCount : Nat) : ScanStorage Body :=
  { codeTuplesPerPage := tuplesPerPage tupleSize
    codePageCount := pageCount nodeCount (tuplesPerPage tupleSize)
    codeBlknos := fun _ => none
    codePagesLoaded := fun _ => false
    nodes := fun _ => none
    cached := false }

def loadTuple (nodeCount : Nat) (nodes : Nat → Option Body) (tuple : CodeTuple Body) :
    Nat → Option Body :=
  if tuple.type ≠ codeTupleType ∨ nodeCount ≤ tuple.nodeId then nodes
  else Function.update nodes tuple.nodeId (some tuple.body)

def loadTuples (nodeCount nodeId pageNo : Nat) (storage : ScanStorage Body)
    (items : List (CodeTuple Body)) : Bool × ScanStorage Body :=
  let nodes := items.foldl (loadTuple nodeCount) storage.nodes
  ((nodes nodeId).isSome,
    { storage with
      nodes := nodes
      codePagesLoaded := Function.update storage.codePagesLoaded pageNo true })

/-- The page of the map or of the guess; if that is no code page, the one that the chain names. -/
def readCodePage (pages : List (CodePage Body)) (nodeCount start pageNo : Nat)
    (storage : ScanStorage Body) (nodeId : Nat) : Except String (Bool × ScanStorage Body) :=
  match pages[getMappedBlockNumber start pageNo storage.codeBlknos]? with
  | none => .error "could not read block"
  | some page =>
    if page.kind = some .quantCode then
      .ok (loadTuples nodeCount nodeId pageNo storage page.items)
    else
      match resolveChainBlockNumber pages start pageNo storage.codePageCount
          storage.codeBlknos with
      | .error message => .error message
      | .ok (none, blknos) => .ok (false, { storage with codeBlknos := blknos })
      | .ok (some blkno, blknos) =>
        match pages[blkno]? with
        | none => .error "could not read block"
        | some page =>
          if page.kind = some .quantCode then
            .ok (loadTuples nodeCount nodeId pageNo { storage with codeBlknos := blknos }
              page.items)
          else .ok (false, { storage with codeBlknos := blknos })

/-- Whether the node is loaded, or the error of a block that cannot be read. -/
def loadCodePage (pages : List (CodePage Body)) (nodeCount : Nat) (codeStart : Option Nat)
    (storage : ScanStorage Body) (nodeId : Nat) : Except String (Bool × ScanStorage Body) :=
  match codeStart with
  | none => .ok (false, storage)
  | some start =>
    if nodeCount ≤ nodeId then .ok (false, storage)
    else if storage.cached ∧ (storage.nodes nodeId).isSome then .ok (true, storage)
    else if storage.codePageCount ≤ nodeId / storage.codeTuplesPerPage then .ok (false, storage)
    else if storage.codePagesLoaded (nodeId / storage.codeTuplesPerPage) then
      .ok ((storage.nodes nodeId).isSome, storage)
    else
      readCodePage pages nodeCount start (nodeId / storage.codeTuplesPerPage) storage nodeId

/-! ### Orders of calls -/

/-- What a node should be loaded with: the vector of its tuple in the chain, if it is a node. -/
def ownVector (state : IndexState Body) (nodeId : Nat) : Option Body :=
  if nodeId < state.nodeCount then vectorOf state.pages state.codeStart nodeId else none

/-- Each of the calls reports whether the chain has a tuple for its node, and loads that. -/
def LoadsRight (state : IndexState Body) : ScanStorage Body → List Nat → Prop
  | _, [] => True
  | storage, nodeId :: calls =>
    ∃ after, loadCodePage state.pages state.nodeCount state.codeStart storage nodeId =
        .ok ((ownVector state nodeId).isSome, after) ∧
      ((ownVector state nodeId).isSome → after.nodes nodeId = ownVector state nodeId) ∧
      LoadsRight state after calls

def guessBlock (start : Option Nat) (pageNo : Nat) : Option Nat := start.map (· + pageNo)

def isCode (pages : List (CodePage Body)) (block : Option Nat) : Bool :=
  decide ((block.bind fun block => pages[block]?.bind Page.kind) = some .quantCode)

def chainBlock (pages : List (CodePage Body)) : Nat → Option Nat → Option Nat
  | 0, block => block
  | pageNo + 1, block =>
    block.bind fun block => pages[block]?.bind fun page => chainBlock pages pageNo page.next

def GuessRight (state : IndexState Body) (pageNo : Nat) : Prop :=
  isCode state.pages (guessBlock state.codeStart pageNo) = true →
    chainBlock state.pages pageNo state.codeStart = guessBlock state.codeStart pageNo

instance (state : IndexState Body) (pageNo : Nat) : Decidable (GuessRight state pageNo) :=
  inferInstanceAs (Decidable (_ → _))

/-- **No wrong guess** in an order of calls: until one that meets no code page has filled the map. -/
def GuessesRight (state : IndexState Body) (tuplesPerPage : Nat) : Bool → List Nat → Prop
  | _, [] => True
  | mapped, nodeId :: calls =>
    if nodeId < state.nodeCount then
      (mapped = true ∨ GuessRight state (nodeId / tuplesPerPage)) ∧
        GuessesRight state tuplesPerPage
          (mapped || !isCode state.pages (guessBlock state.codeStart (nodeId / tuplesPerPage))) calls
    else GuessesRight state tuplesPerPage mapped calls

instance decidableGuesses (state : IndexState Body) (tuplesPerPage : Nat) :
    (mapped : Bool) → (calls : List Nat) → Decidable (GuessesRight state tuplesPerPage mapped calls)
  | _, [] => isTrue trivial
  | mapped, nodeId :: calls =>
    have := decidableGuesses state tuplesPerPage
      (mapped || !isCode state.pages (guessBlock state.codeStart (nodeId / tuplesPerPage))) calls
    have := decidableGuesses state tuplesPerPage mapped calls
    inferInstanceAs (Decidable (if nodeId < state.nodeCount then _ else _))

/-! ### The chain of a reached state -/

def CodeUnwritten (state : IndexState Body) (action : InsertAction Body) : Prop :=
  action = .fail → state.codeWritten = false

instance (state : IndexState Body) (action : InsertAction Body) :
    Decidable (CodeUnwritten state action) :=
  match action with
  | .fail => decidable_of_iff (state.codeWritten = false) (by simp [CodeUnwritten])
  | .start _ _ _ | .reciprocal _ _ | .code | .adjacency | .publish | .repair _ _ | .turn _ _
  | .leave _ | .extend _ | .rewrite _ _ => isTrue fun failed => nomatch failed

/-- **The chain that a scan finds**: it holds the code tuples of the nodes in order, and every code
page. -/
structure ScanChain (tupleSize : Nat) (state : IndexState Body) (blocks : List Nat)
    (bodies : List Body) : Prop where
  chain : IsChain .quantCode state.pages state.codeStart blocks
  sorted : blocks.Pairwise (· < ·)
  packed : Packed (tuplesPerPage tupleSize) state.pages blocks
  tuples : blockItems state.pages blocks = tuplesOf bodies
  nodes : state.nodeCount ≤ bodies.length
  onChain : 0 < state.nodeCount → OnChain state.pages blocks

section Chain

variable {index tupleSize : Nat} {state : IndexState Body} {blocks : List Nat} {bodies : List Body}

/-- What runs keep in which no insert fails behind its code tuple. -/
structure ChainKept (index tupleSize : Nat) (state : IndexState Body) : Prop where
  holds : ∃ blocks bodies, CodeSound index tupleSize state blocks bodies ∧
    (0 < perPage tupleSize → OnChain state.pages blocks)

theorem chainKept_reached {dataBytes : Nat} {start : IndexState Body}
    (built : Built (codeTupleSize dataBytes) bodies start)
    (reached : ReachedBy (insertStep index (codeTupleSize dataBytes)) CodeUnwritten start state) :
    ChainKept index (codeTupleSize dataBytes) state := by
  have positive : 0 < codeTupleSize dataBytes := by
    unfold codeTupleSize
    omega
  refine reached.invariant ?_ ?_
  · obtain ⟨others, final, start, adjacency, kinds, ran, rfl⟩ := built.written
    obtain ⟨blocks, sound, onChain⟩ := @codeSound_built _ index _ _ _ _ _ positive kinds ran adjacency
    exact ⟨blocks, bodies, sound, fun _ => onChain⟩
  · rintro state after action ⟨blocks, bodies, sound, onChain⟩ meets stepped
    obtain ⟨blocks', bodies', step⟩ :=
      codeSound_step sound positive (fun failed => Or.inr (meets failed)) stepped
    exact ⟨blocks', bodies', step.sound, fun room => step.onChain room meets (onChain room)⟩

theorem ChainKept.scanChain (kept : ChainKept index tupleSize state) :
    ∃ blocks bodies, ScanChain tupleSize state blocks bodies ∧
      ∀ id < state.nodeCount, vectorOf state.pages state.codeStart id = bodies[id]? := by
  obtain ⟨blocks, bodies, sound, onChain⟩ := kept.holds
  rcases Nat.eq_zero_or_pos state.nodeCount with zero | some
  · refine ⟨[], [], ⟨sound.started.mpr zero, List.Pairwise.nil, trivial, rfl, zero.le, ?_⟩, ?_⟩
    · intro some
      exact absurd zero some.ne'
    · intro id below
      exact absurd (zero ▸ below) (Nat.not_lt_zero _)
  · have current := sound.current some
    have room : 0 < perPage tupleSize := by
      rcases Nat.eq_zero_or_pos (perPage tupleSize) with large | room
      · have length := congrArg List.length sound.tuples
        rw [sound.blocks_nil large, length_tuplesOf, sound.count] at length
        exact absurd (Nat.eq_zero_of_add_eq_zero_right length.symm) some.ne'
      · exact room
    have size : tuplesPerPage tupleSize = perPage tupleSize := by
      rw [tuplesPerPage]
      exact max_eq_right room
    refine ⟨blocks, bodies, ⟨current ▸ sound.chain, sound.sorted, size ▸ sound.packed, sound.tuples,
      ?_, fun _ => onChain room⟩, ?_⟩
    · rw [sound.count]
      exact Nat.le_add_right _ _
    · intro id _
      rw [← current]
      exact sound.vectorOf_eq id

theorem tuplesPerPage_pos (tupleSize : Nat) : 0 < tuplesPerPage tupleSize :=
  Nat.lt_of_lt_of_le Nat.one_pos (le_max_left _ _)

theorem chainBlock_eq {pages : List (CodePage Body)} {start : Option Nat}
    (chain : IsChain .quantCode pages start blocks) (pageNo : Nat) :
    chainBlock pages pageNo start = blocks[pageNo]? := by
  induction pageNo generalizing start blocks with
  | zero =>
    cases blocks with
    | nil => exact chain
    | cons first rest => exact chain.1
  | succ pageNo ih =>
    cases blocks with
    | nil =>
      rw [show start = none from chain]
      rfl
    | cons first rest =>
      obtain ⟨rfl, page, there, -, later⟩ := chain
      rw [chainBlock, Option.bind_some, there, Option.bind_some, ih later]
      rfl

theorem sorted_rises (sorted : blocks.Pairwise (· < ·)) {pageNo block first : Nat}
    (start : blocks[0]? = some first) (here : blocks[pageNo]? = some block) :
    first + pageNo ≤ block := by
  induction pageNo generalizing block with
  | zero =>
    obtain rfl := Option.some.inj (start.symm.trans here)
    exact le_rfl
  | succ pageNo ih =>
    obtain ⟨inside, rfl⟩ := List.getElem?_eq_some_iff.mp here
    have before := ih (List.getElem?_eq_getElem (Nat.lt_of_succ_lt inside))
    have rises := List.pairwise_iff_getElem.mp sorted pageNo (pageNo + 1)
      (Nat.lt_of_succ_lt inside) inside (Nat.lt_succ_self _)
    omega

/-- **The tuples of a page** are those of the nodes that its number names. -/
theorem packed_tuples {pages : List (CodePage Body)} {size : Nat} (positive : 0 < size)
    (packed : Packed size pages blocks) (tuples : blockItems pages blocks = tuplesOf bodies)
    {pageNo block : Nat} (here : blocks[pageNo]? = some block) {page : CodePage Body}
    (there : pages[block]? = some page) {tuple : CodeTuple Body} :
    tuple ∈ page.items ↔ ∃ id body, id / size = pageNo ∧ bodies[id]? = some body ∧
      tuple = codeTuple id body := by
  have whole (position : Nat) := packed_getElem packed position
  constructor
  · intro member
    obtain ⟨offset, inside, rfl⟩ := List.getElem_of_mem member
    have short := inside.trans_le (packed.short (List.mem_of_getElem? here) there)
    have position := whole (pageNo * size + offset)
    have quotient : (pageNo * size + offset) / size = pageNo := by
      rw [Nat.mul_comm, Nat.mul_add_div positive, Nat.div_eq_of_lt short, Nat.add_zero]
    have remainder : (pageNo * size + offset) % size = offset := by
      rw [Nat.mul_comm, Nat.mul_add_mod, Nat.mod_eq_of_lt short]
    rw [quotient, remainder, here, Option.bind_some, there, Option.bind_some,
      List.getElem?_eq_getElem inside, tuples, tuplesOf_getElem] at position
    obtain ⟨body, found, same⟩ := Option.map_eq_some_iff.mp position
    exact ⟨_, body, quotient, found, same.symm⟩
  · rintro ⟨id, body, quotient, found, rfl⟩
    have position := whole id
    rw [quotient, here, Option.bind_some, there, Option.bind_some, tuples, tuplesOf_getElem,
      found] at position
    exact List.mem_of_getElem? position.symm

theorem ScanChain.page_tuples (scan : ScanChain tupleSize state blocks bodies)
    {pageNo block : Nat} (here : blocks[pageNo]? = some block) {page : CodePage Body}
    (there : state.pages[block]? = some page) {tuple : CodeTuple Body} :
    tuple ∈ page.items ↔ ∃ id body, id / tuplesPerPage tupleSize = pageNo ∧
      bodies[id]? = some body ∧ tuple = codeTuple id body :=
  packed_tuples (tuplesPerPage_pos tupleSize) scan.packed scan.tuples here there

/-! ### The map and the nodes -/

def mapUpTo (blocks : List Nat) (count pageNo : Nat) : Option Nat :=
  if pageNo < count then blocks[pageNo]? else none

theorem fillBlockMap_eq (pages : List (CodePage Body)) (left pageNo : Nat) (blkno : Option Nat)
    (blknos : Nat → Option Nat) : fillBlockMap pages left pageNo blkno blknos =
      BlockMap.fillBlockMap .quantCode pages left pageNo blkno blknos := by
  induction left generalizing pageNo blkno blknos with
  | zero => rfl
  | succ left ih =>
    unfold fillBlockMap BlockMap.fillBlockMap
    cases blknos pageNo with
    | some known => exact ih ..
    | none =>
      cases blkno with
      | none => rfl
      | some block =>
        simp only
        cases pages[block]? with
        | none => rfl
        | some page => exact ite_congr rfl (fun _ => rfl) fun _ => ih ..

theorem resolve_chain {pages : List (CodePage Body)} {start count pageNo : Nat}
    (chain : IsChain .quantCode pages (some start) blocks) (enough : count ≤ blocks.length)
    (inside : pageNo < count) :
    resolveChainBlockNumber pages start pageNo count (fun _ => none) =
      .ok (blocks[pageNo]?, mapUpTo blocks count) := by
  have filled : fillBlockMap pages (count + 0) 0 (some start) (fun _ => none) =
      .ok (true, mapUpTo blocks count) := by
    rw [fillBlockMap_eq]
    exact BlockMap.fillBlockMap_unmapped chain (fun _ _ => rfl) enough
  have ensured : ensureBlockMap pages start count (fun _ => none) =
      .ok (true, mapUpTo blocks count) := by
    unfold ensureBlockMap
    rw [if_neg (by omega), if_neg (by simp)]
    exact filled
  unfold resolveChainBlockNumber
  rw [if_neg (not_le.mpr inside)]
  simp only [ensured]
  exact congrArg (fun block => Except.ok (block, mapUpTo blocks count)) (if_pos inside)

theorem foldl_loadTuple_of_mem {nodeCount id : Nat} (below : id < nodeCount)
    {items : List (CodeTuple Body)} (own : ∀ tuple ∈ items, ∃ id body, bodies[id]? = some body ∧
      tuple = codeTuple id body) {nodes : Nat → Option Body}
    (found : (∃ tuple ∈ items, tuple.nodeId = id) ∨ nodes id = bodies[id]?) :
    items.foldl (loadTuple nodeCount) nodes id = bodies[id]? := by
  induction items generalizing nodes with
  | nil =>
    rcases found with ⟨tuple, none, -⟩ | here
    · cases none
    · exact here
  | cons tuple rest ih =>
    refine ih (fun other member => own other (List.mem_cons_of_mem _ member)) ?_
    obtain ⟨other, body, vector, rfl⟩ := own tuple List.mem_cons_self
    by_cases same : other = id
    · subst same
      refine Or.inr ?_
      unfold loadTuple
      rw [if_neg (by simpa [codeTuple] using below)]
      show Function.update nodes other (some body) other = _
      rw [Function.update_self, vector]
    · refine found.imp ?_ ?_
      · rintro ⟨tuple, member, rfl⟩
        rcases List.mem_cons.mp member with rfl | later
        · exact absurd rfl same
        · exact ⟨tuple, later, rfl⟩
      · intro here
        unfold loadTuple
        split_ifs
        · exact here
        · show Function.update nodes other (some body) id = _
          rw [Function.update_of_ne (Ne.symm same), here]

theorem foldl_loadTuple_of_not_mem {nodeCount id : Nat} {items : List (CodeTuple Body)}
    (absent : ∀ tuple ∈ items, tuple.nodeId ≠ id) (nodes : Nat → Option Body) :
    items.foldl (loadTuple nodeCount) nodes id = nodes id := by
  induction items generalizing nodes with
  | nil => rfl
  | cons tuple rest ih =>
    rw [List.foldl_cons, ih fun other member => absent other (List.mem_cons_of_mem _ member)]
    unfold loadTuple
    split_ifs
    · rfl
    · exact Function.update_of_ne (absent tuple List.mem_cons_self).symm _ _

/-! ### One call -/

/-- What calls keep of a storage: the map is empty or that of the chain, and the nodes of the pages
that are loaded are there. -/
structure Storing (tupleSize : Nat) (state : IndexState Body) (blocks : List Nat)
    (bodies : List Body) (mapped : Bool) (storage : ScanStorage Body) : Prop where
  perPage : storage.codeTuplesPerPage = tuplesPerPage tupleSize
  count : storage.codePageCount = pageCount state.nodeCount (tuplesPerPage tupleSize)
  map : storage.codeBlknos = if mapped then mapUpTo blocks storage.codePageCount else fun _ => none
  loaded : ∀ pageNo, storage.codePagesLoaded pageNo = true → mapped = true ∨
    isCode state.pages (guessBlock state.codeStart pageNo) = true ∧ GuessRight state pageNo
  nodes : ∀ id < state.nodeCount, storage.nodes id =
    if storage.codePagesLoaded (id / tuplesPerPage tupleSize) then bodies[id]? else none
  uncached : storage.cached = false

theorem storing_init : Storing tupleSize state blocks bodies false
    (initStorage tupleSize state.nodeCount) := by
  refine ⟨rfl, rfl, rfl, (fun _ none => nomatch none), fun _ _ => rfl, rfl⟩

theorem div_lt_pageCount {nodeCount size id : Nat} (positive : 0 < size) (below : id < nodeCount) :
    id / size < pageCount nodeCount size := by
  unfold pageCount
  rw [if_neg (Nat.ne_zero_of_lt below), Nat.lt_iff_add_one_le, Nat.le_div_iff_mul_le positive,
    Nat.add_mul, Nat.one_mul]
  have := Nat.div_mul_le_self id size
  omega

theorem ScanChain.pageNo (scan : ScanChain tupleSize state blocks bodies) {id : Nat}
    (below : id < state.nodeCount) :
    id / tuplesPerPage tupleSize < pageCount state.nodeCount (tuplesPerPage tupleSize) ∧
      pageCount state.nodeCount (tuplesPerPage tupleSize) ≤ blocks.length := by
  have positive := tuplesPerPage_pos tupleSize
  refine ⟨div_lt_pageCount positive below, ?_⟩
  unfold pageCount
  rw [if_neg (Nat.ne_zero_of_lt below)]
  · have most := (packed_length scan.packed).1
    rw [scan.tuples, length_tuplesOf] at most
    have nodes := scan.nodes
    rw [← Nat.lt_succ_iff, Nat.div_lt_iff_lt_mul positive, Nat.succ_mul]
    omega

/-- **A page of the chain is loaded**, and with it its nodes. -/
theorem ScanChain.load (scan : ScanChain tupleSize state blocks bodies) {id block : Nat}
    (below : id < state.nodeCount)
    (here : blocks[id / tuplesPerPage tupleSize]? = some block) {page : CodePage Body}
    (there : state.pages[block]? = some page) {storage : ScanStorage Body}
    (nodes : ∀ id < state.nodeCount, storage.nodes id =
      if storage.codePagesLoaded (id / tuplesPerPage tupleSize) then bodies[id]? else none) :
    ∃ after, loadTuples state.nodeCount id (id / tuplesPerPage tupleSize) storage page.items =
        (true, after) ∧ after.nodes id = bodies[id]? ∧
      after.codePagesLoaded = Function.update storage.codePagesLoaded
        (id / tuplesPerPage tupleSize) true ∧
      after.codeTuplesPerPage = storage.codeTuplesPerPage ∧
      after.codePageCount = storage.codePageCount ∧ after.codeBlknos = storage.codeBlknos ∧
      after.cached = storage.cached ∧
      ∀ id < state.nodeCount, after.nodes id =
        if after.codePagesLoaded (id / tuplesPerPage tupleSize) then bodies[id]? else none := by
  have own : ∀ tuple ∈ page.items, ∃ id body, bodies[id]? = some body ∧
      tuple = codeTuple id body := by
    intro tuple member
    obtain ⟨id, body, -, vector, same⟩ := (scan.page_tuples here there).mp member
    exact ⟨id, body, vector, same⟩
  have loads (other : Nat) (inside : other < state.nodeCount)
      (same : other / tuplesPerPage tupleSize = id / tuplesPerPage tupleSize) :
      page.items.foldl (loadTuple state.nodeCount) storage.nodes other = bodies[other]? := by
    refine foldl_loadTuple_of_mem inside own (Or.inl ?_)
    have vector := List.getElem?_eq_getElem (inside.trans_le scan.nodes)
    exact ⟨_, (scan.page_tuples here there).mpr ⟨other, _, same, vector, rfl⟩, rfl⟩
  have vector := List.getElem?_eq_getElem (below.trans_le scan.nodes)
  refine ⟨_, Prod.ext ?_ rfl, loads id below rfl, rfl, rfl, rfl, rfl, rfl, ?_⟩
  · show (page.items.foldl (loadTuple state.nodeCount) storage.nodes id).isSome = true
    rw [loads id below rfl, vector]
    rfl
  · intro other inside
    show page.items.foldl (loadTuple state.nodeCount) storage.nodes other =
      if Function.update storage.codePagesLoaded (id / tuplesPerPage tupleSize) true
        (other / tuplesPerPage tupleSize) = true then bodies[other]? else none
    by_cases same : other / tuplesPerPage tupleSize = id / tuplesPerPage tupleSize
    · rw [loads other inside same, same, Function.update_self, if_pos rfl]
    · rw [Function.update_of_ne same, ← nodes other inside]
      refine foldl_loadTuple_of_not_mem ?_ _
      rintro tuple member rfl
      obtain ⟨named, body, quotient, -, rfl⟩ := (scan.page_tuples here there).mp member
      exact same quotient

variable {mapped : Bool} {storage : ScanStorage Body} {id : Nat}

theorem isCode_of_page {pages : List (CodePage Body)} {block : Nat} {page : CodePage Body}
    (there : pages[block]? = some page) :
    isCode pages (some block) = true ↔ page.kind = some .quantCode := by
  unfold isCode
  rw [decide_eq_true_iff, Option.bind_some, there]
  rfl

theorem ScanChain.guess (scan : ScanChain tupleSize state blocks bodies) {start pageNo block : Nat}
    (codeStart : state.codeStart = some start) (here : blocks[pageNo]? = some block) :
    ∃ page, state.pages[start + pageNo]? = some page := by
  have chain := scan.chain
  rw [codeStart] at chain
  have first : blocks[0]? = some start := (chainBlock_eq chain 0).symm
  have rises := sorted_rises scan.sorted first here
  have inside := chain.lt (List.mem_of_getElem? here)
  exact ⟨_, List.getElem?_eq_getElem (rises.trans_lt inside)⟩

theorem loadCodePage_outside (outside : state.nodeCount ≤ id) :
    loadCodePage state.pages state.nodeCount state.codeStart storage id = .ok (false, storage) := by
  unfold loadCodePage
  cases state.codeStart with
  | none => rfl
  | some start => exact if_pos outside

theorem loadCodePage_inside (storing : Storing tupleSize state blocks bodies mapped storage)
    {start : Nat} (codeStart : state.codeStart = some start) (below : id < state.nodeCount)
    (inside : id / tuplesPerPage tupleSize < pageCount state.nodeCount (tuplesPerPage tupleSize)) :
    loadCodePage state.pages state.nodeCount state.codeStart storage id =
      if storage.codePagesLoaded (id / tuplesPerPage tupleSize) then
        .ok ((storage.nodes id).isSome, storage)
      else readCodePage state.pages state.nodeCount start (id / tuplesPerPage tupleSize) storage id := by
  unfold loadCodePage
  rw [codeStart]
  dsimp only
  rw [if_neg (not_le.mpr below), if_neg (by simp [storing.uncached]), storing.perPage,
    storing.count, if_neg (not_le.mpr inside)]

/-- **A call with a right guess, or a filled map, is right.** -/
theorem loadCodePage_right (scan : ScanChain tupleSize state blocks bodies)
    (storing : Storing tupleSize state blocks bodies mapped storage) {start : Nat}
    (codeStart : state.codeStart = some start) (below : id < state.nodeCount)
    (guess : mapped = true ∨ GuessRight state (id / tuplesPerPage tupleSize)) :
    ∃ after, loadCodePage state.pages state.nodeCount state.codeStart storage id =
        .ok (true, after) ∧ after.nodes id = bodies[id]? ∧
      Storing tupleSize state blocks bodies (mapped || !isCode state.pages
        (guessBlock state.codeStart (id / tuplesPerPage tupleSize))) after := by
  obtain ⟨inside, enough⟩ := scan.pageNo below
  have vector := List.getElem?_eq_getElem (below.trans_le scan.nodes)
  have here := List.getElem?_eq_getElem (inside.trans_le enough)
  obtain ⟨page, there, kind, -⟩ := scan.chain.page here
  have chain := scan.chain
  rw [codeStart] at chain
  rw [loadCodePage_inside storing codeStart below inside]
  by_cases loaded : storage.codePagesLoaded (id / tuplesPerPage tupleSize) = true
  · -- The page was loaded before.
    have node := storing.nodes id below
    rw [if_pos loaded] at node
    refine ⟨storage, ?_, node, ?_⟩
    · rw [if_pos loaded, node, vector]
      rfl
    · have same : (mapped || !isCode state.pages (guessBlock state.codeStart
          (id / tuplesPerPage tupleSize))) = mapped := by
        rcases storing.loaded _ loaded with all | ⟨code, -⟩
        · rw [all]
          rfl
        · rw [code]
          exact Bool.or_false _
      rw [same]
      exact storing
  · rw [if_neg loaded]
    unfold readCodePage
    -- Where the page of the chain is read, the call is right.
    have right (mapped' : Bool) (storage' : ScanStorage Body)
        (kept : Storing tupleSize state blocks bodies mapped' storage')
        (grows : mapped' = true ∨ isCode state.pages (guessBlock state.codeStart
          (id / tuplesPerPage tupleSize)) = true ∧
            GuessRight state (id / tuplesPerPage tupleSize)) :
        ∃ after, loadTuples state.nodeCount id (id / tuplesPerPage tupleSize) storage' page.items =
            (true, after) ∧ after.nodes id = bodies[id]? ∧
          Storing tupleSize state blocks bodies mapped' after := by
      obtain ⟨after, ran, node, pages, perPage, count, map, cached, nodes⟩ :=
        scan.load below here there kept.nodes
      refine ⟨after, ran, node, perPage.trans kept.perPage, count.trans kept.count, ?_, ?_, nodes,
        cached.trans kept.uncached⟩
      · rw [map, count]
        exact kept.map
      · intro pageNo now
        rw [pages, Function.update_apply] at now
        split_ifs at now with same
        · rw [same]
          exact grows
        · exact kept.loaded pageNo now
    cases mapped with
    | true =>
      have block : getMappedBlockNumber start (id / tuplesPerPage tupleSize) storage.codeBlknos =
          blocks[id / tuplesPerPage tupleSize] := by
        unfold getMappedBlockNumber
        rw [storing.map, if_pos rfl, storing.count]
        unfold mapUpTo
        rw [if_pos inside, here]
        rfl
      obtain ⟨after, ran, node, kept⟩ := right true storage storing (Or.inl rfl)
      refine ⟨after, ?_, node, kept⟩
      rw [block, there]
      dsimp only
      rw [if_pos kind, ran]
    | false =>
      obtain ⟨guessed, guessedPage⟩ := scan.guess codeStart here
      have block : getMappedBlockNumber start (id / tuplesPerPage tupleSize) storage.codeBlknos =
          start + id / tuplesPerPage tupleSize := by
        unfold getMappedBlockNumber
        rw [storing.map]
        rfl
      have guessIs : guessBlock state.codeStart (id / tuplesPerPage tupleSize) =
          some (start + id / tuplesPerPage tupleSize) := by
        rw [codeStart]
        rfl
      have guess := guess.resolve_left Bool.false_ne_true
      have code := isCode_of_page guessedPage
      rw [block, guessedPage, Bool.false_or]
      dsimp only
      by_cases guessedKind : guessed.kind = some .quantCode
      · have isCode := code.mpr guessedKind
        rw [← guessIs] at isCode
        have same := guess isCode
        rw [chainBlock_eq scan.chain, here, guessIs] at same
        have samePage : guessed = page := by
          rw [Option.some.inj same, guessedPage] at there
          exact Option.some.inj there
        obtain ⟨after, ran, node, kept⟩ := right false storage storing (Or.inr ⟨isCode, guess⟩)
        refine ⟨after, ?_, node, ?_⟩
        · rw [if_pos guessedKind, samePage, ran]
        · rw [isCode]
          exact kept
      · have notCode : isCode state.pages (guessBlock state.codeStart
            (id / tuplesPerPage tupleSize)) = false := by
          rw [guessIs]
          exact Bool.eq_false_iff.mpr fun isCode => guessedKind (code.mp isCode)
        have map : storage.codeBlknos = fun _ => none := storing.map
        have resolved := resolve_chain chain enough inside
        have filled : Storing tupleSize state blocks bodies true
            { storage with codeBlknos := mapUpTo blocks storage.codePageCount } :=
          ⟨storing.perPage, storing.count, rfl, fun _ _ => Or.inl rfl, storing.nodes,
            storing.uncached⟩
        obtain ⟨after, ran, node, kept⟩ := right true _ filled (Or.inl rfl)
        refine ⟨after, ?_, node, ?_⟩
        · rw [if_neg guessedKind, map, storing.count, resolved, here]
          dsimp only
          rw [there]
          dsimp only
          rw [storing.count] at ran
          rw [if_pos kind, ran]
        · rw [notCode]
          exact kept

/-- **A wrong guess loads another page** and reports the node as absent. -/
theorem loadCodePage_wrong (scan : ScanChain tupleSize state blocks bodies)
    (storing : Storing tupleSize state blocks bodies false storage) {start : Nat}
    (codeStart : state.codeStart = some start) (below : id < state.nodeCount)
    (wrong : ¬ GuessRight state (id / tuplesPerPage tupleSize)) :
    ∃ after, loadCodePage state.pages state.nodeCount state.codeStart storage id =
      .ok (false, after) := by
  obtain ⟨inside, enough⟩ := scan.pageNo below
  have here := List.getElem?_eq_getElem (inside.trans_le enough)
  have unloaded : ¬ storage.codePagesLoaded (id / tuplesPerPage tupleSize) = true := by
    intro loaded
    rcases storing.loaded _ loaded with none | ⟨-, right⟩
    · cases none
    · exact wrong right
  obtain ⟨guessed, guessedPage⟩ := scan.guess codeStart here
  have guessIs : guessBlock state.codeStart (id / tuplesPerPage tupleSize) =
      some (start + id / tuplesPerPage tupleSize) := by
    rw [codeStart]
    rfl
  unfold GuessRight at wrong
  push Not at wrong
  obtain ⟨code, other⟩ := wrong
  rw [guessIs] at code other
  have kind := (isCode_of_page guessedPage).mp code
  rw [chainBlock_eq scan.chain] at other
  -- The page that is read is another one of the chain.
  obtain ⟨pageNo, position, found⟩ := List.getElem_of_mem
    (scan.onChain (Nat.zero_lt_of_lt below) _ _ guessedPage kind)
  have there : blocks[pageNo]? = some (start + id / tuplesPerPage tupleSize) := by
    rw [List.getElem?_eq_getElem position, found]
  have missing : guessed.items.foldl (loadTuple state.nodeCount) storage.nodes id = none := by
    rw [foldl_loadTuple_of_not_mem, storing.nodes id below, if_neg unloaded]
    rintro tuple member rfl
    obtain ⟨named, body, quotient, -, rfl⟩ := (scan.page_tuples there guessedPage).mp member
    exact other (quotient ▸ there)
  have block : getMappedBlockNumber start (id / tuplesPerPage tupleSize) storage.codeBlknos =
      start + id / tuplesPerPage tupleSize := by
    unfold getMappedBlockNumber
    rw [storing.map]
    rfl
  rw [loadCodePage_inside storing codeStart below inside, if_neg unloaded]
  unfold readCodePage
  rw [block, guessedPage]
  dsimp only
  rw [if_pos kind]
  unfold loadTuples
  dsimp only
  rw [missing]
  exact ⟨_, rfl⟩

/-! ### Every order of calls -/

/-- **The calls are right exactly when no guess is wrong** before the map is filled. -/
theorem ScanChain.calls_right_iff (scan : ScanChain tupleSize state blocks bodies)
    (own : ∀ id < state.nodeCount, vectorOf state.pages state.codeStart id = bodies[id]?)
    (storing : Storing tupleSize state blocks bodies mapped storage) (calls : List Nat) :
    LoadsRight state storage calls ↔
      GuessesRight state (tuplesPerPage tupleSize) mapped calls := by
  induction calls generalizing storage mapped with
  | nil => exact Iff.rfl
  | cons id calls ih =>
    rw [LoadsRight, GuessesRight]
    by_cases below : id < state.nodeCount
    · have vector := List.getElem?_eq_getElem (below.trans_le scan.nodes)
      have ownId : ownVector state id = bodies[id]? := by
        rw [ownVector, if_pos below, own id below]
      obtain ⟨start, codeStart⟩ : ∃ start, state.codeStart = some start := by
        have chain := scan.chain
        obtain ⟨inside, enough⟩ := scan.pageNo below
        cases here : state.codeStart with
        | some start => exact ⟨start, rfl⟩
        | none =>
          rw [here] at chain
          cases blocks with
          | nil => exact absurd (inside.trans_le enough) (Nat.not_lt_zero _)
          | cons block rest => cases chain.1
      rw [if_pos below, ownId, vector]
      by_cases guess : mapped = true ∨ GuessRight state (id / tuplesPerPage tupleSize)
      · obtain ⟨after, ran, node, kept⟩ :=
          loadCodePage_right scan storing codeStart below guess
        constructor
        · rintro ⟨other, again, -, later⟩
          obtain rfl := (Prod.mk.inj (Except.ok.inj (ran.symm.trans again))).2
          exact ⟨guess, (ih kept).mp later⟩
        · rintro ⟨-, later⟩
          exact ⟨after, ran, fun _ => node.trans vector, (ih kept).mpr later⟩
      · obtain ⟨unmapped, wrong⟩ := not_or.mp guess
        rw [Bool.not_eq_true] at unmapped
        subst unmapped
        obtain ⟨after, ran⟩ := loadCodePage_wrong scan storing codeStart below wrong
        constructor
        · rintro ⟨other, again, -, -⟩
          cases (Prod.mk.inj (Except.ok.inj (ran.symm.trans again))).1
        · rintro ⟨right, -⟩
          exact absurd right guess
    · have ownId : ownVector state id = none := if_neg below
      rw [if_neg below, ownId]
      have ran := @loadCodePage_outside _ state storage _ (not_lt.mp below)
      constructor
      · rintro ⟨other, again, -, later⟩
        obtain rfl := (Prod.mk.inj (Except.ok.inj (ran.symm.trans again))).2
        exact (ih storing).mp later
      · intro later
        exact ⟨storage, ran, (fun none => nomatch none), (ih storing).mpr later⟩

/-- **Lazy loading is complete exactly for the orders of calls without a wrong guess**, in every
state that a build and inserts lead to. -/
theorem loads_iff {dataBytes : Nat} {start : IndexState Body}
    (built : Built (codeTupleSize dataBytes) bodies start)
    (reached : ReachedBy (insertStep index (codeTupleSize dataBytes)) CodeUnwritten start state)
    (calls : List Nat) :
    LoadsRight state (initStorage (codeTupleSize dataBytes) state.nodeCount) calls ↔
      GuessesRight state (tuplesPerPage (codeTupleSize dataBytes)) false calls := by
  obtain ⟨blocks, bodies, scan, own⟩ := (chainKept_reached built reached).scanChain
  exact scan.calls_right_iff own storing_init calls

end Chain

/-! ### A chain between other pages -/

def emptyIndex : IndexState Nat := builtIndex [emptyPage .other] none 0 []

theorem emptyIndex_built : Built (codeTupleSize 5000) [] emptyIndex :=
  ⟨⟨[emptyPage .other], _, _, _, by decide, rfl, rfl⟩, fun tuple none => nomatch none⟩

/-- Four inserts of large codes. Each adds a page for its exact vector before its code page, and the
first also one for the adjacency tuples: the code pages are blocks 2, 5, 7 and 9. -/
def largeInserts : List (InsertAction Nat) :=
  [.start 0 40 [[]], .extend (emptyPage .other), .code, .extend (emptyPage .other), .adjacency,
    .publish, .start 0 41 [[]], .extend (emptyPage .other), .code, .adjacency, .publish,
    .start 0 42 [[]], .extend (emptyPage .other), .code, .adjacency, .publish,
    .start 0 43 [[]], .extend (emptyPage .other), .code, .adjacency, .publish]

/-- Page 1 has no code page as its guess, so that the map is filled before page 3 is read. -/
theorem loads_mapped : ∃ state,
    ReachedBy (insertStep 1 (codeTupleSize 5000)) CodeUnwritten emptyIndex state ∧
      LoadsRight state (initStorage (codeTupleSize 5000) state.nodeCount) [1, 3] := by
  have run : runMeeting (insertStep 1 (codeTupleSize 5000)) CodeUnwritten emptyIndex largeInserts =
    some _ := rfl
  have reached := reachedBy_of_runMeeting run
  exact ⟨_, reached, (loads_iff emptyIndex_built reached [1, 3]).mpr (by decide)⟩

/-- **Page 3 alone is missed**: its guess, block 5, is the code page of node 1. -/
theorem wrongGuess_missing : ∃ state,
    ReachedBy (insertStep 1 (codeTupleSize 5000)) CodeUnwritten emptyIndex state ∧
      ownVector state 3 = some 43 ∧
      ∃ after, loadCodePage state.pages state.nodeCount state.codeStart
        (initStorage (codeTupleSize 5000) state.nodeCount) 3 = .ok (false, after) := by
  have run : runMeeting (insertStep 1 (codeTupleSize 5000)) CodeUnwritten emptyIndex largeInserts =
    some _ := rfl
  exact ⟨_, reachedBy_of_runMeeting run, rfl, _, rfl⟩

end TurboHybrid.CodeChain
